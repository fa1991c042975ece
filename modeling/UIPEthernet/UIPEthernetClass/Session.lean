import UIPEthernet.Uip.DataTurn
import UIPEthernet.UIPClient.Outcome
import UIPEthernet.UIPEthernetClass.Pieces

/-!
# The life of a connection

A turn of `uip_process` for a connection serves the entry it has, or gives it
one. Behind the turn the connection is still established if its entry is still
attached; the exception is a RST, which ends the connection behind the entry's
back.
-/

namespace UIPEthernet.System

open TcpState UIPClient Lib

/-- The entry `u` that the connection had or has got, behind the turn; `gone`
says that the connection may have ended under it. -/
inductive Fate (c u : Fin UIP_CONNS) (gone : Prop) (s s' : System) : Prop
  | kept (happ : (s'.uipConns c).appstate = some u)
      (hest : gone ∨ (s'.uipConns c).tcpstateflags.state = UIP_ESTABLISHED)
  | freed (hstate : (s'.allData u).state = 0) (happ : (s'.uipConns c).appstate = none)
  | leftover (hremote : has (s'.allData u).state UIP_CLIENT_REMOTECLOSED)
      (hdata : (s'.allData u).packetsIn 0 ≠ NOBLOCK) (hport : (s'.allData u).lport = (s.uipConns c).lport)
      (happ : (s'.uipConns c).appstate = none)

/-- What the turn does to the entries. -/
inductive Life (c : Fin UIP_CONNS) (rst : Prop) (s s' : System) : Prop
  | idle (happ : (s'.uipConns c).appstate = (s.uipConns c).appstate) (hdata : s'.allData = s.allData)
      (hlives : s'.lives = s.lives)
      (hest : (s.uipConns c).appstate ≠ none → (s.uipConns c).tcpstateflags.state = UIP_ESTABLISHED →
        (s'.uipConns c).tcpstateflags.state = UIP_ESTABLISHED)
  | attached (u : Fin UIP_CONNS) (hentry : (s.uipConns c).appstate = some u) (hwithin : Within u s s')
      (hfate : Fate c u (rst ∨ (s.uipConns c).tcpstateflags.state ≠ UIP_ESTABLISHED) s s')
  | fresh (u : Fin UIP_CONNS) (hnone : (s.uipConns c).appstate = none) (hfree : (s.allData u).state = 0)
      (hothers : ∀ v ≠ u, s'.allData v = s.allData v) (hlives : s'.lives = .attached c u :: s.lives)
      (hnew : ((s'.uipConns c).appstate = some u ∧ (s'.uipConns c).tcpstateflags.state = UIP_ESTABLISHED) ∨
        ((s'.allData u).state = 0 ∧ (s'.uipConns c).appstate = none))

/-- What a turn for the connection does; `rst` says that it was a RST. -/
structure Turned (c : Fin UIP_CONNS) (rst : Prop) (s s' : System) : Prop where
  others : ∀ i ≠ c, s'.uipConns i = s.uipConns i
  lport : (s'.uipConns c).lport = (s.uipConns c).lport
  life : Life c rst s s'

variable {s s' s₁ s₂ : System} {c u : Fin UIP_CONNS} {rst : Prop}

theorem Touch.tables (h : Touch c s s') : s'.tables = s.tables := by
  have happ : ∀ i, (s'.uipConns i).appstate = (s.uipConns i).appstate := by
    intro i
    by_cases hi : i = c
    · rw [hi, h.appstate]
    · rw [h.others i hi]
  rw [h.same]
  simp only [System.tables, Tables.mk.injEq, true_and]
  exact funext happ

theorem Touch.data (h : Touch c s s') : s'.allData = s.allData := by rw [h.same]

theorem Touch.lives (h : Touch c s s') : s'.lives = s.lives := by
  rw [h.same]
  rfl

theorem Goes.turned (h : Goes c s s') : Turned c rst s s' :=
  ⟨h.others, h.lport, .idle h.appstate h.toTouch.data h.toTouch.lives fun _ => h.established⟩

/-- A turn with a callback. -/
theorem turned_of_callback (hcall : Callback c s₁ s₂) (hpre : Stays c s s₁) (hconfined : Confined c s₁ s₂)
    (hpost : Stays c s₂ s')
    (hkept : ∀ u, Outcome c u s₁ s₂ → (s'.uipConns c).appstate = some u →
      (rst ∨ (s.uipConns c).tcpstateflags.state ≠ UIP_ESTABLISHED) ∨
        (s'.uipConns c).tcpstateflags.state = UIP_ESTABLISHED)
    (hfresh : has s₁.uip.uipFlags UIP_CONNECTED → ¬has s₁.uip.uipFlags (UIP_CLOSE ||| UIP_TIMEDOUT) ∧
      ∀ u, Outcome c u s₁ s₂ → (s'.uipConns c).appstate = some u →
        (s'.uipConns c).tcpstateflags.state = UIP_ESTABLISHED) : Turned c rst s s' := by
  have hdata : s'.allData = s₂.allData := hpost.toTouch.data
  have hdata₁ : s₁.allData = s.allData := hpre.toTouch.data
  have hport : (s₁.uipConns c).lport = (s.uipConns c).lport := hpre.lport
  have hfate : ∀ u (r : Prop), Outcome c u s₁ s₂ →
      ((s'.uipConns c).appstate = some u → r ∨ (s'.uipConns c).tcpstateflags.state = UIP_ESTABLISHED) → Fate c u r s s' := by
    intro u r houtcome hest
    cases houtcome with
    | kept _ _ happ => exact .kept (hpost.appstate.trans happ) (hest (hpost.appstate.trans happ))
    | freed hstate happ => exact .freed (by rw [hdata, hstate]) (hpost.appstate.trans happ)
    | leftover _ hremote hunread hlport happ =>
      exact .leftover (by rwa [hdata]) (by rwa [hdata]) (by rw [hdata, hlport, hport]) (hpost.appstate.trans happ)
  refine ⟨fun i hi => ?_, ?_, ?_⟩
  · rw [hpost.others i hi, hconfined.others i hi, hpre.others i hi]
  · rw [hpost.lport, hconfined.conn, hport]
  · cases hcall with
    | unattached hnone hconns hdata₂ hlives =>
      refine .idle ?_ (hdata.trans (hdata₂.trans hdata₁)) (hpost.toTouch.lives.trans (hlives.trans hpre.toTouch.lives)) ?_
      · rw [hpost.appstate, hconns, hpre.appstate]
      · exact fun hne => absurd (hpre.appstate.symm.trans hnone) hne
    | attached u hentry hwithin houtcome =>
      refine .attached u (hpre.appstate.symm.trans hentry) ⟨fun v hv => ?_, ?_⟩ (hfate u _ houtcome (hkept u houtcome))
      · rw [hdata, hwithin.others v hv, hdata₁]
      · exact hpost.toTouch.lives.trans (hwithin.lives.trans hpre.toTouch.lives)
    | fresh u hnone hflags hfree hothers hlives houtcome =>
      obtain ⟨hplain, hest⟩ := hfresh hflags
      refine .fresh u (hpre.appstate.symm.trans hnone) (by rw [← hdata₁, hfree]) (fun v hv => ?_) ?_ ?_
      · rw [hdata, hothers v hv, hdata₁]
      · exact hpost.toTouch.lives.trans (hlives.trans (by rw [hpre.toTouch.lives]))
      · cases hfate u False houtcome fun happ => .inr (hest u houtcome happ) with
        | kept happ hest' => exact .inl ⟨happ, hest'.resolve_left id⟩
        | freed hstate happ => exact .inr ⟨hstate, happ⟩
        | leftover _ _ _ happ =>
          cases houtcome with
          | kept _ _ happ' => exact absurd ((hpost.appstate.symm.trans happ).symm.trans happ').symm (Option.some_ne_none u)
          | freed hstate happ' => exact .inr ⟨by rw [hdata, hstate], happ⟩
          | leftover hended _ _ _ _ => exact absurd hended hplain

-- ---------------------------------------------------------------------------
-- The turns
-- ---------------------------------------------------------------------------

theorem ending_iff {flags : BitVec 8} : Ending flags ↔
    has flags (UIP_CLOSE ||| UIP_TIMEDOUT) ∨ has flags UIP_ABORT := by
  have h : UIP_CLOSE ||| UIP_ABORT ||| UIP_TIMEDOUT = (UIP_CLOSE ||| UIP_TIMEDOUT) ||| UIP_ABORT := by decide
  rw [Ending, h, Tables.has_or, Bool.or_eq_true]

/-- A connection whose end was not announced goes on behind a callback that
leaves its entry. -/
theorem goes_kept (houtcome : Outcome c u s₁ s₂) (hpost : Stays c s₂ s') (happ : (s'.uipConns c).appstate = some u)
    (hending : ¬Ending s₁.uip.uipFlags) (hconfined : Confined c s₁ s₂)
    (hest : (s₁.uipConns c).tcpstateflags.state = UIP_ESTABLISHED)
    (hgoes : has s₂.uip.uipFlags (UIP_ABORT ||| UIP_CLOSE) ∨ Goes c s₂ s') :
    (s'.uipConns c).tcpstateflags.state = UIP_ESTABLISHED := by
  obtain ⟨-, hflags⟩ := houtcome.flags (hpost.appstate.symm.trans happ)
  rcases hgoes with hclose | hgoes
  · rw [hflags _ (by decide), Tables.has_or, Bool.or_eq_true] at hclose
    refine absurd (ending_iff.mpr (hclose.symm.imp_left fun h => ?_)) hending
    rw [Tables.has_or, h, Bool.true_or]
  · refine hgoes.established ?_
    rw [hconfined.conn]
    exact hest

theorem Stays.paired (h : Stays c s s') (hp : s.tables.Paired) : s'.tables.Paired := by rwa [h.toTouch.tables]

/-- The turn of a segment. -/
theorem Turn.turned {n : Nat} (h : Turn c n s s') (hp : s.tables.Paired) :
    Turned c (has (s.uip.uipBuf Offset.tcpflags) TCP_RST) s s' ∧ s'.tables.Paired := by
  cases h with
  | quiet h => exact ⟨h.turned, h.toStays.paired hp⟩
  | served s₁ s₂ hpre hcall hpost =>
    have hp₁ := hpre.toStays.paired hp
    have hconfined := appcall_confined hcall
    refine ⟨turned_of_callback (appcall_callback hp₁ hcall) hpre.toStays hconfined hpost.toStays ?_ ?_,
      hpost.toStays.paired (appcall_paired hp₁ hcall)⟩
    · intro u houtcome happ
      obtain ⟨hended, -⟩ := houtcome.flags (hpost.appstate.symm.trans happ)
      by_cases hending : Ending s₁.uip.uipFlags
      · exact .inl (hpre.aborted ((ending_iff.mp hending).resolve_left hended))
      · exact .inr (goes_kept houtcome hpost.toStays happ hending hconfined (hpre.live.resolve_left hending)
          (hpost.goes.resolve_left hending))
    · intro hconnected
      have hending := (hpre.connected hconnected).2
      refine ⟨fun h => hending (ending_iff.mpr (.inl h)), fun u houtcome happ => ?_⟩
      exact goes_kept houtcome hpost.toStays happ hending hconfined (hpre.live.resolve_left hending)
        (hpost.goes.resolve_left hending)

/-- A callback that asks for data. -/
theorem Ticked.turned (hp : s.tables.Paired) (hpre : Ticked c s s₁)
    (hflags : s₁.uip.uipFlags = UIP_POLL ∨ s₁.uip.uipFlags = UIP_REXMIT)
    (hest : (s.uipConns c).tcpstateflags.state = UIP_ESTABLISHED) (hcall : uipclientAppcall s₁ c = some s₂)
    (hpost : Stays c s₂ s') (hgoes : has s₂.uip.uipFlags (UIP_ABORT ||| UIP_CLOSE) ∨ Goes c s₂ s') :
    Turned c False s s' ∧ s'.tables.Paired := by
  have hp₁ := hpre.toStays.paired hp
  have hconfined := appcall_confined hcall
  have hplain : ¬Ending s₁.uip.uipFlags ∧ ¬has s₁.uip.uipFlags UIP_CONNECTED := by
    rcases hflags with h | h <;> rw [h] <;> decide
  refine ⟨turned_of_callback (appcall_callback hp₁ hcall) hpre.toStays hconfined hpost ?_ ?_,
    hpost.paired (appcall_paired hp₁ hcall)⟩
  · intro u houtcome happ
    exact .inr (goes_kept houtcome hpost happ hplain.1 hconfined (hpre.established hest) hgoes)
  · exact fun hconnected => absurd hconnected hplain.2

/-- The turn of a timer. -/
theorem DataTurn.turned (h : DataTurn c s s') (hp : s.tables.Paired) : Turned c False s s' ∧ s'.tables.Paired := by
  cases h with
  | quiet h => exact ⟨h.turned, h.toStays.paired hp⟩
  | timedOut s₁ s₂ hpre hflags hcall hpost =>
    have hp₁ := hpre.paired hp
    have hstays : Stays c s₂ s' := (tcpSendNodata_only hpost).goes.toStays
    refine ⟨turned_of_callback (appcall_callback hp₁ hcall) hpre (appcall_confined hcall) hstays ?_ ?_,
      hstays.paired (appcall_paired hp₁ hcall)⟩
    · intro u houtcome happ
      refine absurd ?_ (houtcome.flags (hstays.appstate.symm.trans happ)).1
      rw [hflags]
      decide
    · rw [hflags]
      exact fun h => absurd h (by decide)
  | poll s₁ s₂ hpre hflags hest hlen hcall hpost =>
    exact hpre.turned hp (.inl hflags) hest hcall (appsend_stays hpost) (appsend_goes hpost)
  | rexmit s₁ s₂ hpre hflags hest hlen htimer hnrtx hcall hpost =>
    exact hpre.turned hp (.inr hflags) hest hcall (apprexmit_only hpost).goes.toStays (.inr (apprexmit_only hpost).goes)

-- ---------------------------------------------------------------------------
-- Around a turn
-- ---------------------------------------------------------------------------

/-- No connection and no entry changes. -/
structure Unmoved (s s' : System) : Prop where
  conns : s'.uipConns = s.uipConns
  data : s'.allData = s.allData
  lives : s'.lives = s.lives

theorem Unmoved.refl (s : System) : Unmoved s s := ⟨rfl, rfl, rfl⟩

theorem Unmoved.trans (h : Unmoved s s₁) (h' : Unmoved s₁ s₂) : Unmoved s s₂ :=
  ⟨h'.conns.trans h.conns, h'.data.trans h.data, h'.lives.trans h.lives⟩

theorem Unmoved.tables (h : Unmoved s s') : s'.tables = s.tables := by
  simp only [System.tables, h.conns, h.data]

theorem OnlyUip.unmoved (h : OnlyUip s s') : Unmoved s s' :=
  ⟨h.uipConns, h.allData, by rw [System.lives, h.history]; rfl⟩

theorem OnlySent.unmoved (h : OnlySent s s') : Unmoved s s' :=
  ⟨h.uipConns, h.allData, by rw [System.lives, h.history]; rfl⟩

theorem Fate.around {gone : Prop} (hpre : Unmoved s s₁) (hpost : Unmoved s₂ s') (h : Fate c u gone s₁ s₂) :
    Fate c u gone s s' := by
  cases h with
  | kept happ hest => exact .kept (by rwa [hpost.conns]) (by rwa [hpost.conns])
  | freed hstate happ => exact .freed (by rwa [hpost.data]) (by rwa [hpost.conns])
  | leftover hremote hdata hport happ =>
    exact .leftover (by rwa [hpost.data]) (by rwa [hpost.data]) (by rw [hpost.data, hport, hpre.conns])
      (by rwa [hpost.conns])

/-- What happens before and behind a turn. -/
theorem Turned.around (hpre : Unmoved s s₁) (hpost : Unmoved s₂ s') (h : Turned c rst s₁ s₂) : Turned c rst s s' := by
  obtain ⟨hothers, hlport, hlife⟩ := h
  refine ⟨fun i hi => ?_, ?_, ?_⟩
  · rw [hpost.conns, hothers i hi, hpre.conns]
  · rw [hpost.conns, hlport, hpre.conns]
  · cases hlife with
    | idle happ hdata hlives hest =>
      refine .idle ?_ ?_ ?_ ?_
      · rw [hpost.conns, happ, hpre.conns]
      · rw [hpost.data, hdata, hpre.data]
      · rw [hpost.lives, hlives, hpre.lives]
      · rw [hpost.conns, ← hpre.conns]
        exact hest
    | attached u hentry hwithin hfate =>
      refine .attached u ?_ ⟨fun v hv => ?_, ?_⟩ ?_
      · rw [← hpre.conns, hentry]
      · rw [hpost.data, hwithin.others v hv, hpre.data]
      · rw [hpost.lives, hwithin.lives, hpre.lives]
      · rw [← hpre.conns]
        exact hfate.around hpre hpost
    | fresh u hnone hfree hothers hlives hnew =>
      refine .fresh u ?_ ?_ (fun v hv => ?_) ?_ (by rwa [hpost.conns, hpost.data])
      · rw [← hpre.conns, hnone]
      · rw [← hpre.data, hfree]
      · rw [hpost.data, hothers v hv, hpre.data]
      · rw [hpost.lives, hlives, hpre.lives]

theorem Turned.mono {rst' : Prop} (himp : rst → rst') (h : Turned c rst s s') : Turned c rst' s s' := by
  obtain ⟨hothers, hlport, hlife⟩ := h
  refine ⟨hothers, hlport, ?_⟩
  cases hlife with
  | idle happ hdata hlives hest => exact .idle happ hdata hlives hest
  | attached u hentry hwithin hfate =>
    refine .attached u hentry hwithin ?_
    cases hfate with
    | kept happ hest => exact .kept happ (hest.imp_left fun h => h.imp_left himp)
    | freed hstate happ => exact .freed hstate happ
    | leftover hremote hdata hport happ => exact .leftover hremote hdata hport happ
  | fresh u hnone hfree hothers hlives hnew => exact .fresh u hnone hfree hothers hlives hnew

-- ---------------------------------------------------------------------------
-- New connections
-- ---------------------------------------------------------------------------

/-- A connection is set up in a slot that is closed or waits for its end. -/
structure Started (c : Fin UIP_CONNS) (s s' : System) : Prop where
  slot : (s.uipConns c).tcpstateflags.state ≠ UIP_ESTABLISHED
  others : ∀ i ≠ c, s'.uipConns i = s.uipConns i
  appstate : (s'.uipConns c).appstate = (s.uipConns c).appstate
  data : s'.allData = s.allData
  lives : s'.lives = .opened c :: s.lives

theorem Started.around (hpre : Unmoved s s₁) (hpost : Unmoved s₂ s') (h : Started c s₁ s₂) : Started c s s' := by
  obtain ⟨hslot, hothers, happ, hdata, hlives⟩ := h
  refine ⟨?_, fun i hi => ?_, ?_, ?_, ?_⟩
  · rwa [← hpre.conns]
  · rw [hpost.conns, hothers i hi, hpre.conns]
  · rw [hpost.conns, happ, hpre.conns]
  · rw [hpost.data, hdata, hpre.data]
  · rw [hpost.lives, hlives, hpre.lives]

/-- A fold that keeps what it has or takes the element at hand. -/
theorem foldl_chosen {α : Type} {P : α → Prop} {f : Option α → α → Option α}
    (hf : ∀ best a i, f best a = some i → i = a ∨ best = some i) {l : List α} {best : Option α} (hl : ∀ i ∈ l, P i)
    (hbest : ∀ i, best = some i → P i) {i : α} (h : l.foldl f best = some i) : P i := by
  induction l generalizing best with
  | nil => exact hbest i h
  | cons a rest ih =>
    refine ih (fun i hi => hl i (List.mem_cons_of_mem _ hi)) (fun i hi => ?_) h
    rcases hf best a i hi with rfl | hold
    · exact hl i List.mem_cons_self
    · exact hbest i hold

theorem unusedConn_flags (h : s.unusedConn = some c) :
    (s.uipConns c).tcpstateflags = UIP_CLOSED ∨ (s.uipConns c).tcpstateflags = UIP_TIME_WAIT := by
  simp only [unusedConn] at h
  split at h
  · rename_i i hfind
    obtain rfl := Option.some.inj h
    have hclosed := List.find?_some hfind
    exact .inl (of_decide_eq_true hclosed)
  · refine .inr (foldl_chosen (P := fun i => (s.uipConns i).tcpstateflags = UIP_TIME_WAIT) ?_
      (fun i hi => of_decide_eq_true (List.mem_filter.mp hi).2) (fun i hi => absurd hi.symm (Option.some_ne_none i)) h)
    intro best a i hi
    cases best with
    | none => exact .inl (Option.some.inj hi).symm
    | some b =>
      simp only at hi
      split at hi
      · exact .inl (Option.some.inj hi).symm
      · exact .inr hi

theorem unusedConn_state (h : s.unusedConn = some c) : (s.uipConns c).tcpstateflags.state ≠ UIP_ESTABLISHED := by
  rcases unusedConn_flags h with hflags | hflags <;> rw [hflags] <;> decide

theorem Opened.started (h : Opened c s s') : Started c s s' := by
  refine ⟨unusedConn_state h.slot, h.touch.others, h.touch.appstate, h.touch.data, ?_⟩
  rw [h.touch.lives]
  rfl

/-- What a piece of the run does to connections and entries. -/
inductive Session (rst : Fin UIP_CONNS → Prop) (s s' : System) : Prop
  | idle (h : Unmoved s s')
  | turn (c : Fin UIP_CONNS) (h : Turned c (rst c) s s')
  | opened (c : Fin UIP_CONNS) (h : Started c s s')

variable {resets resets' : Fin UIP_CONNS → Prop}

theorem Session.mono (himp : ∀ c, resets c → resets' c) (h : Session resets s s') : Session resets' s s' := by
  cases h with
  | idle h => exact .idle h
  | turn c h => exact .turn c (h.mono (himp c))
  | opened c h => exact .opened c h

theorem Session.around (hpre : Unmoved s s₁) (hpost : Unmoved s₂ s') (h : Session resets s₁ s₂) :
    Session resets s s' := by
  cases h with
  | idle h => exact .idle ((hpre.trans h).trans hpost)
  | turn c h => exact .turn c (h.around hpre hpost)
  | opened c h => exact .opened c (h.around hpre hpost)

-- ---------------------------------------------------------------------------
-- The first half of tick
-- ---------------------------------------------------------------------------

/-- Whether the frame that `tick` looks at is a RST for the connection. -/
def Resets (s : System) (c : Fin UIP_CONNS) : Prop :=
  has (s.fetch.frameBuf Offset.tcpflags) TCP_RST ∧ tcpMatches s.fetch.frameBuf (s.uipConns c)

/-- A packet set up for sending. -/
theorem setUp_unmoved (h : Handle) (flags : BitVec 8) (hdrlen slen : Nat) :
    Unmoved s ((((s.setUipPacket h).setPacketstate flags).setHdrlen hdrlen).setSlen slen) := ⟨rfl, rfl, rfl⟩

theorem udpAppcall_unmoved {i : Fin UIP_UDP_CONNS} (h : uipudpAppcall s i = some s') : Unmoved s s' := by
  unfold uipudpAppcall at h
  split at h
  · cases h
    exact .refl s
  · rename_i k _
    simp only [Option.bind_eq_bind, Option.pure_def] at h
    obtain ⟨s₁, hreceived, h⟩ := Option.bind_eq_some_iff.mp h
    cases h
    have h₁ : Unmoved s s₁ := by
      simp only [UIPUDP.received, UIPUDP.queue, Option.bind_eq_bind, Option.pure_def] at hreceived
      split at hreceived
      · obtain ⟨⟨net, b⟩, -, h⟩ := Option.bind_eq_some_iff.mp hreceived
        split at h
        · cases h
          exact ⟨rfl, rfl, rfl⟩
        · obtain ⟨net', -, h⟩ := Option.bind_eq_some_iff.mp h
          cases h
          exact ⟨rfl, rfl, rfl⟩
      · cases hreceived
        exact .refl s
    refine h₁.trans ?_
    rw [UIPUDP.polled]
    split
    · exact setUp_unmoved _ _ _ _
    · exact .refl s₁

theorem fetch_unmoved : Unmoved s s.fetch := by
  unfold fetch
  split <;> exact ⟨rfl, rfl, rfl⟩

theorem release_unmoved : Unmoved s s.release := by
  unfold release
  split <;> exact ⟨rfl, rfl, rfl⟩

/-- What the first half of `tick` does to connections and entries: nothing, or
it has found a segment for a connection, or a SYN for a port. -/
inductive Looked (s s' : System) : Prop
  | idle (h : Unmoved s s')
  | segment (s₁ s₂ : System) (c : Fin UIP_CONNS) (hpre : Unmoved s s₁) (hnet : s₁.net = s.fetch.net)
      (hbuf : s₁.uip.uipBuf = s.fetch.frameBuf) (hlen : s₁.uip.uipLen = s.fetch.frameBuf.be16 Offset.len)
      (hmatch : tcpMatches s.fetch.frameBuf (s.uipConns c)) (h : s₁.found c = some s₂) (hpost : Unmoved s₂ s')
  | opened (s₁ s₂ : System) (c : Fin UIP_CONNS) (hpre : Unmoved s s₁) (h : Opened c s₁ s₂) (hpost : Unmoved s₂ s')

theorem Input.looked (h : Input s₁ s₂) (hpre : Unmoved s s₁) (hnet : s₁.net = s.fetch.net) (hbuf : s₁.uip.uipBuf = s.fetch.frameBuf)
    (hpost : Unmoved s₂ s') : Looked s s' := by
  cases h with
  | scratch h => exact .idle ((hpre.trans h.unmoved).trans hpost)
  | segment s₃ c hpre₃ hbuf₃ hmatch h hlen =>
    rw [hbuf₃, hbuf, hpre₃.uipConns, hpre.conns] at hmatch
    rw [hbuf₃, hbuf] at hlen
    exact .segment s₃ s₂ c (hpre.trans hpre₃.unmoved) (hpre₃.net.trans hnet) (hbuf₃.trans hbuf) hlen hmatch h hpost
  | listen s₃ hpre₃ h =>
    rcases foundListen_opened h with honly | ⟨c, hopened⟩
    · exact .idle ((hpre.trans (hpre₃.trans honly).unmoved).trans hpost)
    · exact .opened s₃ s₂ c (hpre.trans hpre₃.unmoved) hopened hpost
  | datagram s₃ s₄ i hpre₃ _ _ hcall hpost₄ =>
    exact .idle ((hpre.trans ((hpre₃.unmoved.trans (udpAppcall_unmoved hcall)).trans hpost₄.unmoved)).trans hpost)

theorem tickInput_looked (h : s.tickInput = some s') : Looked s s' := by
  rcases tickInput_handled h with ⟨-, rfl⟩ | ⟨s₁, -, hhandled, rfl⟩
  · exact .idle fetch_unmoved
  · have hframe : Unmoved s ((s.fetch.setPacketstate UIPETHERNET_FREEPACKET).setLen (s.fetch.net.blockSize s.fetch.inPacket)) :=
      fetch_unmoved.trans ⟨rfl, rfl, rfl⟩
    cases hhandled with
    | scratch h => exact .idle ((hframe.trans h.unmoved).trans release_unmoved)
    | packet s₂ s₃ hpre hbuf hinput hsend =>
      have hset : ∀ t : System, Unmoved t (t.setUipPacket t.inPacket) := fun _ => ⟨rfl, rfl, rfl⟩
      exact hinput.looked ((hframe.trans (hset _)).trans hpre.unmoved) hpre.net hbuf
        ((sendOut_only hsend).unmoved.trans release_unmoved)
    | reply s₂ ok hpre hsend =>
      exact .idle (((hframe.trans hpre.unmoved).trans (networkSend_only hsend).unmoved).trans release_unmoved)

theorem tickInput_session (h : s.tickInput = some s') (hp : s.tables.Paired) :
    Session s.Resets s s' ∧ s'.tables.Paired := by
  cases tickInput_looked h with
  | idle h => exact ⟨.idle h, by rwa [h.tables]⟩
  | segment s₁ s₂ c hpre _ hbuf _ hmatch h hpost =>
    obtain ⟨hturned, hpaired⟩ := (found_turn h).turned (by rwa [hpre.tables])
    rw [hbuf] at hturned
    exact ⟨.turn c ((hturned.mono fun hrst => ⟨hrst, hmatch⟩).around hpre hpost), by rwa [hpost.tables]⟩
  | opened s₁ s₂ c hpre h hpost =>
    refine ⟨.opened c (h.started.around hpre hpost), ?_⟩
    rw [hpost.tables, h.touch.tables, System.tables_record, hpre.tables]
    exact hp

theorem tickConn_turned {now nullTimer : BitVec 32} {periodic : Bool} (h : s.tickConn now nullTimer periodic c = some s')
    (hp : s.tables.Paired) : Turned c False s s' ∧ s'.tables.Paired := by
  have hturn : ∀ {t}, DataTurn c s t → t.sendOut = some s' → Turned c False s s' ∧ s'.tables.Paired := by
    intro t ht hsend
    obtain ⟨hturned, hpaired⟩ := ht.turned hp
    have hpost := (sendOut_only hsend).unmoved
    exact ⟨hturned.around (.refl s) hpost, by rwa [hpost.tables]⟩
  simp only [tickConn, Option.bind_eq_bind, Option.pure_def] at h
  split at h
  · obtain ⟨s₁, htimer, hsend⟩ := Option.bind_eq_some_iff.mp h
    exact hturn (uipTimer_data htimer) hsend
  · split at h
    · obtain ⟨s₁, hpoll, hsend⟩ := Option.bind_eq_some_iff.mp h
      exact hturn (uipPoll_data hpoll) hsend
    · cases h
      exact ⟨(Goes.refl c s).turned, hp⟩

theorem tickConn_session {now nullTimer : BitVec 32} {periodic : Bool} (h : s.tickConn now nullTimer periodic c = some s')
    (hp : s.tables.Paired) : Session (fun _ => False) s s' ∧ s'.tables.Paired :=
  (tickConn_turned h hp).imp_left (.turn c)

end UIPEthernet.System
