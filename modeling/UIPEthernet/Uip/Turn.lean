import UIPEthernet.Uip
import UIPEthernet.Headers.Frame
import UIPEthernet.UIPClient.Tables

/-!
# What uip_process does for a connection

A segment for a connection runs the callback at most once. `Turn` says all
that happens: the connection changes before the callback and behind it, and
nothing else does.
-/

namespace UIPEthernet.System

open TcpState

/-- The mss never grows, nor does a segment beyond it. -/
def Small (conn : Conn) : Prop :=
  conn.mss ≤ UIP_TCP_MSS ∧ conn.initialmss ≤ UIP_TCP_MSS ∧ conn.len ≤ UIP_TCP_MSS

theorem one_le_mss : 1 ≤ UIP_TCP_MSS := by decide

/-- Only the connection and the scratch globals change. The connection keeps
its entry; a stopped one comes from nowhere. -/
structure Touch (c : Fin UIP_CONNS) (s s' : System) : Prop where
  same : s' = { s with uip := s'.uip, uipConns := s'.uipConns }
  others : ∀ i ≠ c, s'.uipConns i = s.uipConns i
  appstate : (s'.uipConns c).appstate = (s.uipConns c).appstate
  flags : (s'.uipConns c).tcpstateflags = (s.uipConns c).tcpstateflags ∨
    (s'.uipConns c).tcpstateflags.state ≠ UIP_ESTABLISHED ∨ (s'.uipConns c).tcpstateflags.stopped = false
  small : Small (s.uipConns c) → Small (s'.uipConns c)

/-- The connection keeps its port. -/
structure Stays (c : Fin UIP_CONNS) (s s' : System) : Prop extends Touch c s s' where
  lport : (s'.uipConns c).lport = (s.uipConns c).lport

/-- The connection goes on if it is established. -/
structure Goes (c : Fin UIP_CONNS) (s s' : System) : Prop extends Stays c s s' where
  established : (s.uipConns c).tcpstateflags.state = UIP_ESTABLISHED →
    (s'.uipConns c).tcpstateflags.state = UIP_ESTABLISHED

/-- Whether the callback is told that the connection ends. -/
def Ending (flags : BitVec 8) : Prop := has flags (UIP_CLOSE ||| UIP_ABORT ||| UIP_TIMEDOUT)

instance (flags : BitVec 8) : Decidable (Ending flags) := inferInstanceAs (Decidable (_ = true))

/-- What is done before the callback for a segment, `n` being the length of the
payload that `uip_process` looks at. -/
structure Before (c : Fin UIP_CONNS) (n : Nat) (s s₁ : System) : Prop extends Stays c s s₁ where
  unasked : ¬has s₁.uip.uipFlags (UIP_POLL ||| UIP_REXMIT)
  newdata : has s₁.uip.uipFlags UIP_NEWDATA →
    s₁.uip.uipLen = 0 ∨ s₁.uip.uipLen = n ∨ has s₁.uip.uipFlags UIP_CLOSE
  connected : has s₁.uip.uipFlags UIP_CONNECTED →
    (s₁.uipConns c).tcpstateflags.stopped = false ∧ ¬Ending s₁.uip.uipFlags
  live : Ending s₁.uip.uipFlags ∨ (s₁.uipConns c).tcpstateflags.state = UIP_ESTABLISHED
  aborted : has s₁.uip.uipFlags UIP_ABORT → has (s.uip.uipBuf Offset.tcpflags) TCP_RST ∨
    (s.uipConns c).tcpstateflags.state ≠ UIP_ESTABLISHED

/-- What is done behind it. -/
structure After (c : Fin UIP_CONNS) (s₁ s₂ s' : System) : Prop extends Stays c s₂ s' where
  goes : Ending s₁.uip.uipFlags ∨ has s₂.uip.uipFlags (UIP_ABORT ||| UIP_CLOSE) ∨ Goes c s₂ s'

/-- A run of `uip_process` for a segment of a connection: without a callback,
or with one. -/
inductive Turn (c : Fin UIP_CONNS) (n : Nat) (s s' : System) : Prop
  | quiet (h : Goes c s s')
  | served (s₁ s₂ : System) (hpre : Before c n s s₁) (hcall : uipclientAppcall s₁ c = some s₂) (hpost : After c s₁ s₂ s')

variable {s s' s₁ s₂ : System} {c : Fin UIP_CONNS}

theorem Touch.refl (c : Fin UIP_CONNS) (s : System) : Touch c s s :=
  ⟨rfl, fun _ _ => rfl, rfl, .inl rfl, id⟩

theorem OnlyUip.touch (h : OnlyUip s s') : Touch c s s' := by
  refine ⟨?_, fun i _ => by rw [h.uipConns], by rw [h.uipConns], .inl (by rw [h.uipConns]),
    by rw [h.uipConns]; exact id⟩
  rw [h.uipConns]
  exact h.symm

theorem Touch.trans (h₁ : Touch c s s₁) (h₂ : Touch c s₁ s₂) : Touch c s s₂ := by
  refine ⟨?_, fun i hi => (h₂.others i hi).trans (h₁.others i hi), h₂.appstate.trans h₁.appstate, ?_,
    h₂.small ∘ h₁.small⟩
  · rw [h₂.same, h₁.same]
  · rcases h₂.flags with he | he
    · rw [he]
      exact h₁.flags
    · exact .inr he

theorem Stays.trans (h₁ : Stays c s s₁) (h₂ : Stays c s₁ s₂) : Stays c s s₂ :=
  ⟨h₁.toTouch.trans h₂.toTouch, h₂.lport.trans h₁.lport⟩

theorem Goes.refl (c : Fin UIP_CONNS) (s : System) : Goes c s s := ⟨⟨.refl c s, rfl⟩, id⟩

theorem Goes.trans (h₁ : Goes c s s₁) (h₂ : Goes c s₁ s₂) : Goes c s s₂ :=
  ⟨h₁.toStays.trans h₂.toStays, h₂.established ∘ h₁.established⟩

theorem OnlyUip.goes (h : OnlyUip s s') : Goes c s s' := ⟨⟨h.touch, by rw [h.uipConns]⟩, by rw [h.uipConns]; exact id⟩

@[simp] theorem addRcvNxt_uip (n : Nat) : (s.addRcvNxt c n).uip = s.uip := rfl

@[simp] theorem mapConn_uip (f : Conn → Conn) : (s.mapConn c f).uip = s.uip := rfl

theorem setLen_len (s : System) (n : Nat) : (s.setLen n).uip.uipLen = n := rfl

theorem setLen_buf (s : System) (n : Nat) : (s.setLen n).uip.uipBuf = s.uip.uipBuf := rfl

/-- A change of the connection. -/
theorem mapConn_touch (f : Conn → Conn) (happ : (f (s.uipConns c)).appstate = (s.uipConns c).appstate)
    (hflags : (f (s.uipConns c)).tcpstateflags = (s.uipConns c).tcpstateflags ∨
      (f (s.uipConns c)).tcpstateflags.state ≠ UIP_ESTABLISHED ∨
      (f (s.uipConns c)).tcpstateflags.stopped = false)
    (hsmall : Small (s.uipConns c) → Small (f (s.uipConns c))) : Touch c s (s.mapConn c f) := by
  refine ⟨rfl, fun i hi => Function.update_of_ne hi _ _, ?_, ?_, ?_⟩
  · rw [mapConn_self]
    exact happ
  · rw [mapConn_self]
    exact hflags
  · rw [mapConn_self]
    exact hsmall

/-- A change of the connection that keeps its port. -/
theorem mapConn_stays (f : Conn → Conn) (happ : (f (s.uipConns c)).appstate = (s.uipConns c).appstate)
    (hport : (f (s.uipConns c)).lport = (s.uipConns c).lport)
    (hflags : (f (s.uipConns c)).tcpstateflags = (s.uipConns c).tcpstateflags ∨
      (f (s.uipConns c)).tcpstateflags.state ≠ UIP_ESTABLISHED ∨
      (f (s.uipConns c)).tcpstateflags.stopped = false)
    (hsmall : Small (s.uipConns c) → Small (f (s.uipConns c))) : Stays c s (s.mapConn c f) := by
  refine ⟨mapConn_touch f happ hflags hsmall, ?_⟩
  rw [mapConn_self]
  exact hport

/-- A change of the connection that leaves its state. -/
theorem mapConn_goes (f : Conn → Conn) (happ : (f (s.uipConns c)).appstate = (s.uipConns c).appstate)
    (hport : (f (s.uipConns c)).lport = (s.uipConns c).lport)
    (hflags : (f (s.uipConns c)).tcpstateflags = (s.uipConns c).tcpstateflags)
    (hsmall : Small (s.uipConns c) → Small (f (s.uipConns c))) : Goes c s (s.mapConn c f) := by
  refine ⟨mapConn_stays f happ hport (.inl hflags) hsmall, fun hest => ?_⟩
  rw [mapConn_self, hflags]
  exact hest

/-- A change of a connection that is not established. -/
theorem mapConn_idle (f : Conn → Conn) (hstate : (s.uipConns c).tcpstateflags.state ≠ UIP_ESTABLISHED)
    (happ : (f (s.uipConns c)).appstate = (s.uipConns c).appstate)
    (hport : (f (s.uipConns c)).lport = (s.uipConns c).lport)
    (hflags : (f (s.uipConns c)).tcpstateflags.stopped = false)
    (hsmall : Small (s.uipConns c) → Small (f (s.uipConns c))) : Goes c s (s.mapConn c f) :=
  ⟨mapConn_stays f happ hport (.inr (.inr hflags)) hsmall, fun hest => absurd hest hstate⟩

theorem setTcpState_stays (state : TcpState) : Stays c s (s.setTcpState c state) :=
  mapConn_stays _ rfl rfl (.inr (.inr rfl)) id

theorem addRcvNxt_goes (n : Nat) : Goes c s (s.addRcvNxt c n) :=
  mapConn_goes _ rfl rfl rfl id

-- ---------------------------------------------------------------------------
-- What is sent behind the callback
-- ---------------------------------------------------------------------------

/-- The length of a new segment. -/
theorem segmentLen_goes (c : Fin UIP_CONNS) (s : System) : Goes c s
    (if (s.uipConns c).len = 0 then
      (s.setSlen (min s.uip.uipSlen (s.uipConns c).mss)).mapConn c fun conn =>
        { conn with len := min s.uip.uipSlen (s.uipConns c).mss }
    else s.setSlen (s.uipConns c).len) := by
  split
  · exact (setSlen_only _).goes.trans (mapConn_goes _ rfl rfl rfl fun h =>
      ⟨h.1, h.2.1, (Nat.min_le_right _ _).trans h.1⟩)
  · exact (setSlen_only _).goes

theorem segment_goes : Goes c s (s.segment c) := by
  unfold segment
  split
  · refine Goes.trans ?_ (segmentLen_goes c _)
    split
    · exact mapConn_goes _ rfl rfl rfl fun h => ⟨h.1, h.2.1, Nat.zero_le _⟩
    · exact .refl c s
  · exact .refl c s

theorem apprexmit_only (h : s.apprexmit c = some s') : OnlyUip s s' := by
  simp only [apprexmit] at h
  split at h
  · exact (tcpSendNoopts_only h).1
  · split at h
    · exact (tcpSendNoopts_only h).1
    · cases h
      exact rfl

/-- Nothing or a header without options is to be sent. -/
def Bare (s : System) : Prop := s.uip.uipLen ≤ UIP_IPTCPH_LEN

theorem drop_bare : Bare s.drop := Nat.zero_le _

theorem tcpSendNoopts_bare (h : s.tcpSendNoopts c = some s') (hlen : s.uip.uipLen = UIP_IPTCPH_LEN) : Bare s' := by
  rw [Bare, (tcpSendNoopts_only h).2]
  exact Nat.le_of_eq hlen

theorem tcpSendNodata_bare {flags : Byte} (h : s.tcpSendNodata c flags = some s') : Bare s' :=
  tcpSendNoopts_bare h rfl

theorem apprexmit_bare (h : s.apprexmit c = some s') (hslen : s.uip.uipSlen = 0) : Bare s' := by
  simp only [apprexmit] at h
  split at h
  · rename_i hpos
    exact absurd hpos.1 (by show ¬0 < s.uip.uipSlen; omega)
  · split at h
    · exact tcpSendNoopts_bare h rfl
    · cases h
      exact drop_bare

theorem segment_none (hslen : s.uip.uipSlen = 0) : s.segment c = s := by
  rw [segment, if_neg (by omega)]

theorem appsend_bare (h : s.appsend c = some s') (hslen : s.uip.uipSlen = 0) : Bare s' := by
  simp only [appsend] at h
  split at h
  · exact tcpSendNodata_bare h
  · split at h
    · exact tcpSendNodata_bare h
    · rw [segment_none hslen] at h
      exact apprexmit_bare h hslen

theorem appsend_stays (h : s.appsend c = some s') : Stays c s s' := by
  simp only [appsend] at h
  split at h
  · exact ((setSlen_only 0).goes.toStays.trans (setTcpState_stays _)).trans (tcpSendNodata_only h).goes.toStays
  · split at h
    · exact ((setSlen_only 0).goes.toStays.trans (mapConn_stays _ rfl rfl (.inr (.inr rfl))
        fun h => ⟨h.1, h.2.1, one_le_mss⟩)).trans
        (tcpSendNodata_only h).goes.toStays
    · exact ((segment_goes.trans (mapConn_goes _ rfl rfl rfl id)).trans (apprexmit_only h).goes).toStays

/-- A connection that the application neither aborts nor closes. -/
theorem appsend_goes (h : s.appsend c = some s') : has s.uip.uipFlags (UIP_ABORT ||| UIP_CLOSE) ∨ Goes c s s' := by
  rw [Tables.has_or, Bool.or_eq_true]
  simp only [appsend] at h
  split at h
  · rename_i habort
    exact .inl (.inl habort)
  · split at h
    · rename_i hclose
      exact .inl (.inr hclose)
    · exact .inr ((segment_goes.trans (mapConn_goes _ rfl rfl rfl id)).trans (apprexmit_only h).goes)

theorem appsend_after (h : s₂.appsend c = some s') : After c s₁ s₂ s' := ⟨appsend_stays h, .inr (appsend_goes h)⟩

-- ---------------------------------------------------------------------------
-- The turns
-- ---------------------------------------------------------------------------

/-- What happens before a turn. -/
theorem Turn.before {n : Nat} (h : Goes c s s₁) (hbuf : s₁.uip.uipBuf = s.uip.uipBuf) (ht : Turn c n s₁ s') :
    Turn c n s s' := by
  cases ht with
  | quiet h' => exact .quiet (h.trans h')
  | served s₁ s₂ hpre hcall hpost =>
    refine .served s₁ s₂ { hpre with
      toStays := h.toStays.trans hpre.toStays
      aborted := fun hf => ?_ } hcall hpost
    rw [← hbuf]
    exact (hpre.aborted hf).imp_right fun hstate hest => hstate (h.established hest)

/-- What happens before a turn of a connection that is not established. -/
theorem Turn.idle {n : Nat} (h : Stays c s s₁) (hstate : (s.uipConns c).tcpstateflags.state ≠ UIP_ESTABLISHED)
    (hbuf : s₁.uip.uipBuf = s.uip.uipBuf) (ht : Turn c n s₁ s') : Turn c n s s' :=
  ht.before ⟨h, fun hest => absurd hest hstate⟩ hbuf

/-- The callback at the end of a connection. -/
theorem Turn.ended {n : Nat} {flags : BitVec 8} (hpre : Stays c s s₁)
    (hflags : flags = UIP_ABORT ∨ flags = UIP_CLOSE ∨ flags = UIP_TIMEDOUT)
    (habort : flags = UIP_ABORT → has (s.uip.uipBuf Offset.tcpflags) TCP_RST ∨
      (s.uipConns c).tcpstateflags.state ≠ UIP_ESTABLISHED)
    (hcall : s₁.appcall c flags = some s₂) (hpost : Stays c s₂ s') : Turn c n s s' := by
  have hall : ∀ f ∈ [UIP_ABORT, UIP_CLOSE, UIP_TIMEDOUT], ¬has f (UIP_POLL ||| UIP_REXMIT) ∧ ¬has f UIP_NEWDATA ∧
      ¬has f UIP_CONNECTED ∧ Ending f ∧ (has f UIP_ABORT → f = UIP_ABORT) := by decide
  obtain ⟨hunasked, hnewdata, hconnected, hending, hrst⟩ := hall flags (by simpa using hflags)
  exact .served (s₁.setFlags flags) s₂
    { toStays := hpre.trans (setFlags_only _).goes.toStays
      unasked := hunasked
      newdata := fun h => absurd h hnewdata
      connected := fun h => absurd h hconnected
      live := .inl hending
      aborted := fun h => habort (hrst h) } hcall ⟨hpost, .inl hending⟩

-- ---------------------------------------------------------------------------
-- Segments
-- ---------------------------------------------------------------------------

/-- `uip_len` behind `found`: the length of the payload. -/
def segmentLen (s : System) : Nat :=
  sub16 (sub16 s.uip.uipLen ((s.uip.uipBuf Offset.tcpoffset >>> 4).toNat * 4)) UIP_IPH_LEN

/-- The length of the payload behind urgent data, which only an established
connection skips. -/
def payloadLen (s : System) (c : Fin UIP_CONNS) : Nat :=
  if (s.uipConns c).tcpstateflags.state = UIP_ESTABLISHED ∧ has (s.uip.uipBuf Offset.tcpflags) TCP_URG
  then sub16 s.segmentLen (s.uip.uipBuf.be16 Offset.urgp)
  else s.segmentLen

theorem parseMss_goes (h : s.parseMss c = some s') : Goes c s s' := by
  simp only [parseMss] at h
  split at h
  · obtain ⟨mss, -, h⟩ := Option.bind_eq_some_iff.mp h
    cases mss with
    | none =>
      cases h
      exact .refl c s
    | some mss =>
      cases h
      exact mapConn_goes _ rfl rfl rfl fun h => ⟨Nat.min_le_right _ _, Nat.min_le_right _ _, h.2.2⟩
  · cases h
    exact .refl c s

/-- What an acknowledgement leaves of the connection. -/
theorem ackConn_same (conn : Conn) : (ackConn conn).appstate = conn.appstate ∧ (ackConn conn).lport = conn.lport ∧
    (ackConn conn).tcpstateflags = conn.tcpstateflags ∧ (ackConn conn).mss = conn.mss ∧
    (ackConn conn).initialmss = conn.initialmss ∧ (ackConn conn).len = 0 := by
  simp only [ackConn]
  split <;> exact ⟨rfl, rfl, rfl, rfl, rfl, trivial⟩

theorem ackInput_goes : Goes c s (s.ackInput c) := by
  simp only [ackInput]
  split
  · obtain ⟨happ, hport, hflags, hmss, hinitial, hlen⟩ := ackConn_same (s.uipConns c)
    refine (mapConn_goes _ happ hport hflags fun h => ?_).trans (setFlags_only _).goes
    exact ⟨hmss ▸ h.1, hinitial ▸ h.2.1, hlen ▸ Nat.zero_le _⟩
  · exact .refl c s

theorem synRcvdInput_turn (h : s.synRcvdInput c = some s') : Turn c s.uip.uipLen s s' := by
  simp only [synRcvdInput] at h
  split at h
  · obtain ⟨s₂, hcall, hpost⟩ := Option.bind_eq_some_iff.mp h
    let s₀ := s.mapConn c fun conn => { conn with tcpstateflags := UIP_ESTABLISHED, len := 0 }
    let s₁ := if 0 < s.uip.uipLen then s₀.addRcvNxt c s.uip.uipLen else s₀
    have hest : Stays c s s₀ := mapConn_stays _ rfl rfl (.inr (.inr rfl)) fun h => ⟨h.1, h.2.1, Nat.zero_le _⟩
    have hdata : Goes c s₀ s₁ := by
      unfold s₁
      split
      · exact addRcvNxt_goes _
      · exact .refl c s₀
    have hconn : (s₁.uipConns c).tcpstateflags = UIP_ESTABLISHED := by
      unfold s₁
      split
      · rw [addRcvNxt, mapConn_self, mapConn_self]
      · rw [mapConn_self]
    have hlen : s₁.uip.uipLen = s.uip.uipLen := by
      unfold s₁
      split <;> rfl
    have hall : ∀ f ∈ [UIP_CONNECTED ||| UIP_NEWDATA, UIP_CONNECTED],
        ¬has f (UIP_POLL ||| UIP_REXMIT) ∧ ¬has f UIP_ABORT ∧ ¬Ending f := by decide
    have hflags : (if 0 < s.uip.uipLen then UIP_CONNECTED ||| UIP_NEWDATA else UIP_CONNECTED) ∈
        [UIP_CONNECTED ||| UIP_NEWDATA, UIP_CONNECTED] := by split <;> decide
    exact .served _ s₂
      { toStays := (hest.trans hdata.toStays).trans ((setSlen_only 0).trans (setFlags_only _)).goes.toStays
        unasked := (hall _ hflags).1
        newdata := fun _ => .inr (.inl hlen)
        connected := fun _ => ⟨congrArg TcpStateFlags.stopped hconn, (hall _ hflags).2.2⟩
        live := .inr (congrArg TcpStateFlags.state hconn)
        aborted := fun h => absurd h (hall _ hflags).2.1 } hcall (appsend_after hpost)
  · cases h
    exact .quiet drop_only.goes

theorem synSentInput_turn (n : Nat) (hstate : (s.uipConns c).tcpstateflags.state ≠ UIP_ESTABLISHED)
    (h : s.synSentInput c = some s') : Turn c n s s' := by
  simp only [synSentInput] at h
  split at h
  · obtain ⟨s₁, hmss, h⟩ := Option.bind_eq_some_iff.mp h
    obtain ⟨s₂, hcall, hpost⟩ := Option.bind_eq_some_iff.mp h
    let f (conn : Conn) : Conn :=
      { conn with tcpstateflags := UIP_ESTABLISHED, rcvNxt := s.uip.uipBuf.be32 Offset.seqno + 1, len := 0 }
    have hconn : ((s₁.mapConn c f).uipConns c).tcpstateflags = UIP_ESTABLISHED := by rw [mapConn_self]
    have hest : Stays c s₁ (s₁.mapConn c f) :=
      mapConn_stays _ rfl rfl (.inr (.inr rfl)) fun h => ⟨h.1, h.2.1, Nat.zero_le _⟩
    exact .served _ s₂
      { toStays := ((parseMss_goes hmss).toStays.trans hest).trans
          (((setLen_only 0).trans (setSlen_only 0)).trans (setFlags_only _)).goes.toStays
        unasked := (by decide : ¬has (UIP_CONNECTED ||| UIP_NEWDATA) (UIP_POLL ||| UIP_REXMIT))
        newdata := fun _ => .inl rfl
        connected := fun _ => ⟨congrArg TcpStateFlags.stopped hconn, (by decide : ¬Ending (UIP_CONNECTED ||| UIP_NEWDATA))⟩
        live := .inr (congrArg TcpStateFlags.state hconn)
        aborted := fun h => absurd h (by decide : ¬has (UIP_CONNECTED ||| UIP_NEWDATA) UIP_ABORT) } hcall
      (appsend_after hpost)
  · obtain ⟨s₂, hcall, hpost⟩ := Option.bind_eq_some_iff.mp h
    exact .ended (Goes.refl c s).toStays (.inl rfl) (fun _ => .inr hstate) hcall
      ((setTcpState_stays _).trans (reset_only hpost).goes.toStays)

/-- `uip_flags` when the state of the connection is looked at. -/
def Acked (s : System) : Prop := s.uip.uipFlags = 0 ∨ s.uip.uipFlags = UIP_ACKDATA

theorem finInput_turn (n : Nat) (hflags : Acked s) (h : s.finInput c = some s') : Turn c n s s' := by
  simp only [finInput] at h
  split at h
  · cases h
    exact .quiet drop_only.goes
  · obtain ⟨s₂, hcall, hpost⟩ := Option.bind_eq_some_iff.mp h
    have hall : ∀ f ∈ [0, UIP_ACKDATA], ∀ g ∈ [f ||| UIP_CLOSE, f ||| UIP_CLOSE ||| UIP_NEWDATA],
        has g UIP_CLOSE ∧ Ending g ∧ ¬has g (UIP_POLL ||| UIP_REXMIT) ∧ ¬has g UIP_CONNECTED ∧ ¬has g UIP_ABORT := by
      decide
    have hset : ∀ m, (if 0 < m then s.uip.uipFlags ||| UIP_CLOSE ||| UIP_NEWDATA else s.uip.uipFlags ||| UIP_CLOSE) ∈
        [s.uip.uipFlags ||| UIP_CLOSE, s.uip.uipFlags ||| UIP_CLOSE ||| UIP_NEWDATA] := by
      intro m
      split <;> simp
    have hin : s.uip.uipFlags ∈ [0, UIP_ACKDATA] := by
      rcases hflags with hf | hf <;> rw [hf] <;> decide
    obtain ⟨hclose, hending, hunasked, hconnected, habort⟩ := hall _ hin _ (hset s.uip.uipLen)
    exact .served _ s₂
      { toStays := (addRcvNxt_goes _).toStays.trans (setFlags_only _).goes.toStays
        unasked := hunasked
        newdata := fun _ => .inr (.inr hclose)
        connected := fun h => absurd h hconnected
        live := .inl hending
        aborted := fun h => absurd h habort } hcall
      ⟨(mapConn_stays _ rfl rfl (.inr (.inr rfl)) fun h => ⟨h.1, h.2.1, one_le_mss⟩).trans
        (tcpSendNodata_only hpost).goes.toStays, .inl hending⟩

theorem skipUrgent_only : OnlyUip s s.skipUrgent := by
  simp only [skipUrgent]
  split <;> rfl

theorem skipUrgent_len : s.skipUrgent.uip.uipLen =
    if has (s.uip.uipBuf Offset.tcpflags) TCP_URG then sub16 s.uip.uipLen (s.uip.uipBuf.be16 Offset.urgp)
    else s.uip.uipLen := by
  simp only [skipUrgent]
  split <;> rfl

theorem skipUrgent_flags : s.skipUrgent.uip.uipFlags = s.uip.uipFlags := by
  simp only [skipUrgent]
  split <;> rfl

theorem acceptData_goes : Goes c s (s.acceptData c) := by
  unfold acceptData
  split
  · exact (setFlags_only _).goes.trans (addRcvNxt_goes _)
  · exact .refl c s

theorem acceptData_len : (s.acceptData c).uip.uipLen = s.uip.uipLen := by
  unfold acceptData
  split <;> rfl

theorem acceptData_flags : (s.acceptData c).uip.uipFlags = s.uip.uipFlags ∨
    (s.acceptData c).uip.uipFlags = s.uip.uipFlags ||| UIP_NEWDATA := by
  unfold acceptData
  split
  · exact .inr rfl
  · exact .inl rfl

theorem updateMss_goes : Goes c s (s.updateMss c) := by
  unfold updateMss
  refine mapConn_goes _ rfl rfl rfl fun h => ⟨?_, h.2.1, h.2.2⟩
  show ite _ _ _ ≤ UIP_TCP_MSS
  split
  · exact h.2.1
  · rename_i hwnd
    exact (Nat.not_lt.mp fun hlt => hwnd (.inl hlt)).trans h.2.1

@[simp] theorem updateMss_uip : (s.updateMss c).uip = s.uip := rfl

theorem establishedInput_turn (hflags : Acked s) (hest : (s.uipConns c).tcpstateflags.state = UIP_ESTABLISHED)
    (h : s.establishedInput c = some s') : Turn c s.skipUrgent.uip.uipLen s s' := by
  simp only [establishedInput] at h
  split at h
  · exact finInput_turn _ hflags h
  · have hpre : Goes c s ((s.skipUrgent.acceptData c).updateMss c) :=
      (skipUrgent_only.goes.trans acceptData_goes).trans updateMss_goes
    split at h
    · obtain ⟨s₂, hcall, hpost⟩ := Option.bind_eq_some_iff.mp h
      have hset : ((s.skipUrgent.acceptData c).updateMss c).uip.uipFlags ∈
          [0, UIP_ACKDATA, UIP_NEWDATA, UIP_ACKDATA ||| UIP_NEWDATA] := by
        rw [updateMss_uip]
        rcases acceptData_flags (s := s.skipUrgent) (c := c) with ha | ha <;> rw [ha, skipUrgent_flags] <;>
          rcases hflags with hf | hf <;> rw [hf] <;> decide
      have hall : ∀ f ∈ [0, UIP_ACKDATA, UIP_NEWDATA, UIP_ACKDATA ||| UIP_NEWDATA],
          ¬has f (UIP_POLL ||| UIP_REXMIT) ∧ ¬has f UIP_CONNECTED ∧ ¬has f UIP_ABORT := by decide
      obtain ⟨hunasked, hconnected, habort⟩ := hall _ hset
      have hslen : Goes c s (((s.skipUrgent.acceptData c).updateMss c).setSlen 0) := hpre.trans (setSlen_only 0).goes
      exact .served _ s₂
        { toStays := hslen.toStays.trans (setFlags_only _).goes.toStays
          unasked := hunasked
          newdata := fun _ => .inr (.inl acceptData_len)
          connected := fun h => absurd h hconnected
          live := .inr (hslen.established hest)
          aborted := fun h => absurd h habort } hcall (appsend_after hpost)
    · cases h
      exact .quiet (hpre.trans drop_only.goes)

theorem finWaitFin_turn (n : Nat) (h : s.finWaitFin c = some s') : Turn c n s s' := by
  obtain ⟨s₂, hcall, hpost⟩ := Option.bind_eq_some_iff.mp h
  exact .ended (addRcvNxt_goes _).toStays (.inr (.inl rfl)) (fun h => absurd h (by decide)) hcall
    (tcpSendNodata_only hpost).goes.toStays

/-- Payload is counted before the FIN. -/
theorem countData_goes : Goes c s (if 0 < s.uip.uipLen then s.addRcvNxt c s.uip.uipLen else s) := by
  split
  · exact addRcvNxt_goes _
  · exact .refl c s

theorem countData_same : (if 0 < s.uip.uipLen then s.addRcvNxt c s.uip.uipLen else s : System).uip = s.uip := by
  split <;> rfl

theorem countData_state :
    ((if 0 < s.uip.uipLen then s.addRcvNxt c s.uip.uipLen else s : System).uipConns c).tcpstateflags =
      (s.uipConns c).tcpstateflags := by
  split
  · rw [addRcvNxt, mapConn_self]
  · rfl

theorem finWait1Input_turn (n : Nat) (hstate : (s.uipConns c).tcpstateflags.state ≠ UIP_ESTABLISHED)
    (h : s.finWait1Input c = some s') : Turn c n s s' := by
  simp only [finWait1Input] at h
  refine Turn.idle (countData_goes).toStays hstate (congrArg Uip.uipBuf countData_same) ?_
  have hstate' : ((if 0 < s.uip.uipLen then s.addRcvNxt c s.uip.uipLen else s : System).uipConns c).tcpstateflags.state ≠
      UIP_ESTABLISHED := by rwa [countData_state]
  generalize (if 0 < s.uip.uipLen then s.addRcvNxt c s.uip.uipLen else s) = t at h hstate' ⊢
  split at h
  · refine (finWaitFin_turn n h).idle (mapConn_stays _ ?_ ?_ (.inr (.inr ?_)) fun h => ?_) hstate' rfl
    · split <;> rfl
    · split <;> rfl
    · split <;> rfl
    · split
      · exact ⟨h.1, h.2.1, Nat.zero_le _⟩
      · exact h
  · split at h
    · cases h
      exact .quiet ((mapConn_idle _ hstate' rfl rfl rfl fun h => ⟨h.1, h.2.1, Nat.zero_le _⟩).trans drop_only.goes)
    · split at h
      · exact .quiet (tcpSendNodata_only h).goes
      · cases h
        exact .quiet drop_only.goes

theorem finWait2Input_turn (n : Nat) (hstate : (s.uipConns c).tcpstateflags.state ≠ UIP_ESTABLISHED)
    (h : s.finWait2Input c = some s') : Turn c n s s' := by
  simp only [finWait2Input] at h
  refine Turn.idle (countData_goes).toStays hstate (congrArg Uip.uipBuf countData_same) ?_
  have hstate' : ((if 0 < s.uip.uipLen then s.addRcvNxt c s.uip.uipLen else s : System).uipConns c).tcpstateflags.state ≠
      UIP_ESTABLISHED := by rwa [countData_state]
  generalize (if 0 < s.uip.uipLen then s.addRcvNxt c s.uip.uipLen else s) = t at h hstate' ⊢
  split at h
  · exact (finWaitFin_turn n h).idle (mapConn_stays _ rfl rfl (.inr (.inr rfl)) id) hstate' rfl
  · split at h
    · exact .quiet (tcpSendNodata_only h).goes
    · cases h
      exact .quiet drop_only.goes

theorem stateInput_turn (hflags : Acked s) (h : s.stateInput c = some s') :
    Turn c (if (s.uipConns c).tcpstateflags.state = UIP_ESTABLISHED then s.skipUrgent.uip.uipLen
      else s.uip.uipLen) s s' := by
  simp only [stateInput] at h
  cases hstate : (s.uipConns c).tcpstateflags.state <;> rw [hstate] at h
  case UIP_CLOSED =>
    cases h
    exact .quiet drop_only.goes
  case UIP_SYN_RCVD => exact synRcvdInput_turn h
  case UIP_SYN_SENT => exact synSentInput_turn _ (by rw [hstate]; decide) h
  case UIP_ESTABLISHED =>
    rw [if_pos rfl]
    exact establishedInput_turn hflags hstate h
  case UIP_FIN_WAIT_1 => exact finWait1Input_turn _ (by rw [hstate]; decide) h
  case UIP_FIN_WAIT_2 => exact finWait2Input_turn _ (by rw [hstate]; decide) h
  case UIP_CLOSING =>
    cases h
    refine .quiet (Goes.trans ?_ drop_only.goes)
    split
    · exact mapConn_idle _ (by rw [hstate]; decide) rfl rfl rfl id
    · exact .refl c s
  case UIP_TIME_WAIT => exact .quiet (tcpSendNodata_only h).goes
  case UIP_LAST_ACK =>
    simp only at h
    split at h
    · obtain ⟨s₂, hcall, hpost⟩ := Option.bind_eq_some_iff.mp h
      cases hpost
      exact .ended (setTcpState_stays _) (.inr (.inl rfl)) (fun h => absurd h (by decide)) hcall drop_only.goes.toStays
    · cases h
      exact .quiet drop_only.goes

/-- `ackInput` looks at the segment only. -/
theorem ackInput_same : (s.ackInput c).uip.uipBuf = s.uip.uipBuf ∧ (s.ackInput c).uip.uipLen = s.uip.uipLen ∧
    ((s.ackInput c).uipConns c).tcpstateflags = (s.uipConns c).tcpstateflags := by
  simp only [ackInput]
  split
  · refine ⟨rfl, rfl, ?_⟩
    rw [(setFlags_only _).uipConns, mapConn_self]
    exact (ackConn_same _).2.2.1
  · exact ⟨rfl, rfl, rfl⟩

theorem ackInput_acked (hflags : s.uip.uipFlags = 0) : Acked (s.ackInput c) := by
  simp only [ackInput]
  split
  · exact .inr rfl
  · exact .inl hflags

theorem found_turn (h : s.found c = some s') : Turn c (s.payloadLen c) s s' := by
  simp only [found] at h
  split at h
  · obtain ⟨s₂, hcall, hpost⟩ := Option.bind_eq_some_iff.mp h
    cases hpost
    rename_i hrst
    exact .ended ((setFlags_only 0).goes.toStays.trans (setTcpState_stays _)) (.inl rfl) (fun _ => .inl hrst) hcall
      drop_only.goes.toStays
  · let s₀ := (s.setFlags 0).setLen s.segmentLen
    have h₀ : Goes c s s₀ := ((setFlags_only 0).trans (setLen_only _)).goes
    split at h
    · exact .quiet (h₀.trans (tcpSendNodata_only h).goes)
    · obtain ⟨hbuf, hlen, hstate⟩ := ackInput_same (s := s₀) (c := c)
      have ht := (stateInput_turn (ackInput_acked rfl) h).before (h₀.trans ackInput_goes)
        (hbuf.trans (setLen_buf (s.setFlags 0) s.segmentLen))
      have hn : s.payloadLen c =
          if ((s₀.ackInput c).uipConns c).tcpstateflags.state = UIP_ESTABLISHED
          then (s₀.ackInput c).skipUrgent.uip.uipLen else (s₀.ackInput c).uip.uipLen := by
        have hlen₀ : s₀.uip.uipLen = s.segmentLen := setLen_len (s.setFlags 0) s.segmentLen
        have hbuf₀ : s₀.uip.uipBuf = s.uip.uipBuf := setLen_buf (s.setFlags 0) s.segmentLen
        rw [hstate, skipUrgent_len, hbuf, hlen, payloadLen, hlen₀, hbuf₀]
        by_cases hest : (s.uipConns c).tcpstateflags.state = UIP_ESTABLISHED
        · rw [if_pos (show (s₀.uipConns c).tcpstateflags.state = UIP_ESTABLISHED from hest)]
          simp only [hest, true_and]
        · rw [if_neg (show ¬(s₀.uipConns c).tcpstateflags.state = UIP_ESTABLISHED from hest)]
          simp only [hest, false_and, if_false]
      rw [hn]
      exact ht

/-- A connection is set up in the slot. -/
structure Opened (c : Fin UIP_CONNS) (s s' : System) : Prop where
  slot : s.unusedConn = some c
  touch : Touch c (s.record (.opened c)) s'

theorem mapConn_record (f : Conn → Conn) (e : Event) : (s.mapConn c f).record e = (s.record e).mapConn c f := rfl

theorem foundListen_opened (h : s.foundListen = some s') : OnlyUip s s' ∨ ∃ c, Opened c s s' := by
  simp only [foundListen] at h
  split at h
  · cases h
    exact .inl drop_only
  · rename_i c hslot
    obtain ⟨s₁, hmss, hsend⟩ := Option.bind_eq_some_iff.mp h
    rw [mapConn_record] at hmss
    refine .inr ⟨c, hslot, Touch.trans (.trans ?_ (parseMss_goes hmss).toTouch) (tcpSendSyn_only hsend).touch⟩
    exact mapConn_touch _ rfl (.inr (.inr rfl)) fun h => ⟨h.1, h.2.1, one_le_mss⟩

theorem uipConnect_opened {ripaddr : BitVec 32} {rport : Nat} {conn : Option (Fin UIP_CONNS)}
    (h : s.uipConnect ripaddr rport = some (s', conn)) :
    ∃ s₁, OnlyUip s s₁ ∧ match conn with
      | none => s' = s₁
      | some c => Opened c s₁ s' := by
  simp only [uipConnect, Option.bind_eq_bind, Option.bind_eq_some_iff] at h
  obtain ⟨lastport, -, h⟩ := h
  generalize hs₁ : ({ s with uip := { s.uip with lastport } } : System) = s₁ at h
  refine ⟨s₁, hs₁ ▸ rfl, ?_⟩
  split at h
  · cases h
    rfl
  · rename_i c hslot
    cases h
    refine ⟨hslot, ?_⟩
    rw [mapConn_record]
    exact mapConn_touch _ rfl (.inr (.inr rfl)) fun h => ⟨Nat.le_refl _, Nat.le_refl _, one_le_mss⟩

end UIPEthernet.System
