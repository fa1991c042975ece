import UIPEthernet.UIPClient.Connect
import UIPEthernet.UIPClient.Write

/-!
# The receive window

A connection is stopped when its queue is full or the pool has no room, and the
window opens again when `read` has set UIP_CLIENT_RESTART. A stopped connection
with neither unread data nor this flag never receives again.
-/

namespace UIPEthernet

open Lib

namespace UIPClient

open UIPEthernet.System TcpState

/-- If the connection is stopped, there is something left to read or the next
callback opens the window. -/
def Awake (c : Fin UIP_CONNS) (s : System) : Prop :=
  ∀ u, (s.uipConns c).appstate = some u → (s.uipConns c).tcpstateflags = ⟨UIP_ESTABLISHED, true⟩ →
    ¬has (s.allData u).state UIP_CLIENT_CLOSE →
    (s.allData u).packetsIn 0 ≠ NOBLOCK ∨ has (s.allData u).state UIP_CLIENT_RESTART

variable {s s' s₁ s₂ : System} {c u : Fin UIP_CONNS} {n : Nat}

theorem Awake.of_none (hnone : (s.uipConns c).appstate = none) : Awake c s :=
  fun u happ => absurd (hnone.symm.trans happ) (Option.some_ne_none u).symm

theorem Awake.of_open (hopen : (s.uipConns c).tcpstateflags ≠ ⟨UIP_ESTABLISHED, true⟩) : Awake c s :=
  fun _ _ hstop => absurd hstop hopen

theorem Awake.tables (h : Awake c s) (ht : s'.tables = s.tables)
    (hflags : (s'.uipConns c).tcpstateflags = (s.uipConns c).tcpstateflags) : Awake c s' := by
  intro u happ hstop hclose
  have happ' : (s'.uipConns c).appstate = (s.uipConns c).appstate := congrFun (congrArg Tables.appstate ht) c
  have hstate : (s'.allData u).state = (s.allData u).state := congrFun (congrArg Tables.state ht) u
  have hin : (s'.allData u).packetsIn = (s.allData u).packetsIn := congrFun (congrArg Tables.packetsIn ht) u
  rw [hstate] at hclose ⊢
  rw [hin]
  exact h u (happ'.symm.trans happ) (hflags.symm.trans hstop) hclose

theorem Awake.apart (h : Awake c s) (ha : Apart c s s') : Awake c s' := by
  intro u happ hstop hclose
  rw [ha.conn] at happ hstop
  rw [ha.entry u happ] at hclose ⊢
  exact h u happ hstop hclose

theorem Awake.touch (h : Awake c s) (ht : Touch c s s') : Awake c s' := by
  rcases ht.flags with hsame | hspent | hopen
  · exact h.tables ht.tables hsame
  · exact .of_open fun hstop => hspent (by rw [hstop])
  · refine .of_open fun hstop => ?_
    rw [hstop] at hopen
    cases hopen

-- ---------------------------------------------------------------------------
-- The callback
-- ---------------------------------------------------------------------------

/-- A queue that is not empty stays so, and one that is gets the segment if
there is room. -/
theorem storeData_filled {slots : List (Fin UIP_SOCKET_NUMPACKETS)} {stored : Bool}
    (h : storeData c u slots s = some (s', stored)) :
    (s'.allData u).state = (s.allData u).state ∧
      ((s.allData u).packetsIn 0 ≠ NOBLOCK → (s'.allData u).packetsIn 0 ≠ NOBLOCK) := by
  induction slots generalizing s with
  | nil =>
    cases h
    exact ⟨rfl, id⟩
  | cons i rest ih =>
    rw [storeData] at h
    split at h
    · rename_i hi
      obtain ⟨⟨net, k⟩, -, h⟩ := Option.bind_eq_some_iff.mp h
      have hslot : (s.allData u).packetsIn 0 ≠ NOBLOCK → Function.update (s.allData u).packetsIn i k 0 ≠ NOBLOCK := by
        intro h0
        rw [Function.update_of_ne]
        · exact h0
        · rintro rfl
          exact h0 hi
      have hself : ((s.setNet net).setPacketsIn u (Function.update (s.allData u).packetsIn i k)).allData u =
          { s.allData u with packetsIn := Function.update (s.allData u).packetsIn i k } := setData_self _
      simp only at h
      split at h
      · obtain ⟨hstate, hin⟩ := ih h
        rw [hself] at hstate hin
        exact ⟨hstate, fun h0 => hin (hslot h0)⟩
      · obtain ⟨net', -, h⟩ := Option.bind_eq_some_iff.mp h
        have hdata : s'.allData u = { s.allData u with packetsIn := Function.update (s.allData u).packetsIn i k } := by
          split at h <;> cases h <;> exact hself
        rw [hdata]
        exact ⟨rfl, hslot⟩
    · exact ih h

theorem storeData_first {stored : Bool} (hroom : ∀ net, s.net.allocBlock s.uip.uipLen ≠ some (net, NOBLOCK))
    (h : storeData c u (List.finRange UIP_SOCKET_NUMPACKETS) s = some (s', stored)) :
    (s'.allData u).packetsIn 0 ≠ NOBLOCK := by
  by_cases hin : (s.allData u).packetsIn 0 = NOBLOCK
  · have hslots : List.finRange UIP_SOCKET_NUMPACKETS = 0 :: (List.finRange UIP_SOCKET_NUMPACKETS).tail := rfl
    rw [hslots, storeData, if_pos hin] at h
    obtain ⟨⟨net, k⟩, halloc, h⟩ := Option.bind_eq_some_iff.mp h
    have hk : k ≠ NOBLOCK := by
      rintro rfl
      exact hroom net halloc
    simp only [if_neg hk] at h
    obtain ⟨net', -, h⟩ := Option.bind_eq_some_iff.mp h
    have hself : ((s.setNet net).setPacketsIn u (Function.update (s.allData u).packetsIn 0 k)).allData u =
        { s.allData u with packetsIn := Function.update (s.allData u).packetsIn 0 k } := setData_self _
    have hdata : s'.allData u = { s.allData u with packetsIn := Function.update (s.allData u).packetsIn 0 k } := by
      cases h
      exact hself
    rw [hdata]
    show Function.update (s.allData u).packetsIn 0 k 0 ≠ NOBLOCK
    rw [Function.update_self]
    exact hk
  · exact (storeData_filled h).2 hin

/-- Nothing is unread, and the next callback does not open the window. -/
structure Spent (d : Userdata) : Prop where
  unread : d.packetsIn 0 = NOBLOCK
  restart : ¬has d.state UIP_CLIENT_RESTART
  close : ¬has d.state UIP_CLIENT_CLOSE

/-- Payload for such an entry finds room in the pool. -/
def Roomy (s : System) (u : Fin UIP_CONNS) : Prop :=
  has s.uip.uipFlags UIP_NEWDATA → s.uip.uipLen ≠ 0 → Spent (s.allData u) →
    ∀ net, s.net.allocBlock s.uip.uipLen ≠ some (net, NOBLOCK)

theorem newdata_awake (hs : Serving s c u) (h : Awake c s) (hroom : Roomy s u) (hrun : newdata s c u = some s') :
    Awake c s' := by
  have hserving := newdata_serving hs hrun
  simp only [newdata, Option.bind_eq_bind, Option.pure_def] at hrun
  split at hrun
  · rename_i hnew
    obtain ⟨⟨s₁, stored⟩, hstore, hrun⟩ := Option.bind_eq_some_iff.mp hrun
    obtain ⟨hstate, hkeeps⟩ := storeData_filled hstore
    have hdata : s'.allData = s₁.allData := by
      simp only at hrun
      split at hrun <;> cases hrun <;> rfl
    intro v hv _ hclose
    obtain rfl := Option.some.inj (hserving.entry.symm.trans hv)
    rw [hdata] at hclose ⊢
    rw [hstate] at hclose ⊢
    by_cases hin : (s.allData u).packetsIn 0 = NOBLOCK
    · by_cases hrestart : has (s.allData u).state UIP_CLIENT_RESTART
      · exact .inr hrestart
      · exact .inl (storeData_first (hroom hnew.1 hnew.2.1 ⟨hin, hrestart, hclose⟩) hstore)
    · exact .inl (hkeeps hin)
  · cases hrun
    exact h

theorem restart_awake (h : Awake c s) : Awake c (restart s c u) := by
  rw [restart]
  split
  · refine .of_open fun hstop => ?_
    rw [uipRestart, mapConn_self] at hstop
    exact Bool.false_ne_true (congrArg TcpStateFlags.stopped hstop)
  · exact h

theorem closing_awake (happ : (s.uipConns c).appstate = some u) (h : Awake c s) : Awake c (closing s c u) := by
  rw [closing]
  split
  · rename_i hclose
    split
    · exact .of_none (setAppstate_self none)
    · -- a connection that the sketch closes may be stopped for good
      intro v hv _ hopen
      rw [uipStop, mapConn_self] at hv
      obtain rfl := Option.some.inj (happ.symm.trans hv)
      exact absurd hclose hopen
  · exact h

theorem offer_conns {sendLen : Nat} (h : offer s c u = some (s', sendLen)) : s'.uipConns = s.uipConns := by
  simp only [offer, Option.bind_eq_bind, Option.pure_def] at h
  split at h
  · cases h
    rfl
  · obtain ⟨s₁, hprep, h⟩ := Option.bind_eq_some_iff.mp h
    cases h
    obtain ⟨net₀, hcut, -⟩ := cutHead_net s u
    rw [hcut] at hprep
    simp only [prepare, Option.bind_eq_bind, Option.pure_def] at hprep
    obtain ⟨⟨net, k⟩, -, hprep⟩ := Option.bind_eq_some_iff.mp hprep
    split at hprep
    · cases hprep
      rfl
    · obtain ⟨net', -, hprep⟩ := Option.bind_eq_some_iff.mp hprep
      cases hprep
      rfl

theorem acked_conns (h : acked s u = some s') : s'.uipConns = s.uipConns := by
  rw [acked] at h
  split at h
  · simp only [eatOut, Option.bind_eq_bind, Option.bind_eq_some_iff, Prod.exists] at h
    obtain ⟨net, block, -, h⟩ := h
    cases h
    rfl
  · cases h
    rfl

theorem finish_awake (h : Awake c s) (sendLen : Nat) : Awake c (finish s sendLen) :=
  h.apart (finish_unmoved sendLen).apart

theorem polled_awake (happ : (s.uipConns c).appstate = some u) (h : Awake c s) (hrun : polled s c u = some s') :
    Awake c s' := by
  simp only [polled, Option.bind_eq_bind, Option.pure_def] at hrun
  split at hrun
  · obtain ⟨⟨s₁, sendLen⟩, hoffer, hrun⟩ := Option.bind_eq_some_iff.mp hrun
    cases hrun
    exact finish_awake (h.tables (offer_ok hoffer) (by rw [offer_conns hoffer])) sendLen
  · cases hrun
    exact finish_awake (closing_awake happ h) 0

theorem serve_awake (hs : Serving s c u) (h : Awake c s)
    (hroom : ¬has s.uip.uipFlags (UIP_CLOSE ||| UIP_TIMEDOUT) → Roomy s u) (hrun : serve s c u = some s') : Awake c s' := by
  simp only [serve, Option.bind_eq_bind, Option.pure_def] at hrun
  obtain ⟨s₁, hnew, hrun⟩ := Option.bind_eq_some_iff.mp hrun
  have hs₂ := restart_serving (newdata_serving hs hnew)
  have hflags : has (restart s₁ c u).uip.uipFlags (UIP_CLOSE ||| UIP_TIMEDOUT) = has s.uip.uipFlags (UIP_CLOSE ||| UIP_TIMEDOUT) := by
    rw [restart_flags (by decide), newdata_uip hnew]
  split at hrun
  · obtain ⟨s₂, hclosed, hrun⟩ := Option.bind_eq_some_iff.mp hrun
    cases hrun
    simp only [closed, Option.bind_eq_bind, Option.bind_eq_some_iff, Option.pure_def, Option.some.injEq] at hclosed
    obtain ⟨s₃, -, rfl⟩ := hclosed
    exact finish_awake (.of_none (setAppstate_self none)) 0
  · rename_i hended
    obtain ⟨s₂, hack, hrun⟩ := Option.bind_eq_some_iff.mp hrun
    have h₂ : Awake c (restart s₁ c u) := restart_awake (newdata_awake hs h (hroom (hflags ▸ hended)) hnew)
    have htables := acked_tables hack
    exact polled_awake (hs₂.congr htables).entry (h₂.tables htables (by rw [acked_conns hack])) hrun

/-- The callback; `hopen` says that a connection is not stopped before it gets
an entry. -/
theorem appcall_awake (hp : s.tables.Paired) (h : Awake c s)
    (hopen : has s.uip.uipFlags UIP_CONNECTED → (s.uipConns c).tcpstateflags.stopped = false)
    (hroom : ¬has s.uip.uipFlags (UIP_CLOSE ||| UIP_TIMEDOUT) → has s.uip.uipFlags UIP_NEWDATA → s.uip.uipLen ≠ 0 →
      (∀ u, (s.uipConns c).appstate = some u → Spent (s.allData u)) →
      ∀ net, s.net.allocBlock s.uip.uipLen ≠ some (net, NOBLOCK)) (hrun : uipclientAppcall s c = some s') : Awake c s' := by
  have hpaired := attach_paired (c := c) hp
  simp only [uipclientAppcall] at hrun
  have hattach := attach_attach (s := s) (c := c)
  generalize attach s c = t at hrun hattach hpaired
  cases hattach with
  | old hold =>
    split at hrun
    · cases hrun
      exact finish_awake h 0
    · rename_i u happ
      refine serve_awake ⟨hpaired, happ⟩ h (fun hended hnew hlen hspent => hroom hended hnew hlen ?_) hrun
      intro v hv
      obtain rfl := Option.some.inj (happ.symm.trans hv)
      exact hspent
  | new s₁ u hnone hflags halloc =>
    have hentry : (((s₁.setAppstate c u).record (.attached c u)).uipConns c).appstate = some u := setAppstate_self _
    simp only [allocateData] at halloc
    split at halloc
    · cases halloc
    · cases halloc
      rw [hentry] at hrun
      refine serve_awake ⟨hpaired, hentry⟩ (.of_open fun hstop => ?_) (fun hended hnew hlen _ => hroom hended hnew hlen ?_) hrun
      · have hconn : ((s.setData u (.fresh u)).setAppstate c (some u)).uipConns c = { s.uipConns c with appstate := some u } :=
          mapConn_self _ _ _
        have hstop : (s.uipConns c).tcpstateflags = ⟨UIP_ESTABLISHED, true⟩ :=
          (congrArg Conn.tcpstateflags hconn).symm.trans hstop
        exact Bool.false_ne_true ((hopen hflags).symm.trans (congrArg TcpStateFlags.stopped hstop))
      · exact fun v hv => absurd (hnone.symm.trans hv) (Option.some_ne_none v).symm

-- ---------------------------------------------------------------------------
-- The turns of uip_process
-- ---------------------------------------------------------------------------

theorem turn_awake (h : Turn c n s s') (hp : s.tables.Paired) (haw : Awake c s)
    (hroom : n ≠ 0 → (∀ u, (s.uipConns c).appstate = some u → Spent (s.allData u)) →
      ∀ net, s.net.allocBlock n ≠ some (net, NOBLOCK)) : Awake c s' := by
  cases h with
  | quiet h => exact haw.touch h.toTouch
  | served s₁ s₂ hpre hcall hpost =>
    have htouch := hpre.toTouch
    have hnet : s₁.net = s.net := by rw [htouch.same]
    refine Awake.touch (appcall_awake (hpre.paired hp) (haw.touch htouch) (fun h => (hpre.connected h).1) ?_ hcall) hpost.toTouch
    intro hended hnew hlen hspent net
    rcases hpre.newdata hnew with h0 | hn | hclose
    · exact absurd h0 hlen
    · rw [htouch.appstate, htouch.data] at hspent
      rw [hnet, hn]
      exact hroom (hn ▸ hlen) hspent net
    · rw [Tables.has_or, hclose] at hended
      exact absurd rfl hended

/-- The callbacks of a timer bring no payload. -/
theorem dataTurn_awake (h : DataTurn c s s') (hp : s.tables.Paired) (haw : Awake c s) : Awake c s' := by
  have hserved : ∀ {s₁ s₂ : System} {flags : BitVec 8}, Stays c s s₁ → s₁.uip.uipFlags = flags →
      flags ∈ [UIP_TIMEDOUT, UIP_POLL, UIP_REXMIT] → uipclientAppcall s₁ c = some s₂ → Stays c s₂ s' → Awake c s' := by
    intro s₁ s₂ flags hpre hflags hmem hcall hpost
    have hall : ∀ f ∈ [UIP_TIMEDOUT, UIP_POLL, UIP_REXMIT], ¬has f UIP_CONNECTED ∧ ¬has f UIP_NEWDATA := by decide
    obtain ⟨hconnected, hnewdata⟩ := hall flags hmem
    rw [← hflags] at hconnected hnewdata
    refine Awake.touch (appcall_awake (hpre.paired hp) (haw.touch hpre.toTouch) (fun h => absurd h hconnected) ?_ hcall)
      hpost.toTouch
    exact fun _ hnew => absurd hnew hnewdata
  cases h with
  | quiet h => exact haw.touch h.toTouch
  | timedOut s₁ s₂ hpre hflags hcall hpost =>
    exact hserved hpre hflags (by decide) hcall (tcpSendNodata_only hpost).goes.toStays
  | poll s₁ s₂ hpre hflags _ _ hcall hpost => exact hserved hpre.toStays hflags (by decide) hcall (appsend_stays hpost)
  | rexmit s₁ s₂ hpre hflags _ _ _ _ hcall hpost =>
    exact hserved hpre.toStays hflags (by decide) hcall (apprexmit_only hpost).goes.toStays

theorem opened_awake {i : Fin UIP_CONNS} (h : Opened i s s') (haw : Awake c s) : Awake c s' := by
  by_cases hi : c = i
  · subst hi
    exact Awake.touch (s := s.record (.opened c)) haw h.touch
  · have hstarted := h.started
    intro u happ hstop hclose
    rw [hstarted.others c hi] at happ hstop
    rw [hstarted.data] at hclose ⊢
    exact haw u happ hstop hclose

/-- A segment whose payload is not the one expected next brings nothing. -/
theorem found_stale (hlen : s.segmentLen ≠ 0) (hseq : s.uip.uipBuf.be32 Offset.seqno ≠ (s.uipConns c).rcvNxt)
    (hstate : (s.uipConns c).tcpstateflags.state ≠ UIP_SYN_SENT) (h : s.found c = some s') : Turn c 0 s s' := by
  simp only [found] at h
  split at h
  · rename_i hrst
    obtain ⟨s₂, hcall, hpost⟩ := Option.bind_eq_some_iff.mp h
    cases hpost
    exact .ended ((setFlags_only 0).goes.toStays.trans (setTcpState_stays _)) (.inl rfl) (fun _ => .inl hrst) hcall
      drop_only.goes.toStays
  · split at h
    · exact .quiet (((setFlags_only 0).trans (setLen_only _)).goes.trans (tcpSendNodata_only h).goes)
    · rename_i hnot
      exact absurd ⟨fun hsyn => hstate hsyn.1, .inl (Nat.pos_of_ne_zero hlen), hseq⟩ hnot

-- ---------------------------------------------------------------------------
-- The calls of the sketch
-- ---------------------------------------------------------------------------

theorem state_restart : ∀ x : BitVec 8, has (x ||| UIP_CLIENT_RESTART) UIP_CLIENT_RESTART ∧
    has (x ||| UIP_CLIENT_RESTART) UIP_CLIENT_CLOSE = has x UIP_CLIENT_CLOSE ∧
    has (x ||| UIP_CLIENT_RESTART) UIP_CLIENT_REMOTECLOSED = has x UIP_CLIENT_REMOTECLOSED ∧
    (x ||| UIP_CLIENT_RESTART) &&& UIP_CLIENT_SOCKETS = x &&& UIP_CLIENT_SOCKETS := by decide

/-- A block that is read to its end: the flag is set if the socket number in
the state leads to a stopped connection. -/
theorem readBlock_restart {e : Event} {empty : Bool} (hremote : ¬has (s.allData u).state UIP_CLIENT_REMOTECLOSED)
    (h : readBlock (s.record e) u = some (s', empty)) : s'.uipConns = s.uipConns ∧
    (empty = true ↔ (s'.allData u).packetsIn 0 = NOBLOCK) ∧
    ((s'.allData u).state = (s.allData u).state ∨ (s'.allData u).state = (s.allData u).state ||| UIP_CLIENT_RESTART) ∧
    (socketStopped s (s.allData u).state → ¬has (s.allData u).state UIP_CLIENT_CLOSE →
      (s'.allData u).state = (s.allData u).state ||| UIP_CLIENT_RESTART) := by
  have hconns := (readBlock_own h).conns
  simp only [readBlock, Option.bind_eq_bind, Option.pure_def] at h
  obtain ⟨s₁, heat, h⟩ := Option.bind_eq_some_iff.mp h
  have hstate : (s₁.allData u).state = (s.allData u).state := congrFun (congrArg Tables.state (eatIn_ok heat)) u
  have hconns₁ := (eatIn_own heat).conns
  cases h
  refine ⟨hconns, decide_eq_true_iff, ?_, fun hstop hclose => ?_⟩
  · split
    · exact .inr (by rw [setState, setData_self, hstate])
    · exact .inl hstate
  · have hstop₁ : socketStopped s₁ (s₁.allData u).state := by
      rwa [hstate, socketStopped, hconns₁]
    have hopen : ¬has (s₁.allData u).state (UIP_CLIENT_CLOSE ||| UIP_CLIENT_REMOTECLOSED) := by
      rw [hstate, Tables.has_or, Bool.or_eq_true]
      exact fun h => h.elim hclose hremote
    rw [if_pos ⟨hstop₁, hopen⟩, setState, setData_self, hstate]

/-- The loop of `read` leaves something unread or asks for the window. -/
theorem readLoop_restart {fuel remain : Nat} {client : Option (Fin UIP_CONNS)} {bytes : List Byte}
    (hin : (s.allData u).packetsIn 0 ≠ NOBLOCK) (hremote : ¬has (s.allData u).state UIP_CLIENT_REMOTECLOSED)
    (h : readLoop u fuel remain s = some (s', client, bytes)) :
    has (s'.allData u).state UIP_CLIENT_CLOSE = has (s.allData u).state UIP_CLIENT_CLOSE ∧
    (socketStopped s (s.allData u).state → ¬has (s.allData u).state UIP_CLIENT_CLOSE →
      (s'.allData u).packetsIn 0 ≠ NOBLOCK ∨ has (s'.allData u).state UIP_CLIENT_RESTART) := by
  induction fuel generalizing remain s client bytes with
  | zero => cases h
  | succ fuel ih =>
    rw [readLoop] at h
    simp only [Option.bind_eq_bind, Option.pure_def] at h
    split at h
    · obtain ⟨⟨s₁, empty⟩, hblock, h⟩ := Option.bind_eq_some_iff.mp h
      obtain ⟨hconns, hempty, hstate, hset⟩ := readBlock_restart hremote hblock
      obtain ⟨hflag, hclose, hclosed, hsocket⟩ := state_restart (s.allData u).state
      have hsame : has (s₁.allData u).state UIP_CLIENT_CLOSE = has (s.allData u).state UIP_CLIENT_CLOSE := by
        rcases hstate with hstate | hstate
        · rw [hstate]
        · rw [hstate, hclose]
      have hremote₁ : ¬has (s₁.allData u).state UIP_CLIENT_REMOTECLOSED := by
        rcases hstate with hstate | hstate
        · rwa [hstate]
        · rwa [hstate, hclosed]
      have hrestart : socketStopped s (s.allData u).state → ¬has (s.allData u).state UIP_CLIENT_CLOSE →
          has (s₁.allData u).state UIP_CLIENT_RESTART := by
        intro hstop hopen
        rw [hset hstop hopen]
        exact hflag
      simp only at h
      split at h
      · cases h
        exact ⟨hsame, fun hstop hopen => .inr (hrestart hstop hopen)⟩
      · rename_i hmore
        split at h
        · obtain ⟨⟨s₂, client', rest⟩, hloop, h⟩ := Option.bind_eq_some_iff.mp h
          cases h
          obtain ⟨hsame', hleft⟩ := ih (fun h0 => hmore (hempty.mpr h0)) hremote₁ hloop
          refine ⟨hsame'.trans hsame, fun hstop hopen => hleft ?_ ?_⟩
          · rw [socketStopped, hconns, hset hstop hopen, hsocket]
            exact hstop
          · rwa [hsame]
        · cases h
          exact ⟨hsame, fun hstop hopen => .inr (hrestart hstop hopen)⟩
    · cases h
      exact ⟨rfl, fun _ _ => .inl hin⟩

/-- Behind a call of an object the connection is awake if the entry says so. -/
theorem Own.awake (h : Own (some u) s s') (haw : Awake c s)
    (hself : (s.uipConns c).appstate = some u → (s.uipConns c).tcpstateflags = ⟨UIP_ESTABLISHED, true⟩ →
      ¬has (s'.allData u).state UIP_CLIENT_CLOSE →
      (s'.allData u).packetsIn 0 ≠ NOBLOCK ∨ has (s'.allData u).state UIP_CLIENT_RESTART) : Awake c s' := by
  intro v happ hstop hclose
  rw [h.conns] at happ hstop
  by_cases hv : v = u
  · subst hv
    exact hself happ hstop hclose
  · rw [h.entry v hv] at hclose ⊢
    exact haw v happ hstop hclose

theorem read_awake {size : Nat} {client : Option (Fin UIP_CONNS)} {bytes : Option (List Byte)} (hp : s.tables.Paired)
    (haw : Awake c s) (hlook : (s.uipConns c).appstate = some u → (s.uipConns c).tcpstateflags = ⟨UIP_ESTABLISHED, true⟩ →
      ¬has (s.allData u).state UIP_CLIENT_CLOSE → socketStopped s (s.allData u).state)
    (h : read s (some u) size = some (s', client, bytes)) : Awake c s' := by
  refine (read_own h).awake haw fun happ hstop hclose => ?_
  have hremote : ¬has (s.allData u).state UIP_CLIENT_REMOTECLOSED := (hp.attached c u happ).2
  simp only [read, Option.bind_eq_bind, Option.pure_def] at h
  split at h
  · split at h
    · cases h
      exact haw u happ hstop hclose
    · rename_i hin
      obtain ⟨⟨s₁, client', bytes'⟩, hloop, h⟩ := Option.bind_eq_some_iff.mp h
      cases h
      obtain ⟨hsame, hleft⟩ := readLoop_restart hin hremote hloop
      rw [hsame] at hclose
      exact hleft (hlook happ hstop hclose) hclose
  · cases h
    exact haw u happ hstop hclose

theorem flush_awake (haw : Awake c s)
    (hasked : (s.uipConns c).appstate = some u → (s.uipConns c).tcpstateflags = ⟨UIP_ESTABLISHED, true⟩ →
      ¬has (s.allData u).state UIP_CLIENT_CLOSE → has (s.allData u).state UIP_CLIENT_RESTART)
    (h : flush s (some u) = some s') : Awake c s' := by
  refine (flush_own h).awake haw fun happ hstop hclose => ?_
  rw [flush] at h
  split at h
  · have hstate : (s'.allData u).state = (s.allData u).state := congrFun (congrArg Tables.state (flushIn_ok h)) u
    rw [hstate] at hclose ⊢
    exact .inr (hasked happ hstop hclose)
  · cases h
    exact haw u happ hstop hclose

theorem stop_awake (hp : s.tables.Paired) (haw : Awake c s) (h : stop s (some u) = some s') : Awake c s' := by
  refine (stop_own h).awake haw fun happ hstop hclose => ?_
  have hne : (s.allData u).state ≠ 0 := hp.ne_zero happ
  have hremote : ¬has (s.allData u).state UIP_CLIENT_REMOTECLOSED := (hp.attached c u happ).2
  simp only [stop, Option.bind_eq_bind, Option.pure_def] at h
  rw [if_neg hne] at h
  obtain ⟨s₁, hflush, h⟩ := Option.bind_eq_some_iff.mp h
  have hstate : (s₁.allData u).state = (s.allData u).state := congrFun (congrArg Tables.state (flushIn_ok hflush)) u
  rw [hstate, if_neg hremote] at h
  cases h
  have hset : ∀ x : BitVec 8, has (x ||| UIP_CLIENT_CLOSE) UIP_CLIENT_CLOSE := by decide
  refine absurd ?_ hclose
  rw [setState, setData_self]
  exact hset _

-- ---------------------------------------------------------------------------
-- Runs
-- ---------------------------------------------------------------------------

/-- The frame that `tick` looks at, as a segment. -/
def atFrame (s : System) : System :=
  (s.fetch.mapBuf fun _ => s.fetch.frameBuf).setLen (s.fetch.frameBuf.be16 Offset.len)

theorem atFrame_buf (s : System) : (atFrame s).uip.uipBuf = s.fetch.frameBuf :=
  (setLen_buf _ _).trans (mapBuf_buf _ _)

theorem atFrame_unmoved (s : System) : Unmoved s (atFrame s) :=
  fetch_unmoved.trans ((mapBuf_only _).trans (setLen_only _)).unmoved

theorem atFrame_len (s : System) : (atFrame s).uip.uipLen = s.fetch.frameBuf.be16 Offset.len := setLen_len _ _

/-- The frame brings the next payload for the connection, whose entry, if it has
one, is spent. -/
structure Brings (s : System) (c : Fin UIP_CONNS) : Prop where
  hmatch : tcpMatches s.fetch.frameBuf (s.uipConns c)
  payload : (atFrame s).payloadLen c ≠ 0
  inOrder : (atFrame s).segmentLen = 0 ∨ s.fetch.frameBuf.be32 Offset.seqno = (s.uipConns c).rcvNxt ∨
    (s.uipConns c).tcpstateflags.state = UIP_SYN_SENT
  spent : ∀ u, (s.uipConns c).appstate = some u → Spent (s.allData u)

/-- The connection is stopped, and the sketch has not closed the entry. -/
def Stopped (s : System) (c u : Fin UIP_CONNS) : Prop :=
  (s.uipConns c).appstate = some u ∧ (s.uipConns c).tcpstateflags = ⟨UIP_ESTABLISHED, true⟩ ∧
    ¬has (s.allData u).state UIP_CLIENT_CLOSE

/-- There is room for payload that nothing unread precedes, `read` finds a
stopped connection through its entry, and a stopped connection is flushed only
if its window is about to open. -/
def Careful (s : System) : Piece → Prop
  | .input => ∀ c, Brings s c → ∀ net, s.fetch.net.allocBlock ((atFrame s).payloadLen c) ≠ some (net, NOBLOCK)
  | .call (.read (some u) _) => ∀ c, Stopped s c u → socketStopped s (s.allData u).state
  | .call (.flush (some u)) => ∀ c, Stopped s c u → has (s.allData u).state UIP_CLIENT_RESTART
  | _ => True

theorem tickInput_awake (h : s.tickInput = some s') (hp : s.tables.Paired) (haw : Awake c s)
    (hcareful : Careful s .input) : Awake c s' := by
  cases tickInput_looked h with
  | idle h => exact haw.apart h.apart
  | segment s₁ s₂ i hpre hnet hbuf hlen hmatch h hpost =>
    refine Awake.apart ?_ hpost.apart
    have haw₁ := haw.apart hpre.apart
    have hp₁ : s₁.tables.Paired := by rwa [hpre.tables]
    by_cases hi : c = i
    · subst hi
      have hsegment : s₁.segmentLen = (atFrame s).segmentLen := by
        rw [segmentLen, segmentLen, hlen, hbuf, atFrame_len, atFrame_buf]
      have hconns : (atFrame s).uipConns = s₁.uipConns := (atFrame_unmoved s).conns.trans hpre.conns.symm
      have hpayload : s₁.payloadLen c = (atFrame s).payloadLen c := by
        rw [payloadLen, payloadLen, hsegment, hbuf, hconns, atFrame_buf]
      by_cases hstale : s₁.segmentLen ≠ 0 ∧ s₁.uip.uipBuf.be32 Offset.seqno ≠ (s₁.uipConns c).rcvNxt ∧
          (s₁.uipConns c).tcpstateflags.state ≠ UIP_SYN_SENT
      · exact turn_awake (found_stale hstale.1 hstale.2.1 hstale.2.2 h) hp₁ haw₁ fun h0 => absurd rfl h0
      · refine turn_awake (found_turn h) hp₁ haw₁ fun hne hspent => ?_
        rw [hpayload] at hne ⊢
        rw [hnet]
        rw [hsegment, hbuf, hpre.conns] at hstale
        rw [hpre.conns, hpre.data] at hspent
        refine hcareful c ⟨hmatch, hne, ?_, hspent⟩
        simp only [not_and_or, not_not] at hstale
        exact hstale
    · exact haw₁.apart (((found_turn h).turned hp₁).1.apart hp₁ hi)
  | opened s₁ s₂ i hpre h hpost =>
    exact Awake.apart (opened_awake h (haw.apart hpre.apart)) hpost.apart

theorem tickConn_awake {now nullTimer : BitVec 32} {periodic : Bool} {i : Fin UIP_CONNS}
    (h : s.tickConn now nullTimer periodic i = some s') (hp : s.tables.Paired) (haw : Awake c s) : Awake c s' := by
  by_cases hi : c = i
  · subst hi
    simp only [tickConn, Option.bind_eq_bind, Option.pure_def] at h
    split at h
    · obtain ⟨s₁, htimer, hsend⟩ := Option.bind_eq_some_iff.mp h
      exact (dataTurn_awake (uipTimer_data htimer) hp haw).apart (sendOut_only hsend).unmoved.apart
    · split at h
      · obtain ⟨s₁, hpoll, hsend⟩ := Option.bind_eq_some_iff.mp h
        exact (dataTurn_awake (uipPoll_data hpoll) hp haw).apart (sendOut_only hsend).unmoved.apart
      · cases h
        exact haw
  · exact haw.apart ((tickConn_turned h hp).1.apart hp hi)

theorem step_awake {p : Piece} (h : PieceStep s p s') (hcareful : Careful s p) (hp : s.tables.Paired)
    (haw : Awake c s) : Awake c s' := by
  cases h with
  | input h => exact tickInput_awake h hp haw hcareful
  | conn h => exact tickConn_awake h hp haw
  | rearm => exact haw.tables rfl rfl
  | udp h => exact haw.apart (UIPUDP.tickUdp_aside h).toUnmoved.apart
  | @call a s hnotick h =>
    by_cases htcp : a.isTcp = false
    · exact haw.apart (step_aside htcp h).toUnmoved.apart
    · cases a with
      | tick now nullTimer => exact absurd rfl (hnotick now nullTimer)
      | connect ip port =>
        obtain ⟨⟨s₁, conn⟩, hconnect, rfl⟩ := Option.map_eq_some_iff.mp h
        obtain ⟨s₂, honly, hopened⟩ := uipConnect_opened hconnect
        have haw₂ := haw.apart honly.unmoved.apart
        cases conn with
        | none =>
          obtain rfl := hopened
          exact haw₂
        | some i => exact opened_awake hopened haw₂
      | stop data =>
        cases data with
        | none =>
          cases h
          exact haw
        | some u => exact stop_awake hp haw h
      | write data now buf =>
        obtain ⟨⟨s₁, r⟩, hattempt, rfl⟩ := Option.map_eq_some_iff.mp h
        exact haw.tables (attempt_tables hattempt) (by rw [(attempt_own hattempt).conns])
      | read data size =>
        obtain ⟨⟨s₁, client, bytes⟩, hread, rfl⟩ := Option.map_eq_some_iff.mp h
        cases data with
        | none =>
          cases hread
          exact haw
        | some u => exact read_awake hp haw (fun happ hstop hclose => hcareful c ⟨happ, hstop, hclose⟩) hread
      | flush data =>
        cases data with
        | none =>
          cases h
          exact haw
        | some u => exact flush_awake haw (fun happ hstop hclose => hcareful c ⟨happ, hstop, hclose⟩) h
      | _ => exact absurd rfl htcp

/-- In a careful run no window stays closed for good. -/
theorem window_opens {s₀ : System} {ps : List Piece} (h0 : s₀.tables = Tables.zero)
    (h : Run (fun s p s' => PieceStep s p s' ∧ Careful s p) s₀ ps s) (c : Fin UIP_CONNS) : Awake c s := by
  have hnone : (s₀.uipConns c).appstate = none := congrFun (congrArg Tables.appstate h0) c
  refine (h.invariant (I := fun t => t.tables.Paired ∧ Awake c t) ?_ ⟨h0 ▸ Tables.zero_paired, .of_none hnone⟩).2
  rintro t p t' ⟨hp, haw⟩ ⟨hstep, hcareful⟩
  exact ⟨hstep.paired hp, step_awake hstep hcareful hp haw⟩

-- ---------------------------------------------------------------------------
-- A flush of a full queue
-- ---------------------------------------------------------------------------

/-- Frames of 60 bytes as they lie in the ring. -/
def ringFrames (frames : List (List Byte)) : List Byte :=
  frames.zipIdx.flatMap fun f =>
    [BitVec.ofNat 8 (70 * (f.2 + 1)), BitVec.ofNat 8 (70 * (f.2 + 1) / 256), 64, 0, 0x80, 0] ++ f.1 ++ [0, 0, 0, 0]

def helloFrame : List Byte := peerFrame 7 TCP_SYN 100 0 [0x99, 0x6e] []

/-- The segment with the byte 9 at `seq`; the first one is at 101. -/
def byteFrame (seq : Byte) : List Byte := peerFrame 7 TCP_ACK seq 1 [0x90, 0xc2 - seq] [9]

/-- A server on port 7 whose peer sends `frames`. -/
def served (frames : List (List Byte)) : System :=
  (configured.uipListen (htons 7)).arrive (ringFrames frames) frames.length

/-- The first half of `tick`, if there is room for what comes in. -/
def roomyInput (s : System) : Option System :=
  if ∀ c, tcpMatches s.fetch.frameBuf (s.uipConns c) →
      (s.fetch.net.allocBlock ((atFrame s).payloadLen c)).map Prod.snd ≠ some NOBLOCK then s.tickInput else none

theorem roomyInputs_run {n : Nat} (h : (List.range n).foldlM (fun s _ => roomyInput s) s = some s') :
    ∃ ps, Run (fun s p s' => PieceStep s p s' ∧ Careful s p) s ps s' := by
  refine ⟨_, .of_foldlM (g := fun _ => .input) (fun {s _ t} hstep => ?_) h⟩
  rw [roomyInput] at hstep
  split at hstep
  · rename_i hroom
    exact ⟨.input hstep, fun c hbrings net halloc => hroom c hbrings.hmatch (congrArg (Option.map Prod.snd) halloc)⟩
  · cases hstep

/-- The fifth segment stops the connection, and `read` asks for it to go on. -/
theorem window_opens_example : ∃ (s₀ s₁ s : System) (ps : List Piece),
    Run (fun s p s' => PieceStep s p s' ∧ Careful s p) s₀ ps s₁ ∧ (s₁.uipConns 0).tcpstateflags = ⟨UIP_ESTABLISHED, true⟩ ∧
    PieceStep s₁ (.call (.read (some 0) 1)) s ∧ has (s.allData 0).state UIP_CLIENT_RESTART ∧ Awake 0 s := by
  have hcompute : ((List.range 6).foldlM (fun s _ => roomyInput s) (served (helloFrame :: [101, 102, 103, 104, 105].map byteFrame))).bind
      (fun s₁ => (s₁.step (.read (some 0) 1)).map fun s => decide (socketStopped s₁ (s₁.allData 0).state ∧
        (s₁.uipConns 0).tcpstateflags = ⟨UIP_ESTABLISHED, true⟩ ∧ has (s.allData 0).state UIP_CLIENT_RESTART)) = some true := by
    decide +kernel
  have h0 : (served (helloFrame :: [101, 102, 103, 104, 105].map byteFrame)).tables = Tables.zero := rfl
  generalize served (helloFrame :: [101, 102, 103, 104, 105].map byteFrame) = s₀ at hcompute h0
  obtain ⟨s₁, hinputs, hcompute⟩ := Option.bind_eq_some_iff.mp hcompute
  obtain ⟨s, hread, hcompute⟩ := Option.map_eq_some_iff.mp hcompute
  obtain ⟨hsocket, hstopped, hrestart⟩ := of_decide_eq_true hcompute
  obtain ⟨ps, hrun⟩ := roomyInputs_run hinputs
  have hcall : PieceStep s₁ (.call (.read (some 0) 1)) s := .call (by rintro _ _ ⟨⟩) hread
  exact ⟨s₀, s₁, s, ps, hrun, hstopped, hcall, hrestart, window_opens h0 (hrun.snoc ⟨hcall, fun _ _ => hsocket⟩) 0⟩

/-- The fifth segment stops the connection, and `flush` empties its queue. -/
theorem flush_closes_window : ∃ (s₀ s : System) (ps : List Piece), s₀.tables = Tables.zero ∧ Run PieceStep s₀ ps s ∧
    ¬Awake 0 s := by
  have hcompute : ((served (helloFrame :: [101, 102, 103, 104, 105].map byteFrame)).tickInput.bind fun s₁ =>
      s₁.tickInput.bind fun s₂ => s₂.tickInput.bind fun s₃ => s₃.tickInput.bind fun s₄ => s₄.tickInput.bind fun s₅ =>
      s₅.tickInput.bind fun s₆ => (UIPClient.flush s₆ (some 0)).map fun s => decide ((s.uipConns 0).appstate = some 0 ∧
        (s.uipConns 0).tcpstateflags = ⟨UIP_ESTABLISHED, true⟩ ∧ ¬has (s.allData 0).state UIP_CLIENT_CLOSE ∧
        (s.allData 0).packetsIn 0 = NOBLOCK ∧ ¬has (s.allData 0).state UIP_CLIENT_RESTART)) = some true := by
    decide +kernel
  have h0 : (served (helloFrame :: [101, 102, 103, 104, 105].map byteFrame)).tables = Tables.zero := rfl
  generalize served (helloFrame :: [101, 102, 103, 104, 105].map byteFrame) = s₀ at hcompute h0
  obtain ⟨s₁, h₁, hcompute⟩ := Option.bind_eq_some_iff.mp hcompute
  obtain ⟨s₂, h₂, hcompute⟩ := Option.bind_eq_some_iff.mp hcompute
  obtain ⟨s₃, h₃, hcompute⟩ := Option.bind_eq_some_iff.mp hcompute
  obtain ⟨s₄, h₄, hcompute⟩ := Option.bind_eq_some_iff.mp hcompute
  obtain ⟨s₅, h₅, hcompute⟩ := Option.bind_eq_some_iff.mp hcompute
  obtain ⟨s₆, h₆, hcompute⟩ := Option.bind_eq_some_iff.mp hcompute
  obtain ⟨s, hflush, hcompute⟩ := Option.map_eq_some_iff.mp hcompute
  obtain ⟨happ, hstop, hclose, hempty, hrestart⟩ := of_decide_eq_true hcompute
  have hrun := ((three_inputs h₁ h₂ h₃).append (three_inputs h₄ h₅ h₆)).snoc
    (.call (a := .flush (some 0)) (by rintro _ _ ⟨⟩) hflush)
  refine ⟨s₀, s, _, h0, hrun, fun haw => ?_⟩
  rcases haw 0 happ hstop hclose with hne | hr
  · exact hne hempty
  · exact hrestart hr

end UIPClient

end UIPEthernet
