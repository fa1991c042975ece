import UIPEthernet.UIPEthernetClass.Steps

/-!
# connected

`connected` looks at the entry only. It agrees with the connection as long as
the end of the connection reaches the entry, and the entry is not given to
another connection while a handle still points to it.
-/

namespace UIPEthernet

open Lib

-- ---------------------------------------------------------------------------
-- Entries of closed connections
-- ---------------------------------------------------------------------------

namespace UIPClient

open UIPEthernet.System TcpState

/-- An entry that the peer has closed holds unread data. -/
def Unread (s : System) : Prop :=
  ∀ u, has (s.allData u).state UIP_CLIENT_REMOTECLOSED → (s.allData u).packetsIn 0 ≠ NOBLOCK

variable {s s' : System} {u : Fin UIP_CONNS} {data : Option (Fin UIP_CONNS)}

/-- A change of one entry. -/
theorem Unread.entry (h : Unread s) (hothers : ∀ v ≠ u, s'.allData v = s.allData v)
    (hu : has (s'.allData u).state UIP_CLIENT_REMOTECLOSED → (s'.allData u).packetsIn 0 ≠ NOBLOCK) : Unread s' := by
  intro v hv
  by_cases hvu : v = u
  · subst hvu
    exact hu hv
  · rw [hothers v hvu] at hv ⊢
    exact h v hv

theorem Own.entry (h : Own (some u) s s') : ∀ v ≠ u, s'.allData v = s.allData v :=
  fun v hv => h.others v fun heq => hv (Option.some.inj heq).symm

theorem stop_unread (hun : Unread s) (h : stop s data = some s') : Unread s' := by
  cases data with
  | none =>
    cases h
    exact hun
  | some u =>
    refine hun.entry (stop_own h).entry ?_
    simp only [stop, Option.bind_eq_bind, Option.pure_def] at h
    split at h
    · cases h
      exact hun u
    · obtain ⟨s₁, hflush, h⟩ := Option.bind_eq_some_iff.mp h
      cases h
      rw [setState, setData_self]
      intro hremote
      simp only at hremote
      split at hremote
      · exact absurd hremote (by decide)
      · rename_i hno
        rw [Tables.has_setFlag _ (by decide)] at hremote
        exact absurd hremote hno

/-- A flush leaves no unread data, and the flags as they are. -/
theorem flush_unread (hun : Unread s) (hopen : ∀ u, data = some u → ¬has (s.allData u).state UIP_CLIENT_REMOTECLOSED)
    (h : flush s data = some s') : Unread s' := by
  cases data with
  | none =>
    cases h
    exact hun
  | some u =>
    refine hun.entry (flush_own h).entry fun hremote => absurd ?_ (hopen u rfl)
    rw [flush] at h
    split at h
    · have hstate : (s'.allData u).state = (s.allData u).state := congrFun (congrArg Tables.state (flushIn_ok h)) u
      rwa [← hstate]
    · cases h
      exact hremote

theorem readLoop_unread {fuel remain : Nat} {client : Option (Fin UIP_CONNS)} {bytes : List Byte}
    (hin : (s.allData u).packetsIn 0 ≠ NOBLOCK) (h : readLoop u fuel remain s = some (s', client, bytes)) :
    has (s'.allData u).state UIP_CLIENT_REMOTECLOSED → (s'.allData u).packetsIn 0 ≠ NOBLOCK := by
  induction fuel generalizing remain s client bytes with
  | zero => cases h
  | succ fuel ih =>
    rw [readLoop] at h
    simp only [Option.bind_eq_bind, Option.pure_def] at h
    split at h
    · obtain ⟨⟨s₁, empty⟩, hblock, h⟩ := Option.bind_eq_some_iff.mp h
      have hempty : empty = true ↔ (s₁.allData u).packetsIn 0 = NOBLOCK := by
        simp only [readBlock, Option.bind_eq_bind, Option.pure_def] at hblock
        obtain ⟨s₂, -, hblock⟩ := Option.bind_eq_some_iff.mp hblock
        cases hblock
        exact decide_eq_true_iff
      simp only at h
      split at h
      · split at h <;> cases h
        · rw [setState, setData_self]
          exact fun h => absurd h (by decide : ¬has (0 : BitVec 8) UIP_CLIENT_REMOTECLOSED)
        · rename_i hno
          exact fun hremote => absurd hremote hno
      · rename_i hmore
        have hin₁ : (s₁.allData u).packetsIn 0 ≠ NOBLOCK := fun h0 => hmore (hempty.mpr h0)
        split at h
        · obtain ⟨⟨s₂, client', rest⟩, hloop, h⟩ := Option.bind_eq_some_iff.mp h
          cases h
          exact ih hin₁ hloop
        · cases h
          exact fun _ => hin₁
    · cases h
      exact fun _ => hin

theorem read_unread {size : Nat} {client : Option (Fin UIP_CONNS)} {bytes : Option (List Byte)} (hun : Unread s)
    (h : read s data size = some (s', client, bytes)) : Unread s' := by
  cases data with
  | none =>
    cases h
    exact hun
  | some u =>
    refine hun.entry (read_own h).entry ?_
    simp only [read, Option.bind_eq_bind, Option.pure_def] at h
    split at h
    · split at h
      · cases h
        exact hun u
      · rename_i hin
        obtain ⟨⟨s₁, client', bytes'⟩, hloop, h⟩ := Option.bind_eq_some_iff.mp h
        cases h
        exact readLoop_unread hin hloop
    · cases h
      exact hun u

end UIPClient

-- ---------------------------------------------------------------------------
-- The handles of the sketch
-- ---------------------------------------------------------------------------

namespace System

/-- How many connections have been set up in the slot. -/
def opens (s : System) (c : Fin UIP_CONNS) : Nat := s.lives.count (.opened c)

end System

/-- A `UIPClient` object with its `data`, and the connection it was obtained
for: the `life`-th one in the slot. -/
structure Client where
  data : Fin UIP_CONNS
  conn : Fin UIP_CONNS
  life : Nat

/-- The system with the `UIPClient` objects of the sketch, `none` for those
without `data`. The owner of an entry is the connection that has it, or had it
last. -/
structure Tracked where
  sys : System
  owner : Fin UIP_CONNS → Fin UIP_CONNS × Nat
  clients : Nat → Option Client

inductive Move
  | piece (p : Piece)
  | obtain (k : Nat) (u : Fin UIP_CONNS)
  | copy (k j : Nat)
  | stop (k : Nat)
  | read (k size : Nat)
  | flush (k : Nat)

namespace Tracked

open UIPEthernet.System TcpState

/-- The tracked state with the next system. -/
def follow (t : Tracked) (s : System) : Tracked where
  sys := s
  owner u := match s.holder u with
    | some c => (c, s.opens c)
    | none => t.owner u
  clients := t.clients

def setClient (t : Tracked) (k : Nat) (x : Option Client) : Tracked :=
  { t with clients := Function.update t.clients k x }

theorem setClient_self (t : Tracked) (k : Nat) (x : Option Client) : (t.setClient k x).clients k = x :=
  Function.update_self ..

def data (t : Tracked) (k : Nat) : Option (Fin UIP_CONNS) := (t.clients k).map Client.data

/-- The calls of an object are steps of their own; `connect`, `available` and a
copy give an object the pointer to an entry in use. -/
inductive Step (t : Tracked) : Move → Tracked → Prop
  | piece (h : PieceStep t.sys p s)
      (hother : ∀ data, p ≠ .call (.stop data) ∧ p ≠ .call (.flush data) ∧ ∀ size, p ≠ .call (.read data size)) :
      Step t (.piece p) (t.follow s)
  | obtain (hused : (t.sys.allData u).state ≠ 0) :
      Step t (.obtain k u) (t.setClient k (some ⟨u, (t.owner u).1, (t.owner u).2⟩))
  | copy : Step t (.copy k j) (t.setClient k (t.clients j))
  | stop (h : UIPClient.stop t.sys (t.data k) = some s) : Step t (.stop k) ((t.follow s).setClient k none)
  | read (h : UIPClient.read t.sys (t.data k) size = some (s, client, bytes)) :
      Step t (.read k size) ((t.follow s).setClient k (if client = none then none else t.clients k))
  | flush (h : UIPClient.flush t.sys (t.data k) = some s) : Step t (.flush k) (t.follow s)

/-- No RST arrives for a connection with an entry, no object is flushed whose
connection the peer has closed, and no entry is given to a connection that an
object still points to. -/
def Sound (t : Tracked) (m : Move) (t' : Tracked) : Prop :=
  (m = .piece .input → ∀ c, t.sys.Resets c → (t.sys.uipConns c).appstate = none) ∧
  (∀ k u, m = .flush k → t.data k = some u → ¬has (t.sys.allData u).state UIP_CLIENT_REMOTECLOSED) ∧
  ∀ c u k, t'.sys.lives = .attached c u :: t.sys.lives → t.data k ≠ some u

/-- An attached connection is established and owns its entry, and an object
was obtained for the owner of the entry it points to. -/
structure Agrees (t : Tracked) : Prop where
  paired : t.sys.tables.Paired
  established : ∀ c u, (t.sys.uipConns c).appstate = some u → (t.sys.uipConns c).tcpstateflags.state = UIP_ESTABLISHED
  unread : UIPClient.Unread t.sys
  owner : ∀ c u, (t.sys.uipConns c).appstate = some u → t.owner u = (c, t.sys.opens c)
  clients : ∀ k x, t.clients k = some x → t.owner x.data = (x.conn, x.life)

variable {t t' : Tracked} {s s' : System} {c u : Fin UIP_CONNS} {k : Nat}

theorem follow_owner (hp : s.tables.Paired) (happ : (s.uipConns c).appstate = some u) :
    (t.follow s).owner u = (c, s.opens c) := by
  rw [follow]
  simp only [holder_some hp happ]

/-- The invariant behind a step, from what the step does to the connections. -/
theorem Agrees.follow (ha : t.Agrees) (hp : s.tables.Paired) (hun : UIPClient.Unread s)
    (hest : ∀ c u, (s.uipConns c).appstate = some u → (s.uipConns c).tcpstateflags.state = UIP_ESTABLISHED)
    (hback : ∀ c u, (s.uipConns c).appstate = some u →
      ((t.sys.uipConns c).appstate = some u ∧ s.opens c = t.sys.opens c) ∨ ∀ k, t.data k ≠ some u) :
    (t.follow s).Agrees := by
  refine ⟨hp, hest, hun, fun c u happ => follow_owner hp happ, fun k x hx => ?_⟩
  have hsame : (t.follow s).owner x.data = t.owner x.data := by
    by_cases hheld : ∃ c, (s.uipConns c).appstate = some x.data
    · obtain ⟨c, happ⟩ := hheld
      rw [follow_owner hp happ]
      rcases hback c x.data happ with ⟨hold, hopens⟩ | hfree
      · rw [ha.owner c x.data hold, hopens]
      · exact absurd (congrArg (Option.map Client.data) hx) (hfree k)
    · show (match s.holder x.data with
        | some c => (c, s.opens c)
        | none => t.owner x.data) = _
      rw [holder_none fun c h => hheld ⟨c, h⟩]
  rw [hsame]
  exact ha.clients k x hx

theorem Agrees.setClient (ha : t.Agrees) {x : Option Client}
    (hx : ∀ y, x = some y → t.owner y.data = (y.conn, y.life)) : (t.setClient k x).Agrees := by
  refine ⟨ha.paired, ha.established, ha.unread, ha.owner, fun j y hy => ?_⟩
  have hy : Function.update t.clients k x j = some y := hy
  by_cases hj : j = k
  · subst hj
    rw [Function.update_self] at hy
    exact hx y hy
  · rw [Function.update_of_ne hj] at hy
    exact ha.clients j y hy

theorem fate_unread {gone : Prop} (h : Fate c u gone s s') (hp : s'.tables.Paired)
    (hremote : has (s'.allData u).state UIP_CLIENT_REMOTECLOSED) : (s'.allData u).packetsIn 0 ≠ NOBLOCK := by
  cases h with
  | kept happ _ => exact absurd hremote (hp.attached c u happ).2
  | freed hstate _ =>
    rw [hstate] at hremote
    exact absurd hremote (by decide)
  | leftover _ hdata _ _ => exact hdata

/-- The invariant behind a turn of a connection. -/
theorem Agrees.turned {rst : Prop} (ha : t.Agrees) (h : Turned c rst t.sys s) (hp : s.tables.Paired)
    (hrst : rst → (t.sys.uipConns c).appstate = none)
    (hattach : ∀ u k, s.lives = .attached c u :: t.sys.lives → t.data k ≠ some u) : (t.follow s).Agrees := by
  obtain ⟨hothers, -, hlife⟩ := h
  have hother : ∀ i u, i ≠ c → (s.uipConns i).appstate = some u →
      (t.sys.uipConns i).appstate = some u ∧ (s.uipConns i).tcpstateflags.state = UIP_ESTABLISHED := by
    intro i u hi happ
    rw [hothers i hi] at happ ⊢
    exact ⟨happ, ha.established i u happ⟩
  cases hlife with
  | idle happ hdata hlives hest =>
    have hopens : ∀ i, s.opens i = t.sys.opens i := fun i => by rw [opens, hlives]; rfl
    refine ha.follow hp ?_ (fun i u hi => ?_) (fun i u hi => ?_)
    · intro v
      rw [hdata]
      exact ha.unread v
    · by_cases hic : i = c
      · rw [hic] at hi ⊢
        rw [happ] at hi
        exact hest (by rw [hi]; exact Option.some_ne_none u) (ha.established c u hi)
      · exact (hother i u hic hi).2
    · by_cases hic : i = c
      · rw [hic] at hi ⊢
        rw [happ] at hi
        exact .inl ⟨hi, hopens c⟩
      · exact .inl ⟨(hother i u hic hi).1, hopens i⟩
  | attached v hentry hwithin hfate =>
    have hopens : ∀ i, s.opens i = t.sys.opens i := fun i => by rw [opens, hwithin.lives]; rfl
    have hkept : ∀ u, (s.uipConns c).appstate = some u →
        u = v ∧ (s.uipConns c).tcpstateflags.state = UIP_ESTABLISHED := by
      intro u hu
      cases hfate with
      | kept happ hest =>
        refine ⟨Option.some.inj (hu.symm.trans happ), (hest.resolve_left ?_)⟩
        rintro (hr | hnot)
        · exact Option.some_ne_none v (hentry.symm.trans (hrst hr))
        · exact hnot (ha.established c v hentry)
      | freed _ happ => exact absurd (hu.symm.trans happ) (Option.some_ne_none u)
      | leftover _ _ _ happ => exact absurd (hu.symm.trans happ) (Option.some_ne_none u)
    refine ha.follow hp (ha.unread.entry hwithin.others (fate_unread hfate hp)) (fun i u hi => ?_) (fun i u hi => ?_)
    · by_cases hic : i = c
      · rw [hic] at hi ⊢
        exact (hkept u hi).2
      · exact (hother i u hic hi).2
    · by_cases hic : i = c
      · rw [hic] at hi ⊢
        rw [(hkept u hi).1]
        exact .inl ⟨hentry, hopens c⟩
      · exact .inl ⟨(hother i u hic hi).1, hopens i⟩
  | fresh v hnone hfree hothers' hlives hnew =>
    have hopens : ∀ i, s.opens i = t.sys.opens i := by
      intro i
      rw [opens, hlives, List.count_cons_of_ne (by rintro ⟨⟩)]
      rfl
    have hkept : ∀ u, (s.uipConns c).appstate = some u →
        u = v ∧ (s.uipConns c).tcpstateflags.state = UIP_ESTABLISHED := by
      intro u hu
      rcases hnew with ⟨happ, hest⟩ | ⟨-, happ⟩
      · exact ⟨Option.some.inj (hu.symm.trans happ), hest⟩
      · exact absurd (hu.symm.trans happ) (Option.some_ne_none u)
    have hremote : ¬has (s.allData v).state UIP_CLIENT_REMOTECLOSED := by
      rcases hnew with ⟨happ, -⟩ | ⟨hstate, -⟩
      · exact (hp.attached c v happ).2
      · rw [hstate]
        decide
    refine ha.follow hp (ha.unread.entry hothers' fun h => absurd h hremote) (fun i u hi => ?_) (fun i u hi => ?_)
    · by_cases hic : i = c
      · rw [hic] at hi ⊢
        exact (hkept u hi).2
      · exact (hother i u hic hi).2
    · by_cases hic : i = c
      · rw [hic] at hi ⊢
        rw [(hkept u hi).1]
        exact .inr fun k => hattach v k hlives
      · exact .inl ⟨(hother i u hic hi).1, hopens i⟩

/-- The invariant behind a piece that may run the callback. -/
theorem Agrees.session {rst : Fin UIP_CONNS → Prop} (ha : t.Agrees) (hs : Session rst t.sys s) (hp : s.tables.Paired)
    (hrst : ∀ c, rst c → (t.sys.uipConns c).appstate = none)
    (hattach : ∀ c u k, s.lives = .attached c u :: t.sys.lives → t.data k ≠ some u) : (t.follow s).Agrees := by
  cases hs with
  | idle h =>
    have hopens : ∀ c, s.opens c = t.sys.opens c := fun c => by rw [opens, h.lives]; rfl
    refine ha.follow hp ?_ ?_ ?_
    · intro v
      rw [h.data]
      exact ha.unread v
    · intro c u
      rw [h.conns]
      exact ha.established c u
    · intro c u happ
      rw [h.conns] at happ
      exact .inl ⟨happ, hopens c⟩
  | opened c h =>
    have hfree : (t.sys.uipConns c).appstate = none := by
      cases happ : (t.sys.uipConns c).appstate with
      | none => rfl
      | some u => exact absurd (ha.established c u happ) h.slot
    have hback : ∀ i u, (s.uipConns i).appstate = some u → i ≠ c ∧ (t.sys.uipConns i).appstate = some u := by
      intro i u happ
      by_cases hi : i = c
      · rw [hi, h.appstate, hfree] at happ
        exact absurd happ.symm (Option.some_ne_none u)
      · rw [h.others i hi] at happ
        exact ⟨hi, happ⟩
    refine ha.follow hp ?_ ?_ ?_
    · intro v
      rw [h.data]
      exact ha.unread v
    · intro i u happ
      obtain ⟨hi, hold⟩ := hback i u happ
      rw [h.others i hi]
      exact ha.established i u hold
    · intro i u happ
      obtain ⟨hi, hold⟩ := hback i u happ
      refine .inl ⟨hold, ?_⟩
      rw [opens, h.lives, List.count_cons_of_ne fun heq => hi (Event.opened.inj heq).symm]
      rfl
  | turn c h => exact ha.turned h hp (hrst c) (hattach c)

/-- The invariant behind a call of an object. -/
theorem Agrees.own (ha : t.Agrees) {data : Option (Fin UIP_CONNS)} (h : UIPClient.Own data t.sys s)
    (hp : s.tables.Paired) (hun : UIPClient.Unread s) : (t.follow s).Agrees := by
  refine ha.follow hp hun (fun c u happ => ?_) (fun c u happ => ?_)
  · rw [h.conns] at happ ⊢
    exact ha.established c u happ
  · rw [h.conns] at happ
    exact .inl ⟨happ, by rw [opens, h.lives]; rfl⟩

theorem Agrees.piece {p : Piece} (ha : t.Agrees) (h : PieceStep t.sys p s)
    (hother : ∀ data, p ≠ .call (.stop data) ∧ p ≠ .call (.flush data) ∧ ∀ size, p ≠ .call (.read data size))
    (hrst : p = .input → ∀ c, t.sys.Resets c → (t.sys.uipConns c).appstate = none)
    (hattach : ∀ c u k, s.lives = .attached c u :: t.sys.lives → t.data k ≠ some u) : (t.follow s).Agrees := by
  by_cases hwrite : ∃ data now buf, p = .call (.write data now buf)
  · obtain ⟨data, now, buf, rfl⟩ := hwrite
    cases h with
    | call _ h =>
      obtain ⟨⟨s₁, r⟩, hattempt, rfl⟩ := Option.map_eq_some_iff.mp h
      have ht := UIPClient.attempt_tables hattempt
      refine ha.own (UIPClient.attempt_own hattempt) (by rw [ht]; exact ha.paired) fun v hv => ?_
      have hstate : (s₁.allData v).state = (t.sys.allData v).state := congrFun (congrArg Tables.state ht) v
      have hin : (s₁.allData v).packetsIn = (t.sys.allData v).packetsIn := congrFun (congrArg Tables.packetsIn ht) v
      rw [hstate] at hv
      rw [hin]
      exact ha.unread v hv
  · have hown : ∀ a, p = .call a → a.isOwn = false := by
      rintro a rfl
      cases a with
      | stop data => exact absurd rfl (hother data).1
      | write data now buf => exact absurd ⟨data, now, buf, rfl⟩ hwrite
      | read data size => exact absurd rfl ((hother data).2.2 size)
      | flush data => exact absurd rfl (hother data).2.1
      | _ => rfl
    obtain ⟨hs, hp⟩ := h.session hown ha.paired
    exact ha.session hs hp (fun c hc => hrst hc.1 c hc.2) hattach

theorem Agrees.step {m : Move} (ha : t.Agrees) (h : Step t m t') (hsound : Sound t m t') : t'.Agrees := by
  obtain ⟨hrst, hflush, hattach⟩ := hsound
  cases h with
  | piece h hother => exact ha.piece h hother (fun hp => hrst (congrArg Move.piece hp)) hattach
  | obtain hused =>
    refine ha.setClient fun y hy => ?_
    obtain rfl := Option.some.inj hy
    rfl
  | copy => exact ha.setClient fun y hy => ha.clients _ y hy
  | stop h =>
    have hown := UIPClient.stop_own h
    exact (ha.own hown (UIPClient.stop_paired ha.paired h) (UIPClient.stop_unread ha.unread h)).setClient
      fun y hy => absurd hy.symm (Option.some_ne_none y)
  | @read k size s client bytes h =>
    have hfollow := ha.own (UIPClient.read_own h) (UIPClient.read_paired ha.paired h) (UIPClient.read_unread ha.unread h)
    refine hfollow.setClient fun y hy => ?_
    split at hy
    · exact absurd hy.symm (Option.some_ne_none y)
    · exact hfollow.clients k y hy
  | @flush k s h =>
    exact ha.own (UIPClient.flush_own h) (UIPClient.flush_paired ha.paired h)
      (UIPClient.flush_unread ha.unread (fun u hu => hflush k u rfl hu) h)

/-- A state without connections and objects. -/
theorem agrees_zero (h0 : t.sys.tables = Tables.zero) (hc : t.clients = fun _ => none) : t.Agrees := by
  have happ : ∀ c, (t.sys.uipConns c).appstate = none := congrFun (congrArg Tables.appstate h0)
  have hstate : ∀ u, (t.sys.allData u).state = 0 := congrFun (congrArg Tables.state h0)
  refine ⟨h0 ▸ Tables.zero_paired, fun c u h => ?_, fun u h => ?_, fun c u h => ?_, fun k x hx => ?_⟩
  · exact absurd (h.symm.trans (happ c)) (Option.some_ne_none u)
  · rw [hstate] at h
    exact absurd h (by decide)
  · exact absurd (h.symm.trans (happ c)) (Option.some_ne_none u)
  · rw [hc] at hx
    exact absurd hx.symm (Option.some_ne_none x)

/-- A connection that has ended, and whose bytes are read, is not connected on
any object that was obtained for it. -/
theorem connected_agrees {ms : List Move} {x : Client} (h0 : t.sys.tables = Tables.zero) (hc : t.clients = fun _ => none)
    (h : Run (fun t m t' => Step t m t' ∧ Sound t m t') t ms t') (hx : t'.clients k = some x)
    (hended : t'.sys.opens x.conn ≠ x.life ∨ (t'.sys.uipConns x.conn).tcpstateflags.state ≠ UIP_ESTABLISHED)
    (hread : (t'.sys.allData x.data).packetsIn 0 = NOBLOCK) : UIPClient.connected t'.sys (t'.data k) = false := by
  have ha : t'.Agrees := h.invariant (fun ha hs => ha.step hs.1 hs.2) (agrees_zero h0 hc)
  have hdata : t'.data k = some x.data := congrArg (Option.map Client.data) hx
  have hno : ¬has (t'.sys.allData x.data).state UIP_CLIENT_CONNECTED := by
    intro hconnected
    by_cases hremote : has (t'.sys.allData x.data).state UIP_CLIENT_REMOTECLOSED
    · exact ha.unread x.data hremote hread
    · obtain ⟨c, happ⟩ := ha.paired.held x.data (Tables.has_ne_zero hconnected) hremote
      have hown := (ha.owner c x.data happ).symm.trans (ha.clients k x hx)
      obtain ⟨rfl, hlife⟩ := Prod.mk.inj hown
      rcases hended with hended | hended
      · exact hended hlife
      · exact hended (ha.established _ _ happ)
  rw [hdata, UIPClient.connected, hread]
  simpa using hno

-- ---------------------------------------------------------------------------
-- Two ends of a connection
-- ---------------------------------------------------------------------------

/-- A server on port 7, with a SYN, its ACK and another segment in the ring. -/
def arrived (last : List Byte) : System :=
  (((System.init (fun _ => 0) [] [1, 2, 3, 4, 5, 6] 0).configure 0x0a000001 0 0xff000000).uipListen (htons 7)).arrive
    (ringSlot 70 (peerFrame 7 TCP_SYN 100 0 [0x99, 0x6e] []) ++ ringSlot 140 (peerFrame 7 TCP_ACK 101 1 [0x99, 0x5e] []) ++
      ringSlot 210 last) 3

def start (s : System) : Tracked := ⟨s, fun _ => (0, 0), fun _ => none⟩

/-- An object is obtained behind the handshake, and the last segment comes in. -/
theorem handshake_run {s s₁ s₂ s₃ : System} (h₁ : s.tickInput = some s₁) (h₂ : s₁.tickInput = some s₂)
    (h₃ : s₂.tickInput = some s₃) (hholder : s₂.holder 0 = some 0) (hopens : s₂.opens 0 = 1)
    (hused : (s₂.allData 0).state ≠ 0) :
    ∃ t' : Tracked, t'.sys = s₃ ∧ t'.clients 0 = some ⟨0, 0, 1⟩ ∧
      Run Step (start s) [.piece .input, .piece .input, .obtain 0 0, .piece .input] t' ∧
      (¬has (s.fetch.frameBuf Offset.tcpflags) TCP_RST → ¬has (s₁.fetch.frameBuf Offset.tcpflags) TCP_RST →
        ¬has (s₂.fetch.frameBuf Offset.tcpflags) TCP_RST → s₃.lives = s₂.lives →
        Run (fun t m t' => Step t m t' ∧ Sound t m t') (start s)
          [.piece .input, .piece .input, .obtain 0 0, .piece .input] t') := by
  let t₂ := ((start s).follow s₁).follow s₂
  let t₃ := t₂.setClient 0 (some ⟨0, (t₂.owner 0).1, (t₂.owner 0).2⟩)
  have howner : t₂.owner 0 = (0, 1) := by
    show (match s₂.holder 0 with
      | some c => (c, s₂.opens c)
      | none => ((start s).follow s₁).owner 0) = _
    rw [hholder]
    exact congrArg (Prod.mk 0) hopens
  have hclient : t₃.clients 0 = some ⟨0, (t₂.owner 0).1, (t₂.owner 0).2⟩ := t₂.setClient_self 0 _
  rw [howner] at hclient
  have hother : ∀ data, Piece.input ≠ .call (.stop data) ∧ Piece.input ≠ .call (.flush data) ∧
      ∀ size, Piece.input ≠ .call (.read data size) := fun _ => ⟨by rintro ⟨⟩, by rintro ⟨⟩, by rintro _ ⟨⟩⟩
  have step₁ : Step (start s) (.piece .input) ((start s).follow s₁) := .piece (.input h₁) hother
  have step₂ : Step ((start s).follow s₁) (.piece .input) t₂ := .piece (.input h₂) hother
  have step₃ : Step t₂ (.obtain 0 0) t₃ := .obtain hused
  have step₄ : Step t₃ (.piece .input) (t₃.follow s₃) := .piece (.input h₃) hother
  refine ⟨t₃.follow s₃, rfl, hclient, .snoc (.snoc (.snoc (.snoc .nil step₁) step₂) step₃) step₄, ?_⟩
  intro hrst₁ hrst₂ hrst₃ hlives
  -- Nothing in the run flushes, and no object is there when the entry is given.
  have hsound : ∀ {t : Tracked} {s' : System}, ¬has (t.sys.fetch.frameBuf Offset.tcpflags) TCP_RST →
      (∀ c u k, s'.lives = .attached c u :: t.sys.lives → t.data k ≠ some u) →
      Sound t (.piece .input) (t.follow s') := by
    intro t s' hrst hattach
    exact ⟨fun _ c hc => absurd hc.1 hrst, fun k u h => absurd h (by rintro ⟨⟩), hattach⟩
  have hlonger : ∀ {e : Event} {l : List Event}, l ≠ e :: l :=
    fun h => absurd (congrArg List.length h) (Nat.ne_of_lt (Nat.lt_succ_self _))
  have sound₁ : Sound (start s) (.piece .input) ((start s).follow s₁) :=
    hsound hrst₁ fun _ u _ _ => (Option.some_ne_none u).symm
  have sound₂ : Sound ((start s).follow s₁) (.piece .input) t₂ :=
    hsound hrst₂ fun _ u _ _ => (Option.some_ne_none u).symm
  have sound₃ : Sound t₂ (.obtain 0 0) t₃ :=
    ⟨fun h => absurd h (by rintro ⟨⟩), fun k u h => absurd h (by rintro ⟨⟩), fun c u k h => absurd h hlonger⟩
  have sound₄ : Sound t₃ (.piece .input) (t₃.follow s₃) :=
    hsound hrst₃ fun c u k h => absurd (hlives.symm.trans h) hlonger
  exact .snoc (.snoc (.snoc (.snoc .nil ⟨step₁, sound₁⟩) ⟨step₂, sound₂⟩) ⟨step₃, sound₃⟩) ⟨step₄, sound₄⟩

def finFrame : List Byte := peerFrame 7 (TCP_FIN ||| TCP_ACK) 101 1 [0x99, 0x5d] []

def resetFrame : List Byte := peerFrame 7 (TCP_RST ||| TCP_ACK) 101 1 [0x99, 0x5a] []

theorem connected_agrees_example : ∃ t t' : Tracked, ∃ ms : List Move,
    Run (fun t m t' => Step t m t' ∧ Sound t m t') t ms t' ∧ t'.clients 0 = some ⟨0, 0, 1⟩ ∧
    UIPClient.connected t'.sys (t'.data 0) = false := by
  have hcompute : ((arrived finFrame).tickInput.bind fun s₁ => s₁.tickInput.bind fun s₂ => s₂.tickInput.map fun s₃ =>
      decide ((s₂.holder 0 = some 0 ∧ s₂.opens 0 = 1 ∧ (s₂.allData 0).state ≠ 0) ∧
        ¬has ((arrived finFrame).fetch.frameBuf Offset.tcpflags) TCP_RST ∧
        ¬has (s₁.fetch.frameBuf Offset.tcpflags) TCP_RST ∧ ¬has (s₂.fetch.frameBuf Offset.tcpflags) TCP_RST ∧
        s₃.lives = s₂.lives ∧ (s₃.uipConns 0).tcpstateflags.state ≠ UIP_ESTABLISHED ∧
        (s₃.allData 0).packetsIn 0 = NOBLOCK)) = some true := by
    decide +kernel
  have h0 : (arrived finFrame).tables = Tables.zero := rfl
  generalize arrived finFrame = s at hcompute h0
  obtain ⟨s₁, h₁, hcompute⟩ := Option.bind_eq_some_iff.mp hcompute
  obtain ⟨s₂, h₂, hcompute⟩ := Option.bind_eq_some_iff.mp hcompute
  obtain ⟨s₃, h₃, hcompute⟩ := Option.map_eq_some_iff.mp hcompute
  obtain ⟨⟨hholder, hopens, hused⟩, hrst₁, hrst₂, hrst₃, hlives, hended, hread⟩ := of_decide_eq_true hcompute
  obtain ⟨t', rfl, hx, -, hsound⟩ := handshake_run h₁ h₂ h₃ hholder hopens hused
  have hrun := hsound hrst₁ hrst₂ hrst₃ hlives
  exact ⟨start s, t', _, hrun, hx, connected_agrees h0 rfl hrun hx (.inr hended) hread⟩

/-- A connection that the peer resets stays connected on its objects. -/
theorem reset_stays_connected : ∃ t t' : Tracked, ∃ ms : List Move, ∃ x : Client,
    t.sys.tables = Tables.zero ∧ (t.clients = fun _ => none) ∧ Run Step t ms t' ∧ t'.clients 0 = some x ∧
    (t'.sys.uipConns x.conn).tcpstateflags.state = UIP_CLOSED ∧ (t'.sys.allData x.data).packetsIn 0 = NOBLOCK ∧
    UIPClient.connected t'.sys (t'.data 0) = true := by
  have hcompute : ((arrived resetFrame).tickInput.bind fun s₁ => s₁.tickInput.bind fun s₂ => s₂.tickInput.map fun s₃ =>
      decide ((s₂.holder 0 = some 0 ∧ s₂.opens 0 = 1 ∧ (s₂.allData 0).state ≠ 0) ∧
        (s₃.uipConns 0).tcpstateflags.state = UIP_CLOSED ∧ (s₃.allData 0).packetsIn 0 = NOBLOCK ∧
        UIPClient.connected s₃ (some 0) = true)) = some true := by
    decide +kernel
  have h0 : (arrived resetFrame).tables = Tables.zero := rfl
  generalize arrived resetFrame = s at hcompute h0
  obtain ⟨s₁, h₁, hcompute⟩ := Option.bind_eq_some_iff.mp hcompute
  obtain ⟨s₂, h₂, hcompute⟩ := Option.bind_eq_some_iff.mp hcompute
  obtain ⟨s₃, h₃, hcompute⟩ := Option.map_eq_some_iff.mp hcompute
  obtain ⟨⟨hholder, hopens, hused⟩, hended, hread, hconnected⟩ := of_decide_eq_true hcompute
  obtain ⟨t', rfl, hx, hrun, -⟩ := handshake_run h₁ h₂ h₃ hholder hopens hused
  have hdata : t'.data 0 = some 0 := congrArg (Option.map Client.data) hx
  exact ⟨start s, t', _, _, h0, rfl, hrun, hx, hended, hread, hdata ▸ hconnected⟩

end Tracked

end UIPEthernet
