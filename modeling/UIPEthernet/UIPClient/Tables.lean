import UIPEthernet.UIPClient

/-!
# The connection table and the userdata table

The part of the state that pairs connections with entries of `all_data`: the
`appstate` pointers, and the state and the received blocks of every entry. The
updates of `Tables` are what the code does to this part, and `Paired` is the
invariant each of them keeps.
-/

namespace UIPEthernet

structure Tables where
  state : Fin UIP_CONNS → BitVec 8
  packetsIn : Fin UIP_CONNS → Packets
  appstate : Fin UIP_CONNS → Option (Fin UIP_CONNS)

namespace Tables

def zero : Tables := ⟨fun _ => 0, fun _ _ => NOBLOCK, fun _ => none⟩

def setState (t : Tables) (u : Fin UIP_CONNS) (state : BitVec 8) : Tables :=
  { t with state := Function.update t.state u state }

def setIn (t : Tables) (u : Fin UIP_CONNS) (packets : Packets) : Tables :=
  { t with packetsIn := Function.update t.packetsIn u packets }

def setAppstate (t : Tables) (c : Fin UIP_CONNS) (u : Option (Fin UIP_CONNS)) : Tables :=
  { t with appstate := Function.update t.appstate c u }

/-- Connections and entries in use by them are paired; `empty` is what lets an
entry be given back, or a closing one read, without anything left in it. -/
structure Paired (t : Tables) : Prop where
  distinct : ∀ c c' u, t.appstate c = some u → t.appstate c' = some u → c = c'
  attached : ∀ c u, t.appstate c = some u →
    has (t.state u) UIP_CLIENT_CONNECTED ∧ ¬has (t.state u) UIP_CLIENT_REMOTECLOSED
  held : ∀ u, t.state u ≠ 0 → ¬has (t.state u) UIP_CLIENT_REMOTECLOSED → ∃ c, t.appstate c = some u
  number : ∀ u, t.state u ≠ 0 → t.state u &&& UIP_CLIENT_SOCKETS = BitVec.ofNat 8 u
  empty : ∀ u, t.state u = 0 ∨ has (t.state u) UIP_CLIENT_CLOSE → t.packetsIn u 0 = NOBLOCK

variable {t : Tables} {c u : Fin UIP_CONNS} {packets : Packets} {state : BitVec 8}

-- ---------------------------------------------------------------------------
-- The flags
-- ---------------------------------------------------------------------------

theorem has_ne_zero {x a : BitVec 8} (h : has x a) : x ≠ 0 := by
  rintro rfl
  simp [has] at h

theorem has_or (x a b : BitVec 8) : has x (a ||| b) = (has x a || has x b) := by
  rw [has, has, has, BitVec.and_or_distrib_left, Bool.eq_iff_iff]
  simp only [bne_iff_ne, Bool.or_eq_true, ne_eq, ← not_and_or]
  exact not_congr BitVec.or_eq_zero_iff

/-- Setting a flag leaves the other flags and the number. -/
theorem setFlag_other {flag other : BitVec 8} (x : BitVec 8) (h : flag &&& other = 0) :
    (x ||| flag) &&& other = x &&& other := by
  rw [BitVec.and_comm, BitVec.and_or_distrib_left, BitVec.and_comm other flag, h, BitVec.and_comm]
  exact BitVec.or_zero

theorem clearFlag_other {flag other : BitVec 8} (x : BitVec 8) (h : flag &&& other = 0) :
    x &&& ~~~flag &&& other = x &&& other := by
  rw [BitVec.and_assoc]
  congr 1
  ext i hi
  have hbit : (flag &&& other)[i] = false := by rw [getElem_congr_coll h]; exact BitVec.getElem_zero hi
  rw [BitVec.getElem_and] at hbit
  rw [BitVec.getElem_and, BitVec.getElem_not]
  cases hf : flag[i] <;> simp_all

theorem has_setFlag {flag other : BitVec 8} (x : BitVec 8) (h : flag &&& other = 0) :
    has (x ||| flag) other = has x other := by
  rw [has, has, setFlag_other x h]

theorem has_clearFlag {flag other : BitVec 8} (x : BitVec 8) (h : flag &&& other = 0) :
    has (x &&& ~~~flag) other = has x other := by
  rw [has, has, clearFlag_other x h]

-- ---------------------------------------------------------------------------
-- The updates keep the pairing
-- ---------------------------------------------------------------------------

theorem zero_paired : zero.Paired := by
  constructor <;> simp [zero]

theorem Paired.ne_zero (h : t.Paired) (hc : t.appstate c = some u) : t.state u ≠ 0 :=
  has_ne_zero (h.attached c u hc).1

/-- New blocks in an entry that is neither free nor closing, or an empty queue. -/
theorem Paired.setIn (h : t.Paired)
    (hu : t.state u = 0 ∨ has (t.state u) UIP_CLIENT_CLOSE → packets 0 = NOBLOCK) :
    (t.setIn u packets).Paired := by
  refine ⟨h.distinct, h.attached, h.held, h.number, fun i hi => ?_⟩
  by_cases hiu : i = u
  · subst hiu
    simpa [Tables.setIn] using hu hi
  · simpa [Tables.setIn, hiu] using h.empty i hi

/-- A change of the flags of an entry that stays as it is to its connection. -/
theorem Paired.setState (h : t.Paired) (hu : t.state u ≠ 0)
    (hconn : has state UIP_CLIENT_CONNECTED = has (t.state u) UIP_CLIENT_CONNECTED)
    (hremote : has state UIP_CLIENT_REMOTECLOSED = has (t.state u) UIP_CLIENT_REMOTECLOSED)
    (hnum : state &&& UIP_CLIENT_SOCKETS = t.state u &&& UIP_CLIENT_SOCKETS)
    (hempty : state = 0 ∨ has state UIP_CLIENT_CLOSE → t.packetsIn u 0 = NOBLOCK) :
    (t.setState u state).Paired := by
  obtain ⟨hdistinct, hattached, hheld, hnumber, hemp⟩ := h
  constructor <;> simp only [Tables.setState, Function.update_apply]
  · exact hdistinct
  · grind
  · grind
  · grind
  · grind

/-- An entry that is free or closed by the remote end is attached to nothing. -/
theorem Paired.unattached (h : t.Paired)
    (hu : t.state u = 0 ∨ has (t.state u) UIP_CLIENT_REMOTECLOSED) (c : Fin UIP_CONNS) :
    t.appstate c ≠ some u := by
  intro hc
  rcases hu with h0 | hr
  · exact h.ne_zero hc h0
  · exact (h.attached c u hc).2 hr

/-- A free entry is given to a connection that has none. -/
theorem Paired.attach (h : t.Paired) (hu : t.state u = 0) (hc : t.appstate c = none) :
    (((t.setState u (BitVec.ofNat 8 u ||| UIP_CLIENT_CONNECTED)).setIn u fun _ => NOBLOCK).setAppstate c
      (some u)).Paired := by
  have hother := h.unattached (.inl hu)
  have hnew : ∀ u : Fin UIP_CONNS,
      has (BitVec.ofNat 8 u ||| UIP_CLIENT_CONNECTED) UIP_CLIENT_CONNECTED ∧
      ¬has (BitVec.ofNat 8 u ||| UIP_CLIENT_CONNECTED) UIP_CLIENT_REMOTECLOSED ∧
      (BitVec.ofNat 8 u ||| UIP_CLIENT_CONNECTED) &&& UIP_CLIENT_SOCKETS = BitVec.ofNat 8 u := by decide
  obtain ⟨hconn, hremote, hnum⟩ := hnew u
  obtain ⟨hdistinct, hattached, hheld, hnumber, hemp⟩ := h
  constructor <;> simp only [Tables.setState, Tables.setIn, setAppstate, Function.update_apply]
  · grind
  · grind
  · intro v h0 hr
    by_cases hvu : v = u
    · exact ⟨c, by simp [hvu]⟩
    · obtain ⟨i, hi⟩ := hheld v (by simpa [hvu] using h0) (by simpa [hvu] using hr)
      exact ⟨i, by grind⟩
  · grind
  · intro v hv
    by_cases hvu : v = u
    · simp [hvu]
    · simpa [hvu] using hemp v (by simpa [hvu] using hv)

/-- A connection lets go of its entry, which is given back or kept for what it
still holds. -/
theorem Paired.detach (h : t.Paired) (hc : t.appstate c = some u)
    (hstate : state = 0 ∨ has state UIP_CLIENT_REMOTECLOSED)
    (hnum : state ≠ 0 → state &&& UIP_CLIENT_SOCKETS = t.state u &&& UIP_CLIENT_SOCKETS)
    (hempty : state = 0 ∨ has state UIP_CLIENT_CLOSE → t.packetsIn u 0 = NOBLOCK) :
    ((t.setState u state).setAppstate c none).Paired := by
  have hu := h.ne_zero hc
  obtain ⟨hdistinct, hattached, hheld, hnumber, hemp⟩ := h
  constructor <;> simp only [Tables.setState, setAppstate, Function.update_apply]
  · grind
  · grind
  · intro v h0 hr
    have hvu : v ≠ u := by grind
    obtain ⟨i, hi⟩ := hheld v (by simpa [hvu] using h0) (by simpa [hvu] using hr)
    exact ⟨i, by grind⟩
  · grind
  · grind

/-- An entry closed by the remote end is given back. -/
theorem Paired.release (h : t.Paired) (hr : has (t.state u) UIP_CLIENT_REMOTECLOSED)
    (hempty : t.packetsIn u 0 = NOBLOCK) : (t.setState u 0).Paired := by
  have hother := h.unattached (.inr hr)
  obtain ⟨hdistinct, hattached, hheld, hnumber, hemp⟩ := h
  constructor <;> simp only [Tables.setState, Function.update_apply]
  · exact hdistinct
  · grind
  · grind
  · grind
  · grind

@[simp] theorem setIn_setIn (t : Tables) (u : Fin UIP_CONNS) (p q : Packets) :
    (t.setIn u p).setIn u q = t.setIn u q := by
  simp [setIn]

@[simp] theorem setIn_self (t : Tables) (u : Fin UIP_CONNS) : t.setIn u (t.packetsIn u) = t := by
  simp [setIn]

end Tables

namespace System

def tables (s : System) : Tables where
  state u := (s.allData u).state
  packetsIn u := (s.allData u).packetsIn
  appstate c := (s.uipConns c).appstate

section
variable (s : System) (c u : Fin UIP_CONNS)

@[simp] theorem tables_setNet (net : Enc28J60Network) : (s.setNet net).tables = s.tables := rfl
@[simp] theorem tables_setFlags (flags : BitVec 8) : (s.setFlags flags).tables = s.tables := rfl
@[simp] theorem tables_setLen (len : Nat) : (s.setLen len).tables = s.tables := rfl
@[simp] theorem tables_setSlen (slen : Nat) : (s.setSlen slen).tables = s.tables := rfl
@[simp] theorem tables_setUipPacket (h : Handle) : (s.setUipPacket h).tables = s.tables := rfl
@[simp] theorem tables_setHdrlen (n : Nat) : (s.setHdrlen n).tables = s.tables := rfl
@[simp] theorem tables_setPacketstate (f : BitVec 8) : (s.setPacketstate f).tables = s.tables := rfl
@[simp] theorem tables_mapBuf (f : Buf → Buf) : (s.mapBuf f).tables = s.tables := rfl
@[simp] theorem tables_record (e : Event) : (s.record e).tables = s.tables := rfl

theorem tables_mapConn (f : Conn → Conn) :
    (s.mapConn c f).tables = s.tables.setAppstate c (f (s.uipConns c)).appstate := by
  simp only [tables, mapConn, Tables.setAppstate, Tables.mk.injEq, true_and]
  funext i
  by_cases hi : i = c <;> simp [hi]

@[simp] theorem tables_setAppstate (o : Option (Fin UIP_CONNS)) :
    (s.setAppstate c o).tables = s.tables.setAppstate c o := s.tables_mapConn c _

@[simp] theorem tables_uipStop : (s.uipStop c).tables = s.tables := by
  rw [uipStop, tables_mapConn]
  simp [Tables.setAppstate, tables]

@[simp] theorem tables_uipRestart : (s.uipRestart c).tables = s.tables := by
  rw [uipRestart, tables_mapConn]
  simp [Tables.setAppstate, tables, setFlags]

theorem tables_setData (d : Userdata) :
    (s.setData u d).tables = (s.tables.setState u d.state).setIn u d.packetsIn := by
  simp only [tables, setData, Tables.setState, Tables.setIn, Tables.mk.injEq, and_true]
  constructor <;> funext i <;> by_cases hi : i = u <;> simp [hi]

@[simp] theorem tables_setState (state : BitVec 8) :
    (s.setState u state).tables = s.tables.setState u state := by
  rw [setState, tables_setData]
  simp [Tables.setIn, Tables.setState, tables]

@[simp] theorem tables_setPacketsIn (packets : Packets) :
    (s.setPacketsIn u packets).tables = s.tables.setIn u packets := by
  rw [setPacketsIn, tables_setData]
  simp [Tables.setIn, Tables.setState, tables]

@[simp] theorem tables_setPacketsOut (packets : Packets) :
    (s.setPacketsOut u packets).tables = s.tables := by
  rw [setPacketsOut, tables_setData]
  simp [Tables.setIn, Tables.setState, tables]

end

end System

end UIPEthernet
