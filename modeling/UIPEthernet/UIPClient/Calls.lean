import UIPEthernet.UIPEthernetClass.Held
import UIPEthernet.UIPClient.Outcome

/-!
# The calls of a client

A call of a `UIPClient` object changes the entry it points to and the pool.
-/

namespace UIPEthernet.UIPClient

open UIPEthernet.System Enc28J60Network

/-- Only the entry changes that the object points to, and the receive ring is
left alone. -/
structure Own (data : Option (Fin UIP_CONNS)) (s s' : System) : Prop extends Held s s' where
  only : { s with net := s'.net, allData := s'.allData, history := s'.history } = s'
  others : ∀ v, data ≠ some v → s'.allData v = s.allData v
  lives : s'.lives = s.lives

variable {s s' s₁ s₂ : System} {u : Fin UIP_CONNS} {data : Option (Fin UIP_CONNS)}

theorem Own.refl (data : Option (Fin UIP_CONNS)) (s : System) : Own data s s := ⟨.refl s, rfl, fun _ _ => rfl, rfl⟩

theorem Own.trans (h : Own data s s₁) (h' : Own data s₁ s₂) : Own data s s₂ := by
  refine ⟨h.toHeld.trans h'.toHeld, ?_, fun v hv => (h'.others v hv).trans (h.others v hv), h'.lives.trans h.lives⟩
  rw [← h'.only, ← h.only]

theorem Own.conns (h : Own data s s') : s'.uipConns = s.uipConns := by rw [← h.only]

theorem Own.udpConns (h : Own data s s') : s'.uipUdpConns = s.uipUdpConns := by rw [← h.only]

theorem Own.sockets (h : Own data s s') : s'.sockets = s.sockets := by rw [← h.only]

theorem Own.packetstate (h : Own data s s') : s'.packetstate = s.packetstate := by rw [← h.only]

theorem setNet_own {net : Enc28J60Network} (h : net.ERXRDPT = s.net.ERXRDPT) : Own data s (s.setNet net) :=
  ⟨setNet_held h, rfl, fun _ _ => rfl, rfl⟩

theorem setData_own (d : Userdata) : Own (some u) s (s.setData u d) :=
  ⟨setData_held d, rfl, fun _ hv => Function.update_of_ne (fun h => hv (congrArg some h.symm)) _ _, rfl⟩

theorem record_own {e : Event} (h : e.isLife = false) : Own data s (s.record e) :=
  ⟨record_held e, rfl, fun _ _ => rfl, record_lives s e h⟩

theorem eatIn_own (h : eatIn s u = some s') : Own (some u) s s' := by
  have hwithin := eatIn_within h
  have honly : { s with net := s'.net, allData := s'.allData, history := s'.history } = s' := by
    simp only [eatIn, Option.bind_eq_bind, Option.bind_eq_some_iff, Prod.exists] at h
    obtain ⟨net, block, -, h⟩ := h
    cases h
    rfl
  exact ⟨eatIn_held h, honly, fun v hv => hwithin.others v fun h => hv (congrArg some h.symm), hwithin.lives⟩

theorem flushIn_own (h : flushIn s u = some s') : Own (some u) s s' := by
  have hwithin := flushIn_within h
  have honly : { s with net := s'.net, allData := s'.allData, history := s'.history } = s' := by
    simp only [flushIn, Option.bind_eq_bind, Option.bind_eq_some_iff, Prod.exists] at h
    obtain ⟨net, block, -, h⟩ := h
    cases h
    rfl
  exact ⟨flushIn_held h, honly, fun v hv => hwithin.others v fun h => hv (congrArg some h.symm), hwithin.lives⟩

theorem stop_own (h : stop s data = some s') : Own data s s' := by
  simp only [stop, Option.bind_eq_bind, Option.pure_def] at h
  split at h
  · cases h
    exact .refl _ s
  · split at h
    · cases h
      exact .refl _ s
    · obtain ⟨s₁, hflush, h⟩ := Option.bind_eq_some_iff.mp h
      cases h
      exact (flushIn_own hflush).trans (setData_own _)

theorem newpacket_own {p : Fin UIP_SOCKET_NUMPACKETS} {got : Bool} (h : newpacket s u p = some (s', got)) :
    Own (some u) s s' := by
  simp only [newpacket, Option.bind_eq_bind, Option.pure_def] at h
  obtain ⟨⟨net, b⟩, halloc, h⟩ := Option.bind_eq_some_iff.mp h
  have h₁ : Own (some u) s (s.setNet net) := setNet_own (allocBlock_read halloc)
  split at h <;> cases h
  · exact h₁.trans (setData_own _)
  · exact (h₁.trans (setData_own _)).trans (setData_own _)

theorem fill_own (p : Fin UIP_SOCKET_NUMPACKETS) (buf : List Byte) : Own (some u) s (fill s u p buf).1 :=
  ⟨⟨rfl, rfl, rfl⟩, rfl, fun _ hv => Function.update_of_ne (fun h => hv (congrArg some h.symm)) _ _, record_lives _ _ rfl⟩

theorem fillAll_own {now : BitVec 32} {slots : List (Fin UIP_SOCKET_NUMPACKETS)} {buf : List Byte} {r : Attempt}
    (h : fillAll u now slots buf s = some (s', r)) : Own (some u) s s' := by
  induction slots generalizing buf s with
  | nil =>
    cases h
    exact .refl _ _
  | cons p rest ih =>
    rw [fillAll] at h
    generalize hfill : fill s u p buf = filled at h
    have h₁ : Own (some u) s filled.1 := hfill ▸ fill_own p buf
    simp only at h
    split at h
    · cases rest with
      | nil =>
        cases h
        exact h₁
      | cons q rest =>
        obtain ⟨⟨s₂, got⟩, hnew, h⟩ := Option.bind_eq_some_iff.mp h
        have h₂ := h₁.trans (newpacket_own hnew)
        split at h
        · exact h₂.trans (ih h)
        · cases h
          exact h₂
    · cases h
      exact h₁.trans (setData_own _)

theorem attempt_own {now : BitVec 32} {buf : List Byte} {r : Attempt} (h : attempt s data now buf = some (s', r)) :
    Own data s s' := by
  simp only [attempt, Option.bind_eq_bind, Option.pure_def] at h
  split at h
  · cases h
    exact .refl _ s
  · split at h
    · cases h
      exact .refl _ s
    · split at h
      · obtain ⟨⟨s₁, got⟩, hnew, h⟩ := Option.bind_eq_some_iff.mp h
        split at h
        · exact (newpacket_own hnew).trans (fillAll_own h)
        · cases h
          exact newpacket_own hnew
      · exact fillAll_own h

theorem readBlock_own {empty : Bool} (h : readBlock s u = some (s', empty)) : Own (some u) s s' := by
  simp only [readBlock, Option.bind_eq_bind, Option.pure_def] at h
  obtain ⟨s₁, heat, h⟩ := Option.bind_eq_some_iff.mp h
  cases h
  refine (eatIn_own heat).trans ?_
  split
  · exact setData_own _
  · exact .refl _ _

theorem readLoop_own {fuel remain : Nat} {client : Option (Fin UIP_CONNS)} {bytes : List Byte}
    (h : readLoop u fuel remain s = some (s', client, bytes)) : Own (some u) s s' := by
  induction fuel generalizing remain s client bytes with
  | zero => cases h
  | succ fuel ih =>
    rw [readLoop] at h
    simp only [Option.bind_eq_bind, Option.pure_def] at h
    have hrecord : ∀ h data, Own (some u) s (s.record (.returned u h data)) := fun h data => record_own rfl
    split at h
    · obtain ⟨⟨s₁, empty⟩, hblock, h⟩ := Option.bind_eq_some_iff.mp h
      have h₁ := (hrecord _ _).trans (readBlock_own hblock)
      split at h
      · split at h <;> cases h
        · exact h₁.trans (setData_own _)
        · exact h₁
      · split at h
        · obtain ⟨⟨s₂, client', rest⟩, hloop, h⟩ := Option.bind_eq_some_iff.mp h
          cases h
          exact h₁.trans (ih hloop)
        · cases h
          exact h₁
    · cases h
      exact ⟨⟨rfl, rfl, rfl⟩, rfl, fun _ _ => rfl, record_lives _ _ rfl⟩

theorem read_own {size : Nat} {client : Option (Fin UIP_CONNS)} {bytes : Option (List Byte)}
    (h : read s data size = some (s', client, bytes)) : Own data s s' := by
  simp only [read, Option.bind_eq_bind, Option.pure_def] at h
  split at h
  · cases h
    exact .refl _ s
  · split at h
    · split at h
      · cases h
        exact .refl _ s
      · obtain ⟨⟨s₁, client', bytes'⟩, hloop, h⟩ := Option.bind_eq_some_iff.mp h
        cases h
        exact readLoop_own hloop
    · cases h
      exact .refl _ s

theorem flush_own (h : flush s data = some s') : Own data s s' := by
  unfold flush at h
  split at h
  · cases h
    exact .refl _ s
  · split at h
    · exact flushIn_own h
    · cases h
      exact .refl _ s

-- ---------------------------------------------------------------------------
-- The tables behind a write
-- ---------------------------------------------------------------------------

/-- A change of what the tables do not hold. -/
theorem setData_tables {d : Userdata} (hstate : d.state = (s.allData u).state)
    (hin : d.packetsIn = (s.allData u).packetsIn) : (s.setData u d).tables = s.tables := by
  rw [System.tables_setData, hstate, hin]
  simp [Tables.setIn, Tables.setState, System.tables]

theorem setOutPos_tables (n : Nat) : (s.setOutPos u n).tables = s.tables := setData_tables rfl rfl

theorem setTimer_tables (timer : BitVec 32) : (s.setTimer u timer).tables = s.tables := setData_tables rfl rfl

theorem newpacket_tables {p : Fin UIP_SOCKET_NUMPACKETS} {got : Bool} (h : newpacket s u p = some (s', got)) :
    s'.tables = s.tables := by
  simp only [newpacket, Option.bind_eq_bind, Option.pure_def] at h
  obtain ⟨⟨net, b⟩, -, h⟩ := Option.bind_eq_some_iff.mp h
  split at h <;> cases h
  · exact System.tables_setPacketsOut _ _ _
  · exact (setOutPos_tables 0).trans (System.tables_setPacketsOut _ _ _)

theorem fill_tables (p : Fin UIP_SOCKET_NUMPACKETS) (buf : List Byte) : (fill s u p buf).1.tables = s.tables :=
  setData_tables (s := s) rfl rfl

theorem fillAll_tables {now : BitVec 32} {slots : List (Fin UIP_SOCKET_NUMPACKETS)} {buf : List Byte} {r : Attempt}
    (h : fillAll u now slots buf s = some (s', r)) : s'.tables = s.tables := by
  induction slots generalizing buf s with
  | nil =>
    cases h
    rfl
  | cons p rest ih =>
    rw [fillAll] at h
    generalize hfill : fill s u p buf = filled at h
    have h₁ : filled.1.tables = s.tables := hfill ▸ fill_tables p buf
    simp only at h
    split at h
    · cases rest with
      | nil =>
        cases h
        exact h₁
      | cons q rest =>
        obtain ⟨⟨s₂, got⟩, hnew, h⟩ := Option.bind_eq_some_iff.mp h
        have h₂ := (newpacket_tables hnew).trans h₁
        split at h
        · exact (ih h).trans h₂
        · cases h
          exact h₂
    · cases h
      exact (setTimer_tables _).trans h₁

theorem attempt_tables {now : BitVec 32} {buf : List Byte} {r : Attempt} (h : attempt s data now buf = some (s', r)) :
    s'.tables = s.tables := by
  simp only [attempt, Option.bind_eq_bind, Option.pure_def] at h
  split at h
  · cases h
    rfl
  · split at h
    · cases h
      rfl
    · split at h
      · obtain ⟨⟨s₁, got⟩, hnew, h⟩ := Option.bind_eq_some_iff.mp h
        split at h
        · exact (fillAll_tables h).trans (newpacket_tables hnew)
        · cases h
          exact newpacket_tables hnew
      · exact fillAll_tables h

end UIPEthernet.UIPClient
