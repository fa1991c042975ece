import UIPEthernet.UIPClient.Calls
import UIPEthernet.UIPUdp.Calls

/-!
# The steps of the system

Every piece of a run is a call of a `UIPClient` object, or what `Session` says.
-/

namespace UIPEthernet

open UIPClient

/-- Whether the action is a call of a `UIPClient` object that has its entry. -/
def Action.isOwn : Action → Bool
  | .stop _ | .write _ _ _ | .read _ _ | .flush _ => true
  | _ => false

namespace System

/-- The connection that has the entry. -/
def holder (s : System) (u : Fin UIP_CONNS) : Option (Fin UIP_CONNS) :=
  (List.finRange UIP_CONNS).find? fun c => (s.uipConns c).appstate = some u

variable {s s' : System} {c u : Fin UIP_CONNS}

theorem holder_some (hp : s.tables.Paired) (happ : (s.uipConns c).appstate = some u) : s.holder u = some c := by
  cases hfind : s.holder u with
  | none =>
    have hnone := List.find?_eq_none.mp hfind c (List.mem_finRange c)
    exact absurd (decide_eq_true happ) hnone
  | some i =>
    have hi : (s.uipConns i).appstate = some u :=
      of_decide_eq_true (List.find?_some (p := fun c => decide ((s.uipConns c).appstate = some u)) hfind)
    rw [hp.distinct i c u hi happ]

theorem holder_none (hnone : ∀ c, (s.uipConns c).appstate ≠ some u) : s.holder u = none :=
  List.find?_eq_none.mpr fun c _ => by simpa using hnone c

/-- What a piece that is no call of an object does. -/
theorem PieceStep.session {p : Piece} (h : PieceStep s p s') (hother : ∀ a, p = .call a → a.isOwn = false)
    (hp : s.tables.Paired) : Session (fun c => p = .input ∧ s.Resets c) s s' ∧ s'.tables.Paired := by
  have hidle : Unmoved s s' → Session (fun c => p = .input ∧ s.Resets c) s s' ∧ s'.tables.Paired :=
    fun hs => ⟨.idle hs, by rwa [hs.tables]⟩
  cases h with
  | input h =>
    obtain ⟨hs, hp'⟩ := tickInput_session h hp
    exact ⟨hs.mono fun _ hr => ⟨rfl, hr⟩, hp'⟩
  | conn h =>
    obtain ⟨hs, hp'⟩ := tickConn_session h hp
    exact ⟨hs.mono fun _ hr => hr.elim, hp'⟩
  | rearm => exact hidle ⟨rfl, rfl, rfl⟩
  | udp h => exact hidle (UIPUDP.tickUdp_aside h).toUnmoved
  | @call a s hnotick h =>
    by_cases htcp : a.isTcp = false
    · exact hidle (step_aside htcp h).toUnmoved
    · cases a with
      | tick now nullTimer => exact absurd rfl (hnotick now nullTimer)
      | connect ip port =>
        obtain ⟨⟨s₁, conn⟩, hconnect, rfl⟩ := Option.map_eq_some_iff.mp h
        obtain ⟨s₂, honly, hopened⟩ := uipConnect_opened hconnect
        cases conn with
        | none =>
          obtain rfl := hopened
          exact hidle honly.unmoved
        | some c =>
          refine ⟨.opened c (hopened.started.around honly.unmoved (.refl s₁)), ?_⟩
          rw [hopened.touch.tables, System.tables_record, honly.unmoved.tables]
          exact hp
      | stop _ | write _ _ _ | read _ _ | flush _ => exact absurd (hother _ rfl).symm Bool.false_ne_true
      | _ => exact absurd rfl htcp

end System

-- ---------------------------------------------------------------------------
-- Frames of a peer
-- ---------------------------------------------------------------------------

/-- A segment with at most six bytes from port 7 of 10.0.0.2 to 10.0.0.1. -/
def peerFrame (port flags seq ack : Byte) (chksum data : List Byte) : List Byte :=
  let len := BitVec.ofNat 8 data.length
  [1, 2, 3, 4, 5, 6, 6, 5, 4, 3, 2, 1, 8, 0] ++
  [0x45, 0, 0, 40 + len, 0, 0, 0, 0, 64, 6, 0x66, 0xce - len, 10, 0, 0, 2, 10, 0, 0, 1] ++
  [0, 7, 0, port, 0, 0, 0, seq, 0, 0, 0, ack, 0x50, flags, 2, 0] ++ chksum ++ [0, 0] ++ data ++
  List.replicate (6 - data.length) 0

/-- A SYN with the given MSS option. -/
def synFrame (mss chksum : List Byte) : List Byte :=
  [1, 2, 3, 4, 5, 6, 6, 5, 4, 3, 2, 1, 8, 0] ++
  [0x45, 0, 0, 44, 0, 0, 0, 0, 64, 6, 0x66, 0xca, 10, 0, 0, 2, 10, 0, 0, 1] ++
  [0, 7, 0, 7, 0, 0, 0, 100, 0, 0, 0, 0, 0x60, TCP_SYN, 2, 0] ++ chksum ++ [0, 0, 2, 4] ++ mss ++ [0, 0]

/-- A frame of 60 bytes as it lies in the ring, in front of the one at `next`. -/
def ringSlot (next : Byte) (frame : List Byte) : List Byte := [next, 0, 64, 0, 0x80, 0] ++ frame ++ [0, 0, 0, 0]

end UIPEthernet
