import UIPEthernet.UIPClient.Connected
import UIPEthernet.UIPServer

/-!
# _write

The loop of `_write`: a `tick` and an attempt, until everything is written or
the entry is found closed. An entry that has been given back does not look
closed.
-/

namespace UIPEthernet

open Lib

/-- The number of bytes that were put into blocks of `packets_out`. -/
def writtenBytes : List Event → Nat
  | [] => 0
  | .written _ _ data :: es => data.length + writtenBytes es
  | _ :: es => writtenBytes es

/-- A piece of a `tick`, or a frame that arrives. -/
def Piece.isNetwork : Piece → Bool
  | .call (.arrive _ _) => true
  | .call _ => false
  | _ => true

namespace UIPClient

open UIPEthernet.System

/-- What is left of the buffer behind an attempt, `none` for -1. -/
def Attempt.rest : Attempt → Option (List Byte)
  | .again remain => some remain
  | .ready remain => some remain
  | .closed => none

/-- `_write` with `tick` and the attempts in turn; frames arrive before each
`tick`. The results are what is left of the buffer, `none` for -1, the number of
bytes that the attempts put into blocks, and the states that their checks see. -/
inductive Write (data : Option (Fin UIP_CONNS)) : System → List Byte → System → Option (List Byte) → Nat → List System → Prop
  | again (htick : (s.arrive ring frames).tick now nullTimer = some s₁)
      (hattempt : attempt s₁ data now' buf = some (s₂, .again rest)) (hmore : Write data s₂ rest s' r n checks) :
    Write data s buf s' r (writtenBytes s₂.history - writtenBytes s₁.history + n) (s₁ :: checks)
  | ready (htick : (s.arrive ring frames).tick now nullTimer = some s₁)
      (hattempt : attempt s₁ data now' buf = some (s₂, .ready rest)) :
    Write data s buf s₂ (some rest) (writtenBytes s₂.history - writtenBytes s₁.history) [s₁]
  | closed (htick : (s.arrive ring frames).tick now nullTimer = some s₁)
      (hattempt : attempt s₁ data now' buf = some (s₂, .closed)) :
    Write data s buf s₂ none (writtenBytes s₂.history - writtenBytes s₁.history) [s₁]

/-- The `size_t` that `_write` returns for a buffer of the given size. -/
def returned (size : Nat) : Option (List Byte) → Nat
  | some rest => sub16 size rest.length
  | none => 65535

variable {s s' s₁ : System} {c u : Fin UIP_CONNS} {data : Option (Fin UIP_CONNS)} {now : BitVec 32} {buf : List Byte}

-- ---------------------------------------------------------------------------
-- An attempt
-- ---------------------------------------------------------------------------

theorem newpacket_bytes {p : Fin UIP_SOCKET_NUMPACKETS} {got : Bool} (h : newpacket s u p = some (s', got)) :
    s'.history = s.history := by
  simp only [newpacket, Option.bind_eq_bind, Option.pure_def] at h
  obtain ⟨⟨net, b⟩, -, h⟩ := Option.bind_eq_some_iff.mp h
  split at h <;> cases h <;> rfl

theorem fill_bytes (p : Fin UIP_SOCKET_NUMPACKETS) (buf : List Byte) : (fill s u p buf).2.length ≤ buf.length ∧
    writtenBytes (fill s u p buf).1.history + (fill s u p buf).2.length = writtenBytes s.history + buf.length := by
  generalize hn : (s.net.writePacket ((s.allData u).packetsOut p) (s.allData u).outPos buf).2 = n
  have hhistory : writtenBytes (fill s u p buf).1.history = (buf.take n).length + writtenBytes s.history := by
    rw [← hn]
    rfl
  have hrest : (fill s u p buf).2 = buf.drop n := by
    rw [← hn]
    rfl
  rw [hhistory, hrest, List.length_take, List.length_drop]
  omega

/-- What is not left of the buffer is in the blocks. -/
theorem fillAll_bytes {slots : List (Fin UIP_SOCKET_NUMPACKETS)} {r : Attempt} (h : fillAll u now slots buf s = some (s', r)) :
    ∃ rest, r.rest = some rest ∧ rest.length ≤ buf.length ∧
      writtenBytes s'.history + rest.length = writtenBytes s.history + buf.length := by
  induction slots generalizing buf s with
  | nil =>
    cases h
    exact ⟨buf, rfl, Nat.le_refl _, rfl⟩
  | cons p slots ih =>
    rw [fillAll] at h
    obtain ⟨hle, hfill⟩ := fill_bytes (s := s) (u := u) p buf
    generalize fill s u p buf = filled at h hle hfill
    simp only at h
    split at h
    · cases slots with
      | nil =>
        cases h
        exact ⟨_, rfl, hle, hfill⟩
      | cons q slots =>
        obtain ⟨⟨s₂, got⟩, hnew, h⟩ := Option.bind_eq_some_iff.mp h
        have hsame := newpacket_bytes hnew
        split at h
        · obtain ⟨rest, hrest, hrestLe, hbytes⟩ := ih h
          exact ⟨rest, hrest, hrestLe.trans hle, by rw [hbytes, hsame, hfill]⟩
        · cases h
          exact ⟨_, rfl, hle, by rw [hsame, hfill]⟩
    · cases h
      exact ⟨_, rfl, hle, hfill⟩

/-- Something is left for another attempt, and what `return` leaves is nothing
for an `int`. -/
theorem fillAll_ends {slots : List (Fin UIP_SOCKET_NUMPACKETS)} {r : Attempt} (h : fillAll u now slots buf s = some (s', r)) :
    (∀ rest, r = .again rest → buf ≠ [] → rest ≠ []) ∧ ∀ rest, r = .ready rest → ¬positive rest.length := by
  have hsome : ∀ {rest : List Byte}, positive rest.length → rest ≠ [] := by
    rintro rest hpos rfl
    exact absurd hpos (by decide)
  induction slots generalizing buf s with
  | nil =>
    cases h
    refine ⟨fun rest hr hne => ?_, fun rest hr => (by cases hr)⟩
    cases hr
    exact hne
  | cons p slots ih =>
    rw [fillAll] at h
    generalize fill s u p buf = filled at h
    simp only at h
    split at h
    · rename_i hpos
      have hagain : (∀ rest, Attempt.again filled.2 = .again rest → buf ≠ [] → rest ≠ []) ∧
          ∀ rest, Attempt.again filled.2 = .ready rest → ¬positive rest.length := by
        refine ⟨fun rest hr _ => ?_, fun rest hr => (by cases hr)⟩
        cases hr
        exact hsome hpos
      cases slots with
      | nil =>
        cases h
        exact hagain
      | cons q slots =>
        obtain ⟨⟨s₂, got⟩, hnew, h⟩ := Option.bind_eq_some_iff.mp h
        split at h
        · obtain ⟨hmore, hready⟩ := ih h
          exact ⟨fun rest hr _ => hmore rest hr (hsome hpos), hready⟩
        · cases h
          exact hagain
    · rename_i hleft
      cases h
      refine ⟨fun rest hr => (by cases hr), fun rest hr => ?_⟩
      cases hr
      exact hleft

theorem attempt_ends {r : Attempt} (h : attempt s (some u) now buf = some (s', r)) :
    (∀ rest, r = .again rest → buf ≠ [] → rest ≠ []) ∧ ∀ rest, r = .ready rest → ¬positive rest.length := by
  simp only [attempt, Option.bind_eq_bind, Option.pure_def] at h
  split at h
  · cases h
    exact ⟨fun rest hr => (by cases hr), fun rest hr => (by cases hr)⟩
  · split at h
    · obtain ⟨⟨s₁, got⟩, hnew, h⟩ := Option.bind_eq_some_iff.mp h
      split at h
      · exact fillAll_ends h
      · cases h
        refine ⟨fun rest hr hne => ?_, fun rest hr => (by cases hr)⟩
        cases hr
        exact hne
    · exact fillAll_ends h

/-- An attempt looks at two flags. -/
theorem attempt_cases {r : Attempt} (h : attempt s (some u) now buf = some (s', r)) :
    (has (s.allData u).state (UIP_CLIENT_CLOSE ||| UIP_CLIENT_REMOTECLOSED) ∧ s' = s ∧ r = .closed) ∨
    (¬has (s.allData u).state (UIP_CLIENT_CLOSE ||| UIP_CLIENT_REMOTECLOSED) ∧ ∃ rest, r.rest = some rest ∧
      rest.length ≤ buf.length ∧ writtenBytes s'.history + rest.length = writtenBytes s.history + buf.length) := by
  simp only [attempt, Option.bind_eq_bind, Option.pure_def] at h
  split at h
  · rename_i hclosed
    cases h
    exact .inl ⟨hclosed, rfl, rfl⟩
  · rename_i hopen
    refine .inr ⟨hopen, ?_⟩
    split at h
    · obtain ⟨⟨s₁, got⟩, hnew, h⟩ := Option.bind_eq_some_iff.mp h
      rw [← newpacket_bytes hnew]
      split at h
      · exact fillAll_bytes h
      · cases h
        exact ⟨buf, rfl, Nat.le_refl _, rfl⟩
    · exact fillAll_bytes h

/-- `_write` returns -1, and changes nothing, where it finds one of the flags. -/
theorem attempt_closed_iff : attempt s (some u) now buf = some (s, .closed) ↔
    has (s.allData u).state (UIP_CLIENT_CLOSE ||| UIP_CLIENT_REMOTECLOSED) := by
  constructor
  · intro h
    rcases attempt_cases h with ⟨hclosed, -⟩ | ⟨-, rest, hrest, -⟩
    · exact hclosed
    · exact absurd hrest.symm (Option.some_ne_none rest)
  · exact fun hclosed => if_pos hclosed

-- ---------------------------------------------------------------------------
-- Entries of closed connections
-- ---------------------------------------------------------------------------

theorem turned_remains {rst : Prop} (hp : s.tables.Paired) (h : Turned c rst s s')
    (hremote : has (s.allData u).state UIP_CLIENT_REMOTECLOSED) : s'.allData u = s.allData u := by
  obtain ⟨-, -, hlife⟩ := h
  cases hlife with
  | idle _ hdata _ _ => rw [hdata]
  | attached v hentry hwithin _ =>
    refine hwithin.others u ?_
    rintro rfl
    exact hp.unattached (.inr hremote) c hentry
  | fresh v _ hfree hothers _ _ =>
    refine hothers u ?_
    rintro rfl
    rw [hfree] at hremote
    exact absurd hremote (by decide)

/-- The network leaves an entry alone that is kept for the sketch. -/
theorem network_remains {p : Piece} (hp : s.tables.Paired) (hnet : p.isNetwork) (h : PieceStep s p s')
    (hremote : has (s.allData u).state UIP_CLIENT_REMOTECLOSED) :
    s'.tables.Paired ∧ s'.allData u = s.allData u := by
  obtain ⟨hsession, hp'⟩ := h.session (fun a ha => by cases ha; cases a <;> first | rfl | cases hnet) hp
  refine ⟨hp', ?_⟩
  cases hsession with
  | idle h => rw [h.data]
  | turn c h => exact turned_remains hp h hremote
  | opened c h => rw [h.data]

theorem network_run_remains {ps : List Piece} (hp : s.tables.Paired)
    (hremote : has (s.allData u).state UIP_CLIENT_REMOTECLOSED)
    (h : Run (fun s p s' => PieceStep s p s' ∧ p.isNetwork) s ps s') :
    s'.tables.Paired ∧ s'.allData u = s.allData u := by
  refine h.invariant (I := fun t => t.tables.Paired ∧ t.allData u = s.allData u) ?_ ⟨hp, rfl⟩
  rintro t p t' ⟨hpt, hdata⟩ ⟨hstep, hnet⟩
  rw [← hdata] at hremote
  obtain ⟨hp', hdata'⟩ := network_remains hpt hnet hstep hremote
  exact ⟨hp', hdata'.trans hdata⟩

/-- Whatever the network does in the `tick` of a `_write`, the next attempt on
an entry without a connection returns -1 and changes nothing, exactly where the
entry was kept for unread data. -/
theorem closed_write {s₀ : System} {ps : List Piece} (h0 : s₀.tables = Tables.zero) (h : Run PieceStep s₀ ps s)
    (hdead : (s.allData u).state = 0 ∨ has (s.allData u).state UIP_CLIENT_REMOTECLOSED) :
    (∀ (t : System) (qs : List Piece) (now : BitVec 32) (buf : List Byte),
      Run (fun s p s' => PieceStep s p s' ∧ p.isNetwork) s qs t → attempt t (some u) now buf = some (t, .closed)) ↔
    has (s.allData u).state UIP_CLIENT_REMOTECLOSED := by
  constructor
  · intro hall
    have hflags := attempt_closed_iff.mp (hall s [] 0 [] .nil)
    refine hdead.resolve_left fun hzero => ?_
    rw [hzero] at hflags
    exact absurd hflags (by decide)
  · intro hremote t qs now buf hrun
    obtain ⟨-, hsame⟩ := network_run_remains (run_paired h0 h) hremote hrun
    rw [attempt_closed_iff, hsame, Tables.has_or, hremote, Bool.or_true]

/-- The last segment of a connection, with a byte that the sketch has not read. -/
def unreadFrame : List Byte := peerFrame 7 (TCP_FIN ||| TCP_ACK) 101 1 [0x90, 0x5c] [9]

theorem three_inputs {s₂ s₃ : System} (h₁ : s.tickInput = some s₁) (h₂ : s₁.tickInput = some s₂) (h₃ : s₂.tickInput = some s₃) :
    Run PieceStep s [.input, .input, .input] s₃ := .snoc (.snoc (.snoc .nil (.input h₁)) (.input h₂)) (.input h₃)

theorem closed_write_example : ∃ (s₀ s : System) (ps : List Piece), Run PieceStep s₀ ps s ∧
    attempt s (some 0) 0 [7] = some (s, .closed) := by
  have hcompute : ((Tracked.arrived unreadFrame).tickInput.bind fun s₁ => s₁.tickInput.bind fun s₂ =>
      s₂.tickInput.map fun s₃ => has (s₃.allData 0).state UIP_CLIENT_REMOTECLOSED) = some true := by
    decide +kernel
  have h0 : (Tracked.arrived unreadFrame).tables = Tables.zero := rfl
  generalize Tracked.arrived unreadFrame = s₀ at hcompute h0
  obtain ⟨s₁, h₁, hcompute⟩ := Option.bind_eq_some_iff.mp hcompute
  obtain ⟨s₂, h₂, hcompute⟩ := Option.bind_eq_some_iff.mp hcompute
  obtain ⟨s₃, h₃, hremote⟩ := Option.map_eq_some_iff.mp hcompute
  have hrun := three_inputs h₁ h₂ h₃
  exact ⟨s₀, s₃, _, hrun, (closed_write h0 hrun (.inr hremote)).mpr hremote s₃ [] 0 [7] .nil⟩

/-- The remote end has closed the connection, nothing is unread, and the entry
takes a byte. -/
theorem write_to_closed : ∃ (s₀ s s' : System) (ps : List Piece), s₀.tables = Tables.zero ∧ Run PieceStep s₀ ps s ∧
    (s.allData 0).state = 0 ∧ (∀ c, (s.uipConns c).appstate ≠ some 0) ∧
    attempt s (some 0) 0 [7] = some (s', .ready []) ∧ (s'.allData 0).packetsOut 0 ≠ (s.allData 0).packetsOut 0 := by
  have hcompute : ((Tracked.arrived Tracked.finFrame).tickInput.bind fun s₁ => s₁.tickInput.bind fun s₂ =>
      s₂.tickInput.bind fun s₃ => (attempt s₃ (some 0) 0 [7]).map fun x => decide ((s₃.allData 0).state = 0 ∧
        (∀ c, (s₃.uipConns c).appstate ≠ some 0) ∧ x.2 = .ready [] ∧
        (x.1.allData 0).packetsOut 0 ≠ (s₃.allData 0).packetsOut 0)) = some true := by
    decide +kernel
  have h0 : (Tracked.arrived Tracked.finFrame).tables = Tables.zero := rfl
  generalize Tracked.arrived Tracked.finFrame = s₀ at hcompute h0
  obtain ⟨s₁, h₁, hcompute⟩ := Option.bind_eq_some_iff.mp hcompute
  obtain ⟨s₂, h₂, hcompute⟩ := Option.bind_eq_some_iff.mp hcompute
  obtain ⟨s₃, h₃, hcompute⟩ := Option.bind_eq_some_iff.mp hcompute
  obtain ⟨⟨s', r⟩, hattempt, hcompute⟩ := Option.map_eq_some_iff.mp hcompute
  obtain ⟨hstate, happ, rfl, hout⟩ := of_decide_eq_true hcompute
  exact ⟨s₀, s₃, s', _, h0, three_inputs h₁ h₂ h₃, hstate, happ, hattempt, hout⟩

end UIPClient

end UIPEthernet
