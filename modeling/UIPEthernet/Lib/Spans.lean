import Mathlib.Algebra.Order.Ring.Nat

/-!
# Spans of a sequence space

Numbers of a fixed width name the octets of a stream, and a span is a first
number and a length. Spans that follow each other without a gap carry the
stream from where the first begins.
-/

namespace UIPEthernet.Lib

variable {w : Nat} {q q' q₁ : BitVec w} {l l' : List (BitVec w × Nat)} {n : Nat}

/-- The spans follow each other from `q` to `q'`. -/
def Contiguous (q : BitVec w) : List (BitVec w × Nat) → BitVec w → Prop
  | [], q' => q' = q
  | (p, n) :: rest, q' => p = q ∧ Contiguous (q + BitVec.ofNat w n) rest q'

theorem Contiguous.append (h : Contiguous q l q₁) (h' : Contiguous q₁ l' q') : Contiguous q (l ++ l') q' := by
  induction l generalizing q with
  | nil =>
    cases h
    exact h'
  | cons p rest ih => exact ⟨h.1, ih h.2⟩

theorem Contiguous.span (n : Nat) : Contiguous q [(q, n)] (q + BitVec.ofNat w n) := ⟨rfl, rfl⟩

/-- The octets of a span. -/
def octets (stream : BitVec w → β) (q : BitVec w) (n : Nat) : List β :=
  (List.range n).map fun i => stream (q + BitVec.ofNat w i)

theorem octets_add (stream : BitVec w → β) (q : BitVec w) (m n : Nat) :
    octets stream q (m + n) = octets stream q m ++ octets stream (q + BitVec.ofNat w m) n := by
  simp only [octets, List.range_add, List.map_append, List.map_map]
  refine congrArg _ (List.map_congr_left fun i _ => ?_)
  simp [BitVec.ofNat_add, BitVec.add_assoc]

/-- What is in the spans is the stream: nothing is left out, and nothing comes
twice or out of order. -/
theorem Contiguous.octets (stream : BitVec w → β) (h : Contiguous q l q') :
    (l.flatMap fun p => octets stream p.1 p.2) = Lib.octets stream q (l.map (·.2)).sum ∧
      q' = q + BitVec.ofNat w (l.map (·.2)).sum := by
  induction l generalizing q with
  | nil =>
    cases h
    exact ⟨rfl, (BitVec.add_zero _).symm⟩
  | cons p rest ih =>
    obtain ⟨rfl, hrest⟩ := h
    obtain ⟨hoctets, rfl⟩ := ih hrest
    rw [List.flatMap_cons, hoctets, List.map_cons, List.sum_cons, octets_add, BitVec.ofNat_add, BitVec.add_assoc]
    exact ⟨rfl, rfl⟩

end UIPEthernet.Lib
