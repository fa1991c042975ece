/-!
# A byte stream in chunks

What is left of a queue of chunks when its first elements are taken: chunks
that are used up go, and the one after them is cut from the front. The other end
is filled: the last chunk counts up to the fill position.
-/

namespace UIPEthernet.Lib

variable {α : Type u} {n : Nat} {q : List (List α)}

/-- The queue behind the first `n` elements. -/
def drain : Nat → List (List α) → List (List α)
  | _, [] => []
  | n, c :: q => if c.length ≤ n then drain (n - c.length) q else c.drop n :: q

/-- The number of chunks that are used up. -/
def drained : Nat → List (List α) → Nat
  | _, [] => 0
  | n, c :: q => if c.length ≤ n then drained (n - c.length) q + 1 else 0

theorem drain_flatten (n : Nat) (q : List (List α)) : (drain n q).flatten = q.flatten.drop n := by
  induction q generalizing n with
  | nil => rw [drain, List.flatten_nil, List.drop_nil]
  | cons c q ih =>
    rw [drain, List.flatten_cons, List.drop_append]
    split
    · rename_i hle
      rw [ih, List.drop_of_length_le hle, List.nil_append]
    · rename_i hlt
      rw [List.flatten_cons, Nat.sub_eq_zero_of_le (by omega), List.drop_zero]

theorem drain_length (n : Nat) (q : List (List α)) : drained n q + (drain n q).length = q.length := by
  induction q generalizing n with
  | nil => rfl
  | cons c q ih =>
    rw [drain, drained]
    split
    · rw [List.length_cons, ← ih (n - c.length)]
      omega
    · rw [List.length_cons, List.length_cons, Nat.zero_add]

theorem drain_nonempty (hq : ∀ c ∈ q, c ≠ []) : ∀ c ∈ drain n q, c ≠ [] := by
  induction q generalizing n with
  | nil => exact hq
  | cons c q ih =>
    rw [drain]
    split
    · exact ih fun d hd => hq d (List.mem_cons_of_mem c hd)
    · rename_i hlt
      intro d hd
      rcases List.mem_cons.mp hd with rfl | hd
      · exact List.ne_nil_of_length_pos (by rw [List.length_drop]; omega)
      · exact hq d (List.mem_cons_of_mem c hd)

/-- Nothing is left if and only if nothing was behind the first `n`. -/
theorem drain_nil_iff (hq : ∀ c ∈ q, c ≠ []) : drain n q = [] ↔ q.flatten.length ≤ n := by
  constructor
  · intro h
    have hflat := drain_flatten n q
    rw [h, List.flatten_nil] at hflat
    exact List.drop_eq_nil_iff.mp hflat.symm
  · intro h
    have hflat := drain_flatten n q
    rw [List.drop_of_length_le h] at hflat
    cases hrest : drain n q with
    | nil => rfl
    | cons c rest =>
      rw [hrest, List.flatten_cons] at hflat
      exact absurd (List.append_eq_nil_iff.mp hflat).1 (drain_nonempty hq c (hrest ▸ List.mem_cons_self))

theorem drain_zero (hq : ∀ c ∈ q, c ≠ []) : drain 0 q = q := by
  cases q with
  | nil => rfl
  | cons c q =>
    have hc : ¬c.length ≤ 0 := fun h => hq c List.mem_cons_self (List.length_eq_zero_iff.mp (Nat.le_zero.mp h))
    rw [drain, if_neg hc, List.drop_zero]

theorem drained_zero (hq : ∀ c ∈ q, c ≠ []) : drained 0 q = 0 := by
  have hlen := drain_length 0 q
  rw [drain_zero hq] at hlen
  omega

-- ---------------------------------------------------------------------------
-- The end that is filled
-- ---------------------------------------------------------------------------

/-- The elements of a queue whose last chunk is filled up to `n`. -/
def filled (n : Nat) : List (List α) → List α
  | [] => []
  | [c] => c.take n
  | c :: q => c ++ filled n q

theorem filled_concat (n : Nat) (q : List (List α)) (c : List α) : filled n (q ++ [c]) = q.flatten ++ c.take n := by
  induction q with
  | nil => rfl
  | cons d q ih =>
    cases q with
    | nil => simp [filled]
    | cons e q => simpa [filled] using ih

/-- A last chunk that is full is like the others. -/
theorem filled_full (h : ∀ c ∈ q.getLast?, c.length ≤ n) : filled n q = q.flatten := by
  obtain rfl | ⟨front, c, rfl⟩ := List.eq_nil_or_concat q
  · rfl
  · have hc := h c (by simp)
    simp [filled_concat, List.take_of_length_le hc]

/-- The first chunk goes. -/
theorem filled_cons {c : List α} (h : q = [] → c.length ≤ n) : filled n (c :: q) = c ++ filled n q := by
  cases q with
  | nil => simp [filled, List.take_of_length_le (h rfl)]
  | cons d q => rfl

end UIPEthernet.Lib
