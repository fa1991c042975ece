import Mathlib.Data.List.Basic
import Mathlib.Data.List.Pairwise
import Mathlib.Data.List.Nodup

/-!
# Singly linked lists in a table

A table gives every node its successor. `Linked next stop x l` reads the
table from node `x` on: the successors are exactly `l`, in that order, and
the last one's successor is `stop`. Insertion and removal rewrite the
successors of the nodes next to the change; the lemmas state what the new
table has to look like, so that any record update can instantiate them.
-/

namespace UIPEthernet.Lib

variable {α : Type*} {next next' : α → α} {stop x y c n : α} {l A B : List α}

def Linked (next : α → α) (stop : α) : α → List α → Prop
  | x, [] => next x = stop
  | x, y :: l => next x = y ∧ y ≠ stop ∧ Linked next stop y l

theorem Linked.stop_notMem (h : Linked next stop x l) : stop ∉ l := by
  induction l generalizing x with
  | nil => simp
  | cons y l ih =>
    obtain ⟨-, hy, ht⟩ := h
    simp [Ne.symm hy, ih ht]

/-- The table determines the list. -/
theorem Linked.unique (h : Linked next stop x l) (h' : Linked next stop x A) : l = A := by
  induction l generalizing x A with
  | nil =>
    cases A with
    | nil => rfl
    | cons y A => exact absurd (h'.1.symm.trans h) h'.2.1
  | cons y l ih =>
    cases A with
    | nil => exact absurd (h.1.symm.trans h') h.2.1
    | cons z A =>
      have hz : y = z := h.1.symm.trans h'.1
      subst hz
      rw [ih h.2.2 h'.2.2]

/-- Moving the start of the list to another node with the same successor. -/
theorem Linked.restart (h : Linked next stop x l) (hx : next' y = next x)
    (hl : ∀ z ∈ l, next' z = next z) : Linked next' stop y l := by
  induction l generalizing x y with
  | nil => exact hx.trans h
  | cons z l ih =>
    obtain ⟨hz, hs, ht⟩ := h
    exact ⟨hx.trans hz, hs, ih ht (hl z (by simp)) fun w hw => hl w (by simp [hw])⟩

theorem Linked.congr (h : Linked next stop x l) (hl : ∀ z ∈ x :: l, next' z = next z) :
    Linked next' stop x l :=
  h.restart (hl x (by simp)) fun z hz => hl z (by simp [hz])

theorem Linked.drop (h : Linked next stop x l) (hs : x :: l = A ++ c :: B) :
    Linked next stop c B := by
  induction A generalizing x l with
  | nil =>
    obtain ⟨rfl, rfl⟩ := List.cons.inj hs
    exact h
  | cons w A ih =>
    obtain ⟨rfl, rfl⟩ := List.cons.inj hs
    cases A with
    | nil => exact ih h.2.2 rfl
    | cons v A => exact ih h.2.2 rfl

/-- The node `n` linked in behind `c`. -/
theorem Linked.insert (h : Linked next stop x l) (hs : x :: l = A ++ c :: B)
    (hnd : (x :: l).Nodup) (hn : n ≠ stop) (hc : next' c = n) (hnext : next' n = next c)
    (hl : ∀ z ∈ x :: l, z ≠ c → next' z = next z) :
    Linked next' stop x (A ++ c :: n :: B).tail := by
  induction A generalizing x l with
  | nil =>
    obtain ⟨rfl, rfl⟩ := List.cons.inj hs
    refine ⟨hc, hn, h.restart hnext fun z hz => hl z (by simp [hz]) ?_⟩
    exact fun he => (List.nodup_cons.mp hnd).1 (he ▸ hz)
  | cons w A ih =>
    obtain ⟨rfl, rfl⟩ := List.cons.inj hs
    have hxc : x ≠ c := by
      intro he; simp [he] at hnd
    have hx := hl x (by simp) hxc
    cases A with
    | nil =>
      obtain ⟨hxy, hy, ht⟩ := h
      exact ⟨hx.trans hxy, hy, ih ht rfl (List.nodup_cons.mp hnd).2
        fun z hz => hl z (List.mem_cons_of_mem _ hz)⟩
    | cons v A =>
      obtain ⟨hxy, hy, ht⟩ := h
      exact ⟨hx.trans hxy, hy, ih ht rfl (List.nodup_cons.mp hnd).2
        fun z hz => hl z (List.mem_cons_of_mem _ hz)⟩

/-- The node `n` behind `c` taken out. -/
theorem Linked.erase (h : Linked next stop x l) (hs : x :: l = A ++ c :: n :: B)
    (hnd : (x :: l).Nodup) (hc : next' c = next n)
    (hl : ∀ z ∈ x :: l, z ≠ c → z ≠ n → next' z = next z) :
    Linked next' stop x (A ++ c :: B).tail := by
  induction A generalizing x l with
  | nil =>
    obtain ⟨rfl, rfl⟩ := List.cons.inj hs
    simp only [List.nodup_cons, List.mem_cons, not_or] at hnd
    refine h.2.2.restart hc fun z hz => hl z (by simp [hz]) ?_ ?_
    · exact fun he => hnd.1.2 (he ▸ hz)
    · exact fun he => hnd.2.1 (he ▸ hz)
  | cons w A ih =>
    obtain ⟨rfl, rfl⟩ := List.cons.inj hs
    have hxc : x ≠ c := by
      intro he; simp [he] at hnd
    have hxn : x ≠ n := by
      intro he; simp [he] at hnd
    have hx := hl x (by simp) hxc hxn
    cases A with
    | nil =>
      obtain ⟨hxy, hy, ht⟩ := h
      exact ⟨hx.trans hxy, hy, ih ht rfl (List.nodup_cons.mp hnd).2
        fun z hz => hl z (List.mem_cons_of_mem _ hz)⟩
    | cons v A =>
      obtain ⟨hxy, hy, ht⟩ := h
      exact ⟨hx.trans hxy, hy, ih ht rfl (List.nodup_cons.mp hnd).2
        fun z hz => hl z (List.mem_cons_of_mem _ hz)⟩

/-- A sorted list stays sorted when `n` is put at its place behind `c`. -/
theorem pairwise_insert {R : α → α → Prop} (h : (A ++ c :: B).Pairwise R) (hA : ∀ a ∈ A, R a n)
    (hc : R c n) (hB : ∀ d ∈ B, R n d) : (A ++ c :: n :: B).Pairwise R := by
  rw [List.pairwise_append, List.pairwise_cons] at h ⊢
  obtain ⟨h1, ⟨h2, h3⟩, h4⟩ := h
  refine ⟨h1, ⟨?_, List.pairwise_cons.mpr ⟨hB, h3⟩⟩, ?_⟩
  · rintro d (_ | ⟨_, hd⟩)
    · exact hc
    · exact h2 d hd
  · rintro a ha d hd
    rcases List.mem_cons.mp hd with rfl | hd
    · exact h4 a ha d (by simp)
    · rcases List.mem_cons.mp hd with rfl | hd
      · exact hA a ha
      · exact h4 a ha d (by simp [hd])

end UIPEthernet.Lib
