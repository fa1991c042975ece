import Mathlib.Data.Fintype.Card
import Mathlib.Data.Finset.Dedup

/-!
# A cache that is written slot by slot

Slots with a key and a value each, against all that was ever written. A slot
may be given to another key at any time. The cache stays coherent: a key has
one slot at most, and what is in it was written last.
-/

namespace UIPEthernet.Lib

variable {ι : Type u} {κ : Type v} {ν : Type w} {slots : ι → Option (κ × ν)} {known : κ → Option ν} {i : ι} {k : κ} {v : ν}

/-- The value that was written last for a key. -/
def latest [DecidableEq κ] (writes : List (κ × ν)) (k : κ) : Option ν := writes.reverse.lookup k

theorem latest_append [DecidableEq κ] (writes : List (κ × ν)) (k : κ) (v : ν) :
    latest (writes ++ [(k, v)]) = Function.update (latest writes) k (some v) := by
  funext j
  rw [latest, List.reverse_append, List.reverse_singleton, List.singleton_append, List.lookup_cons]
  by_cases hj : j = k
  · rw [hj, beq_self_eq_true, Function.update_self]
  · rw [beq_false_of_ne hj, Function.update_of_ne hj, latest]

theorem latest_mem [DecidableEq κ] {writes : List (κ × ν)} (h : latest writes k = some v) : (k, v) ∈ writes := by
  obtain ⟨before, after, hwrites, -⟩ := List.lookup_eq_some_iff.mp h
  rw [← List.mem_reverse, hwrites]
  exact List.mem_append_right before List.mem_cons_self

structure Coherent (slots : ι → Option (κ × ν)) (known : κ → Option ν) : Prop where
  latest : ∀ {i k v}, slots i = some (k, v) → known k = some v
  distinct : ∀ {i j k v w}, slots i = some (k, v) → slots j = some (k, w) → i = j

namespace Coherent

theorem empty : Coherent (fun _ : ι => none) known := by
  constructor
  · rintro _ _ _ ⟨⟩
  · rintro _ _ _ _ _ ⟨⟩

/-- The slot `i` gets `k`, which no other slot has. -/
theorem write [DecidableEq ι] [DecidableEq κ] (h : Coherent slots known) (hkey : ∀ {j w}, slots j = some (k, w) → j = i) :
    Coherent (Function.update slots i (some (k, v))) (Function.update known k (some v)) := by
  have hother : ∀ {j k' v'}, j ≠ i → slots j = some (k', v') → k' ≠ k := by
    rintro j k' v' hj hslot rfl
    exact hj (hkey hslot)
  constructor
  · intro j k' v' hslot
    by_cases hj : j = i
    · rw [hj, Function.update_self, Option.some.injEq, Prod.mk.injEq] at hslot
      rw [← hslot.1, ← hslot.2, Function.update_self]
    · rw [Function.update_of_ne hj] at hslot
      rw [Function.update_of_ne (hother hj hslot), h.latest hslot]
  · intro j₁ j₂ k' v₁ v₂ hslot₁ hslot₂
    by_cases hj₁ : j₁ = i <;> by_cases hj₂ : j₂ = i
    · rw [hj₁, hj₂]
    · rw [hj₁, Function.update_self, Option.some.injEq, Prod.mk.injEq] at hslot₁
      rw [Function.update_of_ne hj₂] at hslot₂
      exact absurd hslot₁.1.symm (hother hj₂ hslot₂)
    · rw [hj₂, Function.update_self, Option.some.injEq, Prod.mk.injEq] at hslot₂
      rw [Function.update_of_ne hj₁] at hslot₁
      exact absurd hslot₂.1.symm (hother hj₁ hslot₁)
    · rw [Function.update_of_ne hj₁] at hslot₁
      rw [Function.update_of_ne hj₂] at hslot₂
      exact h.distinct hslot₁ hslot₂

/-- A write that goes to no slot, of a key that has none. -/
theorem miss [DecidableEq κ] (h : Coherent slots known) (hkey : ∀ {j w}, slots j ≠ some (k, w)) :
    Coherent slots (Function.update known k (some v)) := by
  refine ⟨fun {j k' v'} hslot => ?_, h.distinct⟩
  have hne : k' ≠ k := by
    rintro rfl
    exact hkey hslot
  rw [Function.update_of_ne hne, h.latest hslot]

theorem erase [DecidableEq ι] (h : Coherent slots known) : Coherent (Function.update slots i none) known := by
  have hkept : ∀ {j k v}, Function.update slots i none j = some (k, v) → slots j = some (k, v) := by
    intro j k v hslot
    by_cases hj : j = i
    · rw [hj, Function.update_self] at hslot
      cases hslot
    · rwa [Function.update_of_ne hj] at hslot
  exact ⟨fun hslot => h.latest (hkept hslot), fun hslot₁ hslot₂ => h.distinct (hkept hslot₁) (hkept hslot₂)⟩

/-- There is room for one more key, if there are not more keys than slots. -/
theorem room [Fintype ι] [DecidableEq κ] {writes : List (κ × ν)} (h : Coherent slots (Lib.latest writes))
    (hkey : ∀ {i w}, slots i ≠ some (k, w)) (hfew : (k :: writes.map Prod.fst).toFinset.card ≤ Fintype.card ι) :
    ∃ i, slots i = none := by
  by_contra hfull
  push Not at hfull
  have hall : ∀ i, ∃ kv, slots i = some kv := fun i => Option.ne_none_iff_exists'.mp (hfull i)
  choose entry hentry using hall
  have hinj : Function.Injective fun i => (entry i).1 := fun i j hij =>
    h.distinct (w := (entry j).2) (hentry i) ((hentry j).trans (congrArg some (Prod.ext hij.symm rfl)))
  have hsub : insert k (Finset.univ.image fun i => (entry i).1) ⊆ (k :: writes.map Prod.fst).toFinset := by
    rw [List.toFinset_cons]
    refine Finset.insert_subset_insert k fun key hmem => ?_
    obtain ⟨i, -, rfl⟩ := Finset.mem_image.mp hmem
    exact List.mem_toFinset.mpr (List.mem_map_of_mem (latest_mem (h.latest (hentry i))))
  have hnew : k ∉ Finset.univ.image fun i => (entry i).1 := by
    intro hmem
    obtain ⟨i, -, hi⟩ := Finset.mem_image.mp hmem
    exact hkey (w := (entry i).2) ((hentry i).trans (congrArg some (Prod.ext hi rfl)))
  have hcard := Finset.card_le_card hsub
  rw [Finset.card_insert_of_notMem hnew, Finset.card_image_of_injective _ hinj, Finset.card_univ] at hcard
  exact absurd (hcard.trans hfew) (Nat.not_succ_le_self _)

end Coherent

/-- All that was written is there. -/
def Complete (slots : ι → Option (κ × ν)) (known : κ → Option ν) : Prop := ∀ {k v}, known k = some v → ∃ i, slots i = some (k, v)

/-- The slot `i` gets `k`, which it had before if it had any key. -/
theorem Complete.write [DecidableEq ι] [DecidableEq κ] (h : Complete slots known) (hkey : ∀ {j w}, slots i = some (j, w) → j = k) :
    Complete (Function.update slots i (some (k, v))) (Function.update known k (some v)) := by
  intro j w hknown
  by_cases hj : j = k
  · rw [hj, Function.update_self] at hknown
    cases hknown
    exact ⟨i, by rw [Function.update_self, hj]⟩
  · rw [Function.update_of_ne hj] at hknown
    obtain ⟨i', hslot⟩ := h hknown
    refine ⟨i', ?_⟩
    rw [Function.update_of_ne, hslot]
    rintro rfl
    exact hj (hkey hslot)

end UIPEthernet.Lib
