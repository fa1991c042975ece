import Mathlib.Data.List.Basic
import Mathlib.Logic.Function.Basic

/-!
# Slices of a memory

A memory is a function from addresses to cells. `load` reads a slice of it,
`store` writes one, and `splice` does to a list what `store` does to the
slice it falls into.
-/

namespace UIPEthernet.Lib

variable {β : Type*} {m m' : Nat → β} {a p n k i x : Nat} {l r : List β}

def load (m : Nat → β) (a n : Nat) : List β := (List.range n).map fun i => m (a + i)

def store (m : Nat → β) (a : Nat) (l : List β) : Nat → β := fun x =>
  if h : a ≤ x ∧ x - a < l.length then l[x - a] else m x

/-- `r` written over `l` from position `p` on. -/
def splice (l : List β) (p : Nat) (r : List β) : List β :=
  l.take p ++ r ++ l.drop (p + r.length)

@[simp] theorem load_length : (load m a n).length = n := by simp [load]

@[simp] theorem load_getElem (h : i < (load m a n).length) : (load m a n)[i] = m (a + i) := by
  simp [load]

theorem load_congr (h : ∀ i < n, m' (a + i) = m (a + i)) : load m' a n = load m a n :=
  List.map_congr_left fun i hi => h i (List.mem_range.mp hi)

@[simp] theorem load_zero : load m a 0 = [] := rfl

theorem load_succ : load m a (n + 1) = m a :: load m (a + 1) n := by
  refine List.ext_getElem (by simp) fun i h _ => ?_
  cases i with
  | zero => simp
  | succ i => simp [Nat.add_assoc, Nat.add_comm 1]

theorem load_drop : (load m a n).drop p = load m (a + p) (n - p) :=
  List.ext_getElem (by simp) fun i _ _ => by simp [Nat.add_assoc]

theorem load_take (h : p ≤ n) : (load m a n).take p = load m a p :=
  List.ext_getElem (by simp [h]) fun i _ _ => by simp

theorem store_inside (h : a ≤ x) (hx : x - a < l.length) : store m a l x = l[x - a] := by
  simp [store, h, hx]

theorem store_outside (h : x < a ∨ a + l.length ≤ x) : store m a l x = m x := by
  have : ¬(a ≤ x ∧ x - a < l.length) := by omega
  simp only [store, dif_neg this]

@[simp] theorem store_nil : store m a [] = m := funext fun _ => store_outside (by simp; omega)

/-- Writing a slice starts with writing its first cell. -/
theorem store_cons {y : β} :
    store m a (y :: l) = store (Function.update m a y) (a + 1) l := by
  funext x
  by_cases hx : x = a
  · subst hx
    rw [store_outside (l := l) (by omega)]
    simp [store]
  · by_cases h : a ≤ x ∧ x - a < l.length + 1
    · obtain ⟨k, rfl⟩ : ∃ k, x = a + (k + 1) := ⟨x - (a + 1), by omega⟩
      have h1 : a + (k + 1) - a = k + 1 := by omega
      have h2 : a + (k + 1) - (a + 1) = k := by omega
      rw [store_inside (l := l) (by omega) (by omega), store_inside (by omega) (by simp; omega)]
      simp [h1, h2]
    · rw [store_outside (l := l) (by omega), Function.update_of_ne hx]
      exact store_outside (by simp only [List.length_cons]; omega)

theorem load_store_disjoint (h : p + n ≤ a ∨ a + l.length ≤ p) :
    load (store m a l) p n = load m p n :=
  load_congr fun i hi => store_outside (by omega)

theorem load_store_self : load (store m a l) a l.length = l :=
  List.ext_getElem (by simp) fun i _ _ => by
    rw [load_getElem, store_inside (by omega) (by omega)]
    simp

@[simp] theorem splice_length (h : p + r.length ≤ l.length) :
    (splice l p r).length = l.length := by
  simp [splice]; omega

theorem load_store (h : p + l.length ≤ n) :
    load (store m (a + p) l) a n = splice (load m a n) p l := by
  refine List.ext_getElem (by simp [h]) fun i hi _ => ?_
  simp only [load_length] at hi
  simp only [load_getElem, splice, List.getElem_append, List.length_take, load_length,
    List.length_append, List.getElem_take, List.getElem_drop]
  by_cases h1 : i < p
  · rw [store_outside (by omega)]
    simp [show i < min p n by omega, show i < min p n + l.length by omega]
  · by_cases h2 : i < p + l.length
    · rw [store_inside (by omega) (by omega)]
      simp [show ¬i < min p n by omega, show i < min p n + l.length by omega,
        show a + i - (a + p) = i - min p n by omega]
    · rw [store_outside (by omega)]
      simp [show ¬i < min p n + l.length by omega,
        show a + (p + l.length + (i - (min p n + l.length))) = a + i by omega]

end UIPEthernet.Lib
