/-!
# Ownership of handles

Slots of any kind hold handles; 0 is no handle. A handle is in one slot only,
and good for it.
-/

namespace UIPEthernet.Lib

structure Holds {α : Type u} (own : α → Nat) (good : α → Nat → Prop) : Prop where
  good : ∀ {x}, own x ≠ 0 → good x (own x)
  distinct : ∀ {x y}, own x ≠ 0 → own x = own y → x = y

variable {α : Type u} {own own' : α → Nat} {good good' : α → Nat → Prop} {x : α}

namespace Holds

theorem empty (h : ∀ x, own x = 0) : Holds own good := ⟨fun hx => absurd (h _) hx, fun hx => absurd (h _) hx⟩

theorem ne (h : Holds own good) {y : α} (hx : own x ≠ 0) (hxy : x ≠ y) : own x ≠ own y := fun he => hxy (h.distinct hx he)

/-- A slot gets a handle that no other has. -/
theorem put (h : Holds own good) (hself : own' x ≠ 0 → (∀ y, own y ≠ 0 → own y ≠ own' x) ∧ good' x (own' x))
    (hothers : ∀ y, y ≠ x → own' y = own y) (hgood : ∀ y, y ≠ x → own y ≠ 0 → good' y (own y)) : Holds own' good' := by
  constructor
  · intro y hy
    by_cases hyx : y = x
    · subst hyx
      exact (hself hy).2
    · rw [hothers y hyx] at hy ⊢
      exact hgood y hyx hy
  · intro y z hy hyz
    by_cases hyx : y = x
    · subst hyx
      refine Classical.byContradiction fun hzy => ?_
      have hz : own' z = own z := hothers z fun he => hzy he.symm
      rw [hz] at hyz
      exact (hself hy).1 z (hyz ▸ hy) hyz.symm
    · have hown := hothers y hyx
      rw [hown] at hy hyz
      by_cases hzx : z = x
      · subst hzx
        exact absurd hyz ((hself (hyz ▸ hy)).1 y hy)
      · rw [hothers z hzx] at hyz
        exact h.distinct hy hyz

/-- The handles are passed on, each to one slot at most. -/
theorem pass (h : Holds own good) (source : α → α) (hfrom : ∀ x, own' x ≠ 0 → own' x = own (source x))
    (hinj : ∀ x y, own' x ≠ 0 → own' y ≠ 0 → source x = source y → x = y)
    (hgood : ∀ x, own' x ≠ 0 → good' x (own' x)) : Holds own' good' := by
  refine ⟨fun hx => hgood _ hx, fun {x y} hx hxy => ?_⟩
  have hy : own' y ≠ 0 := hxy ▸ hx
  refine hinj x y hx hy (h.distinct ?_ ?_)
  · rw [← hfrom x hx]
    exact hx
  · rw [← hfrom x hx, ← hfrom y hy, hxy]

/-- Some handles are given up. -/
theorem drop (h : Holds own good) (hown : ∀ x, own' x ≠ 0 → own' x = own x) (hgood : ∀ x, own' x ≠ 0 → good' x (own' x)) :
    Holds own' good' :=
  h.pass id hown (fun _ _ _ _ he => he) hgood

end Holds

end UIPEthernet.Lib
