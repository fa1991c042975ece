import UIPEthernet.Lib.Run

/-!
# Runs that use up a measure

Some labels of a run are ticks. If every tick takes one from a measure and the
other steps leave it, the tick that takes the last one reaches the goal.
-/

namespace UIPEthernet.Lib

variable {σ : Type u} {ε : Type v} {Step : σ → ε → σ → Prop} {I G : σ → Prop} {tick : ε → Bool} {m : σ → Nat}
  {s t : σ} {es : List ε} {n : Nat}

/-- The run has a beginning with `n` ticks at whose end `G` holds. -/
def Reaches (Step : σ → ε → σ → Prop) (G : σ → Prop) (tick : ε → Bool) (n : Nat) (s : σ) (es : List ε) : Prop :=
  ∃ es₁ es₂ u, es = es₁ ++ es₂ ∧ es₁.countP tick = n ∧ Run Step s es₁ u ∧ G u

theorem Reaches.append (h : Reaches Step G tick n s es) (es' : List ε) : Reaches Step G tick n s (es ++ es') := by
  obtain ⟨es₁, es₂, u, rfl, hcount, hrun, hgoal⟩ := h
  exact ⟨es₁, es₂ ++ es', u, List.append_assoc _ _ _, hcount, hrun, hgoal⟩

theorem Reaches.le (h : Reaches Step G tick n s es) : n ≤ es.countP tick := by
  obtain ⟨es₁, es₂, u, rfl, rfl, -, -⟩ := h
  rw [List.countP_append]
  exact Nat.le_add_right _ _

theorem Run.countdown (h : Run Step s es t) (h0 : I s)
    (hquiet : ∀ {t e u}, I t → Step t e u → tick e = false → I u ∧ m u = m t)
    (htick : ∀ {t e u}, I t → Step t e u → tick e = true → (G u ∧ m t = 1) ∨ (I u ∧ m u + 1 = m t)) :
    (I t ∧ m t + es.countP tick = m s) ∨ Reaches Step G tick (m s) s es := by
  induction h with
  | nil => exact .inl ⟨h0, rfl⟩
  | @snoc es t e u hrun hstep ih =>
    rcases ih with ⟨hI, hm⟩ | hreaches
    · rw [List.countP_append, List.countP_singleton]
      cases he : tick e with
      | false =>
        obtain ⟨hI', hm'⟩ := hquiet hI hstep he
        exact .inl ⟨hI', by simpa [hm'] using hm⟩
      | true =>
        rcases htick hI hstep he with ⟨hgoal, hlast⟩ | ⟨hI', hm'⟩
        · refine .inr ⟨es ++ [e], [], u, (List.append_nil _).symm, ?_, hrun.snoc hstep, hgoal⟩
          rw [List.countP_append, List.countP_singleton, if_pos he, ← hm, hlast, Nat.add_comm]
        · refine .inl ⟨hI', ?_⟩
          rw [if_pos rfl, ← hm, ← hm', Nat.add_assoc, Nat.add_comm 1]
    · exact .inr (hreaches.append [e])

end UIPEthernet.Lib
