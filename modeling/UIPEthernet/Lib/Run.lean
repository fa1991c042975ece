/-!
# Runs of labelled steps

A run is a sequence of steps from a start state, with the labels in the order
they happened. Invariants and simulations need one step only.
-/

namespace UIPEthernet.Lib

inductive Run (Step : σ → ε → σ → Prop) (s : σ) : List ε → σ → Prop
  | nil : Run Step s [] s
  | snoc : Run Step s es t → Step t e u → Run Step s (es ++ [e]) u

variable {σ : Type u} {τ : Type v} {ε : Type w} {γ : Type x} {δ : Type y} {Step : σ → ε → σ → Prop} {Spec : τ → ε → τ → Prop}
  {s t : σ} {a : τ} {es : List ε} {e : ε}

theorem Run.nil_inv (h : Run Step s [] t) : t = s := by
  generalize hl : ([] : List ε) = l at h
  cases h with
  | nil => rfl
  | snoc => simp at hl

theorem Run.snoc_inv (h : Run Step s (es ++ [e]) t) : ∃ u, Run Step s es u ∧ Step u e t := by
  generalize hl : es ++ [e] = l at h
  cases h with
  | nil => simp at hl
  | snoc hr hs =>
    obtain ⟨rfl, he⟩ := List.append_inj' hl rfl
    obtain rfl := List.singleton_inj.mp he
    exact ⟨_, hr, hs⟩

/-- What holds at the start and is kept by every step holds after every run. -/
theorem Run.invariant {I : σ → Prop} (h : Run Step s es t)
    (hstep : ∀ {t e u}, I t → Step t e u → I u) (h0 : I s) : I t := by
  induction h with
  | nil => exact h0
  | snoc _ hs ih => exact hstep ih hs

/-- Every run is matched, label by label, by a run of `Spec`. -/
theorem Run.simulation {R : σ → τ → Prop} (h : Run Step s es t)
    (hstep : ∀ {t e u b}, R t b → Step t e u → ∃ c, Spec b e c ∧ R u c) (h0 : R s a) :
    ∃ b, Run Spec a es b ∧ R t b := by
  induction h with
  | nil => exact ⟨a, .nil, h0⟩
  | snoc _ hs ih =>
    obtain ⟨b, hrun, hR⟩ := ih
    obtain ⟨c, hspec, hR'⟩ := hstep hR hs
    exact ⟨c, .snoc hrun hspec, hR'⟩

/-- Two runs whose labels agree in `f` stay related, and so their labels agree
in `g`. -/
theorem Run.lockstep {Step' : τ → ε → τ → Prop} {f : ε → γ} {g : ε → δ} {R : σ → τ → Prop} {b : τ}
    {es' : List ε} (h : Run Step s es t) (h' : Run Step' a es' b) (hf : es.map f = es'.map f)
    (hstep : ∀ {t e u b e' c}, R t b → Step t e u → Step' b e' c → f e = f e' → R u c ∧ g e = g e')
    (h0 : R s a) : R t b ∧ es.map g = es'.map g := by
  induction h generalizing es' b with
  | nil =>
    obtain rfl := List.map_eq_nil_iff.mp hf.symm
    obtain rfl := h'.nil_inv
    exact ⟨h0, rfl⟩
  | snoc _ hs ih =>
    cases List.eq_nil_or_concat es' with
    | inl hnil => simp [hnil] at hf
    | inr hsome =>
      obtain ⟨es'', e', rfl⟩ := hsome
      rw [List.concat_eq_append] at h' hf ⊢
      obtain ⟨c, hr', hs'⟩ := h'.snoc_inv
      rw [List.map_append, List.map_append] at hf
      obtain ⟨hinit, hlast⟩ := List.append_inj' hf rfl
      obtain ⟨hR, hg⟩ := ih hr' hinit
      obtain ⟨hR', hg'⟩ := hstep hR hs hs' (List.singleton_inj.mp hlast)
      exact ⟨hR', by simp [hg, hg']⟩

/-- A run of steps that are all steps of another kind. -/
theorem Run.mono {Step' : σ → ε → σ → Prop} (h : Run Step s es t)
    (hstep : ∀ {t e u}, Step t e u → Step' t e u) : Run Step' s es t := by
  induction h with
  | nil => exact .nil
  | snoc _ hs ih => exact .snoc ih (hstep hs)

theorem Run.append {es' : List ε} {u : σ} (h : Run Step s es t) (h' : Run Step t es' u) : Run Step s (es ++ es') u := by
  induction h' with
  | nil => rwa [List.append_nil]
  | snoc _ hs ih =>
    rw [← List.append_assoc]
    exact ih.snoc hs

/-- A loop over a list is a run of its turns. -/
theorem Run.of_foldlM {α : Type y} {f : σ → α → Option σ} {g : α → ε} {l : List α}
    (hstep : ∀ {s a t}, f s a = some t → Step s (g a) t) (h : l.foldlM f s = some t) : Run Step s (l.map g) t := by
  induction l generalizing s with
  | nil =>
    cases h
    exact .nil
  | cons a l ih =>
    rw [List.foldlM_cons] at h
    obtain ⟨s₁, hs, hrest⟩ := Option.bind_eq_some_iff.mp h
    have hfirst : Run Step s [g a] s₁ := .snoc .nil (hstep hs)
    exact hfirst.append (ih hrest)

/-- A run with labels of one kind. -/
def Steps (Step : σ → ε → σ → Prop) (P : ε → Prop) (s t : σ) : Prop := ∃ es, Run Step s es t ∧ ∀ e ∈ es, P e

variable {P P' : ε → Prop} {u : σ}

theorem Steps.refl (s : σ) : Steps Step P s s := ⟨[], .nil, fun _ h => absurd h List.not_mem_nil⟩

theorem Steps.of_eq (h : t = s) : Steps Step P s t := by
  subst h
  exact .refl t

theorem Steps.one (h : Step s e t) (he : P e) : Steps Step P s t :=
  ⟨[e], .snoc .nil h, fun _ h => List.mem_singleton.mp h ▸ he⟩

theorem Steps.trans (h : Steps Step P s t) (h' : Steps Step P t u) : Steps Step P s u := by
  obtain ⟨es, hrun, hP⟩ := h
  obtain ⟨es', hrun', hP'⟩ := h'
  exact ⟨es ++ es', hrun.append hrun', fun e he => (List.mem_append.mp he).elim (hP e) (hP' e)⟩

theorem Steps.mono (himp : ∀ e, P e → P' e) (h : Steps Step P s t) : Steps Step P' s t := by
  obtain ⟨es, hrun, hP⟩ := h
  exact ⟨es, hrun, fun e he => himp e (hP e he)⟩

end UIPEthernet.Lib
