/-!
# Programs that make calls

A program returns a value, never returns, or makes a call and goes on with the
answer. What the calls do is left open: `Exec` runs a program over a relation on
states, `eval` over a function. A loop has a bound on its turns, and behind the
last one it never returns.
-/

namespace UIPEthernet.Lib

inductive Prog (Op : Type u) (Ans : Op → Type v) (α : Type w)
  | done (a : α)
  | hang
  | call (op : Op) (next : Ans op → Prog Op Ans α)

namespace Prog

variable {Op : Type u} {Ans : Op → Type v} {α β : Type w} {σ : Type x} {τ : Type y}

def bind : Prog Op Ans α → (α → Prog Op Ans β) → Prog Op Ans β
  | done a, f => f a
  | hang, _ => hang
  | call op next, f => call op fun x => (next x).bind f

instance : Monad (Prog Op Ans) where
  pure := done
  bind := bind

/-- The program that makes one call. -/
def ask (op : Op) : Prog Op Ans (Ans op) := call op done

/-- A run of a program to its end. -/
inductive Exec (Step : σ → (op : Op) → Ans op → σ → Prop) : Prog Op Ans α → σ → α → σ → Prop
  | done : Exec Step (.done a) s a s
  | call (h : Step s op x s₁) (hrest : Exec Step (next x) s₁ a s') : Exec Step (.call op next) s a s'

def eval (handle : σ → (op : Op) → Option (Ans op × σ)) : Prog Op Ans α → σ → Option (α × σ)
  | done a, s => some (a, s)
  | hang, _ => none
  | call op next, s => (handle s op).bind fun x => (next x.1).eval handle x.2

/-- The program comes to its end, whatever happens before its calls (`Env`) and
whatever they answer then (`Act`). -/
inductive Returns (Env : σ → Op → σ → Prop) (Act : σ → (op : Op) → Ans op → σ → Prop) : Prog Op Ans α → σ → Prop
  | done : Returns Env Act (.done a) s
  | call (hback : ∀ {s₁}, Env s op s₁ → ∃ x s', Act s₁ op x s')
      (hnext : ∀ {s₁ x s'}, Env s op s₁ → Act s₁ op x s' → Returns Env Act (next x) s') : Returns Env Act (.call op next) s

/-- The program makes calls of a kind only. -/
inductive Only (P : Op → Prop) : Prog Op Ans α → Prop
  | done : Only P (.done a)
  | hang : Only P .hang
  | call (h : P op) (hnext : ∀ x, Only P (next x)) : Only P (.call op next)

variable {Step : σ → (op : Op) → Ans op → σ → Prop} {handle : τ → (op : Op) → Option (Ans op × τ)} {p : Prog Op Ans α}
  {f : α → Prog Op Ans β} {P : Op → Prop} {R : σ → τ → Prop} {s s' : σ} {t t' : τ} {a : α} {b : β}

theorem eval_bind : (p >>= f).eval handle t = (p.eval handle t).bind fun x => (f x.1).eval handle x.2 := by
  induction p generalizing t with
  | done a => rfl
  | hang => rfl
  | call op next ih =>
    show (handle t op).bind _ = ((handle t op).bind _).bind _
    rw [Option.bind_assoc]
    exact Option.bind_congr fun x _ => ih x.1

theorem Only.ask {op : Op} (h : P op) : Only P (ask op : Prog Op Ans (Ans op)) := .call h fun _ => .done

theorem Only.bind (h : Only P p) (hf : ∀ a, Only P (f a)) : Only P (p >>= f) := by
  induction h with
  | done => exact hf _
  | hang => exact .hang
  | call hop _ ih => exact .call hop ih

theorem Only.mono {Q : Op → Prop} (h : Only P p) (himp : ∀ op, P op → Q op) : Only Q p := by
  induction h with
  | done => exact .done
  | hang => exact .hang
  | call hop _ ih => exact .call (himp _ hop) ih

/-- What the function says is what happens in every run, if every call that the
program makes does what the function says. -/
theorem Exec.eval (h : Exec Step p s a s') (honly : p.Only P) (hcall : ∀ {s op x s' t}, P op → R s t → Step s op x s' →
    ∃ t', handle t op = some (x, t') ∧ R s' t') (hR : R s t) : ∃ t', p.eval handle t = some (a, t') ∧ R s' t' := by
  induction h generalizing t with
  | done => exact ⟨t, rfl, hR⟩
  | call hstep _ ih =>
    cases honly with
    | call hop hnext =>
      obtain ⟨t₁, hhandle, hR₁⟩ := hcall hop hR hstep
      obtain ⟨t', heval, hR'⟩ := ih (hnext _) hR₁
      refine ⟨t', ?_, hR'⟩
      rw [Prog.eval, hhandle]
      exact heval

/-- There is such a run, if the function only says what a call may do. -/
theorem eval_exec {handle : σ → (op : Op) → Option (Ans op × σ)} (h : p.eval handle s = some (a, s'))
    (hcall : ∀ {s op x s'}, handle s op = some (x, s') → Step s op x s') : Exec Step p s a s' := by
  induction p generalizing s with
  | done a =>
    cases h
    exact .done
  | hang => cases h
  | call op next ih =>
    obtain ⟨⟨x, s₁⟩, hhandle, hrest⟩ := Option.bind_eq_some_iff.mp h
    exact .call (hcall hhandle) (ih x hrest)

/-- It comes to its end in every way, if every call that is asked comes back with
what the function says. -/
theorem eval_returns {Env : σ → Op → σ → Prop} {Act : σ → (op : Op) → Ans op → σ → Prop} (h : p.eval handle t = some (a, t'))
    (henv : ∀ {s op s₁ t}, R s t → Env s op s₁ → R s₁ t)
    (hact : ∀ {s op x t t'}, R s t → handle t op = some (x, t') → (∃ s', Act s op x s') ∧ ∀ {y s'}, Act s op y s' → y = x ∧ R s' t')
    (hR : R s t) : p.Returns Env Act s := by
  induction p generalizing s t with
  | done a => exact .done
  | hang => cases h
  | call op next ih =>
    obtain ⟨⟨x, t₁⟩, hhandle, hrest⟩ := Option.bind_eq_some_iff.mp h
    refine .call (fun hbefore => ?_) fun hbefore hcall => ?_
    · exact ⟨x, (hact (henv hR hbefore) hhandle).1⟩
    · obtain ⟨rfl, hR₁⟩ := (hact (henv hR hbefore) hhandle).2 hcall
      exact ih _ hrest hR₁

/-- Some run is there then. -/
theorem Returns.exec {Env : σ → Op → σ → Prop} {Act : σ → (op : Op) → Ans op → σ → Prop} (h : p.Returns Env Act s)
    (hrefl : ∀ s op, Env s op s) : ∃ a s', Exec (fun s op x s' => ∃ s₁, Env s op s₁ ∧ Act s₁ op x s') p s a s' := by
  induction h with
  | done => exact ⟨_, _, .done⟩
  | call hback _ ih =>
    obtain ⟨x, s₁, hact⟩ := hback (hrefl _ _)
    obtain ⟨a, s', hexec⟩ := ih (hrefl _ _) hact
    exact ⟨a, s', .call ⟨_, hrefl _ _, hact⟩ hexec⟩

theorem Exec.bind_inv (h : Exec Step (p >>= f) s b s') : ∃ a s₁, Exec Step p s a s₁ ∧ Exec Step (f a) s₁ b s' := by
  induction p generalizing s with
  | done a => exact ⟨a, s, .done, h⟩
  | hang => cases h
  | call op next ih =>
    cases h with
    | call hstep hrest =>
      obtain ⟨a, s₁, hexec, hrest⟩ := ih _ hrest
      exact ⟨a, s₁, .call hstep hexec, hrest⟩

theorem Exec.bind {s₁ : σ} (h : Exec Step p s a s₁) (h' : Exec Step (f a) s₁ b s') : Exec Step (p >>= f) s b s' := by
  induction h with
  | done => exact h'
  | call hstep _ ih => exact .call hstep (ih h')

theorem Exec.of_step {op : Op} {x : Ans op} (h : Step s op x s') : Exec Step (ask op) s x s' := .call h .done

theorem Exec.ask_inv {op : Op} {x : Ans op} (h : Exec Step (ask op) s x s') : Step s op x s' := by
  cases h with
  | call hstep hrest =>
    cases hrest
    exact hstep

/-- What every call that the program makes keeps, every run keeps. -/
theorem Exec.invariant {I : σ → Prop} (h : Exec Step p s a s') (honly : p.Only P)
    (hcall : ∀ {s op x s'}, P op → I s → Step s op x s' → I s') (hs : I s) : I s' := by
  induction h with
  | done => exact hs
  | call hstep _ ih =>
    cases honly with
    | call hop hnext => exact ih (hnext _) (hcall hop hs hstep)

end Prog

end UIPEthernet.Lib
