import Mathlib.Logic.Relation
import Mathlib.Logic.Function.Basic

/-!
# Programs that issue commands

`Prog C R α` is a program over the command interface `(C, R)`: it either
returns an `α`, or issues a command `c : C` and continues with its answer, of
type `R c` (the free monad of the interface).  What a command does is a
relation `Sem C R σ` between a state, an answer and the next state.  It is
nondeterministic, so a command that may fail (a storage call, a lock that may
time out) is one relation with a success and a failure branch.

* `Runs sem p s a s'`: `p`, started in `s`, can return `a` in `s'`.
* `wp sem p Q s`: every run of `p` from `s` ends in `Q` (`wp_iff_runs`);
  `wp_bind`, `wp_call` and `wp_mono` are the rules that proofs use.
* `Reaches sem p s p' s'`: `p` can execute some of its commands and continue
  as `p'`; `runs_iff_reaches` ties it to `Runs`.
* `exec`: the run in which each command gets one chosen answer (`runs_exec`);
  when the chosen answer is valid only under a side condition, `ExecOk`
  checks it along the run (`runs_exec_of_execOk`); two choosers that agree
  on the commands of the run give the same run (`exec_congr`), and a state
  property every checked command keeps holds at its end (`exec_invariant`).
* `PoolStep`: several programs on one state, interleaved one command at a
  time; `poolSteps_of_reaches` lifts one thread's execution into a pool.
-/

/-- A program over the commands `C`, the answer to `c` having type `R c`. -/
inductive Prog (C : Type) (R : C → Type) (α : Type) : Type where
  | ret (a : α)
  | call (c : C) (k : R c → Prog C R α)

namespace Prog

variable {C : Type} {R : C → Type} {α β γ σ ι : Type}

/-- Sequencing: run `p`, then `f` on its result. -/
def bind : Prog C R α → (α → Prog C R β) → Prog C R β
  | ret a, f => f a
  | call c k, f => call c fun r => bind (k r) f

instance : Monad (Prog C R) where
  pure := ret
  bind := bind

/-- Issue one command and return its answer. -/
def cmd (c : C) : Prog C R (R c) := call c ret

@[simp] theorem pure_eq (a : α) : (pure a : Prog C R α) = ret a := rfl

@[simp] theorem ret_bind (a : α) (f : α → Prog C R β) : (ret a >>= f) = f a := rfl

@[simp] theorem call_bind (c : C) (k : R c → Prog C R α) (f : α → Prog C R β) :
    (call c k >>= f) = call c fun r => k r >>= f := rfl

@[simp] theorem cmd_bind (c : C) (f : R c → Prog C R β) : (cmd c >>= f) = call c f := rfl

theorem bind_assoc (p : Prog C R α) (f : α → Prog C R β) (g : β → Prog C R γ) :
    (p >>= f) >>= g = p >>= fun a => f a >>= g := by
  induction p with
  | ret a => rfl
  | call c k ih =>
    show call c (fun r => (k r >>= f) >>= g) = call c fun r => k r >>= fun a => f a >>= g
    exact congrArg (call c) (funext ih)

/-! ## Meaning of commands -/

/-- `sem c s r s'`: the command `c`, issued in state `s`, may answer `r` and
leave the state `s'`. -/
abbrev Sem (C : Type) (R : C → Type) (σ : Type) := (c : C) → σ → R c → σ → Prop

/-- Big-step runs: `Runs sem p s a s'` when `p` started in `s` can return `a`
in `s'`. -/
inductive Runs (sem : Sem C R σ) : Prog C R α → σ → α → σ → Prop
  | ret (a : α) (s : σ) : Runs sem (ret a) s a s
  | call {c : C} {k : R c → Prog C R α} {s s' s'' : σ} {r : R c} {a : α} :
      sem c s r s' → Runs sem (k r) s' a s'' → Runs sem (call c k) s a s''

/-- Weakest precondition: every run of `p` from `s` ends in `Q`. -/
def wp (sem : Sem C R σ) : Prog C R α → (α → σ → Prop) → σ → Prop
  | ret a, Q, s => Q a s
  | call c k, Q, s => ∀ r s', sem c s r s' → wp sem (k r) Q s'

variable {sem : Sem C R σ}

@[simp] theorem wp_ret (a : α) (Q : α → σ → Prop) (s : σ) : wp sem (ret a) Q s = Q a s := rfl

theorem wp_call (c : C) (k : R c → Prog C R α) (Q : α → σ → Prop) (s : σ) :
    wp sem (call c k) Q s = ∀ r s', sem c s r s' → wp sem (k r) Q s' := rfl

theorem wp_bind (p : Prog C R α) (f : α → Prog C R β) (Q : β → σ → Prop) (s : σ) :
    wp sem (p >>= f) Q s = wp sem p (fun a => wp sem (f a) Q) s := by
  induction p generalizing s with
  | ret a => rfl
  | call c k ih =>
    show (∀ r s', sem c s r s' → wp sem (k r >>= f) Q s') = _
    simp only [ih]
    rfl

theorem wp_mono {p : Prog C R α} {Q Q' : α → σ → Prop} (h : ∀ a s, Q a s → Q' a s) :
    ∀ {s}, wp sem p Q s → wp sem p Q' s := by
  induction p with
  | ret a => exact h a _
  | call c k ih => exact fun hp r s' hs => ih r (hp r s' hs)

theorem wp_iff_runs (p : Prog C R α) (Q : α → σ → Prop) (s : σ) :
    wp sem p Q s ↔ ∀ a s', Runs sem p s a s' → Q a s' := by
  induction p generalizing s with
  | ret a =>
    constructor
    · rintro h a' s' ⟨⟩
      exact h
    · exact fun h => h a s (.ret a s)
  | call c k ih =>
    constructor
    · rintro h a s'' (_ | ⟨hs, hk⟩)
      exact (ih _ _).mp (h _ _ hs) a s'' hk
    · intro h r s' hs
      exact (ih r s').mpr fun a s'' hk => h a s'' (.call hs hk)

theorem runs_bind {p : Prog C R α} {f : α → Prog C R β} {s s' s'' : σ} {a : α} {b : β}
    (hp : Runs sem p s a s') (hf : Runs sem (f a) s' b s'') : Runs sem (p >>= f) s b s'' := by
  induction hp with
  | ret => exact hf
  | call hs _ ih => exact .call hs (ih hf)

/-! ## Partial execution -/

/-- `Reaches sem p s p' s'`: `p` can execute commands from `s` and continue
as `p'` in `s'`. -/
inductive Reaches (sem : Sem C R σ) : Prog C R α → σ → Prog C R α → σ → Prop
  | refl (p : Prog C R α) (s : σ) : Reaches sem p s p s
  | call {c : C} {k : R c → Prog C R α} {s s' s'' : σ} {r : R c} {p' : Prog C R α} :
      sem c s r s' → Reaches sem (k r) s' p' s'' → Reaches sem (call c k) s p' s''

theorem Reaches.trans {p p' p'' : Prog C R α} {s s' s'' : σ}
    (h : Reaches sem p s p' s') (h' : Reaches sem p' s' p'' s'') : Reaches sem p s p'' s'' := by
  induction h with
  | refl => exact h'
  | call hs _ ih => exact .call hs (ih h')

theorem Reaches.bind {p p' : Prog C R α} {s s' : σ} (h : Reaches sem p s p' s')
    (f : α → Prog C R β) : Reaches sem (p >>= f) s (p' >>= f) s' := by
  induction h with
  | refl => exact .refl _ _
  | call hs _ ih => exact .call hs ih

theorem runs_iff_reaches {p : Prog C R α} {s s' : σ} {a : α} :
    Runs sem p s a s' ↔ Reaches sem p s (ret a) s' := by
  constructor
  · intro h
    induction h with
    | ret a s => exact .refl _ _
    | call hs _ ih => exact .call hs ih
  · intro h
    generalize hq : (ret a : Prog C R α) = q at h
    induction h with
    | refl p s =>
      subst hq
      exact .ret a s
    | call hs _ ih => exact .call hs (ih hq)

/-! ## Running with chosen answers -/

/-- Run `p`, answering each command `c` in state `s` by `choose c s`. -/
def exec (choose : (c : C) → σ → R c × σ) : Prog C R α → σ → α × σ
  | ret a, s => (a, s)
  | call c k, s => exec choose (k (choose c s).1) (choose c s).2

theorem runs_exec {choose : (c : C) → σ → R c × σ}
    (hchoose : ∀ c s, sem c s (choose c s).1 (choose c s).2) (p : Prog C R α) (s : σ) :
    Runs sem p s (exec choose p s).1 (exec choose p s).2 := by
  induction p generalizing s with
  | ret a => exact .ret a s
  | call c k ih => exact .call (hchoose c s) (ih _ _)

/-- Every command of the run `exec choose p s` is issued where `ok` holds:
a chooser that is a valid answer only under a side condition (a lock that
must be free) still gives a run of `p` along a path where it holds. -/
def ExecOk (ok : C → σ → Prop) (choose : (c : C) → σ → R c × σ) : Prog C R α → σ → Prop
  | ret _, _ => True
  | call c k, s => ok c s ∧ ExecOk ok choose (k (choose c s).1) (choose c s).2

/-- `ExecOk` is checked by running `p`. -/
def decExecOk (ok : C → σ → Prop) [∀ c s, Decidable (ok c s)] (choose : (c : C) → σ → R c × σ) :
    (p : Prog C R α) → (s : σ) → Decidable (ExecOk ok choose p s)
  | ret _, _ => isTrue trivial
  | call c k, s =>
    haveI := decExecOk ok choose (k (choose c s).1) (choose c s).2
    inferInstanceAs (Decidable (ok c s ∧ ExecOk ok choose (k (choose c s).1) (choose c s).2))

instance {ok : C → σ → Prop} [∀ c s, Decidable (ok c s)] {choose : (c : C) → σ → R c × σ}
    {p : Prog C R α} {s : σ} : Decidable (ExecOk ok choose p s) :=
  decExecOk ok choose p s

theorem runs_exec_of_execOk {ok : C → σ → Prop} {choose : (c : C) → σ → R c × σ}
    (hchoose : ∀ c s, ok c s → sem c s (choose c s).1 (choose c s).2) {p : Prog C R α} {s : σ}
    (h : ExecOk ok choose p s) : Runs sem p s (exec choose p s).1 (exec choose p s).2 := by
  induction p generalizing s with
  | ret a => exact .ret a s
  | call c k ih => exact .call (hchoose c s h.1) (ih _ h.2)

/-- Two choosers that agree wherever `ok` holds give the same run along a run
of the first where `ok` holds. -/
theorem exec_congr {ok : C → σ → Prop} {choose₁ choose₂ : (c : C) → σ → R c × σ}
    (hagree : ∀ c s, ok c s → choose₁ c s = choose₂ c s) {p : Prog C R α} {s : σ}
    (h : ExecOk ok choose₁ p s) : exec choose₁ p s = exec choose₂ p s := by
  induction p generalizing s with
  | ret a => rfl
  | call c k ih =>
    show exec choose₁ (k (choose₁ c s).1) (choose₁ c s).2 = exec choose₂ (k (choose₂ c s).1) (choose₂ c s).2
    rw [← hagree c s h.1]
    exact ih _ h.2

/-- Along the same run, the second chooser meets every condition `ok`
implies. -/
theorem execOk_congr {ok ok' : C → σ → Prop} {choose₁ choose₂ : (c : C) → σ → R c × σ}
    (hagree : ∀ c s, ok c s → choose₁ c s = choose₂ c s) (himp : ∀ c s, ok c s → ok' c s)
    {p : Prog C R α} {s : σ} (h : ExecOk ok choose₁ p s) : ExecOk ok' choose₂ p s := by
  induction p generalizing s with
  | ret a => trivial
  | call c k ih =>
    refine ⟨himp c s h.1, ?_⟩
    rw [← hagree c s h.1]
    exact ih _ h.2

/-- A property of the state that every command the run checks keeps holds
at its end. -/
theorem exec_invariant {ok : C → σ → Prop} {choose : (c : C) → σ → R c × σ} {P : σ → Prop}
    (hstep : ∀ c s, ok c s → P s → P (choose c s).2) {p : Prog C R α} {s : σ}
    (h : ExecOk ok choose p s) (hs : P s) : P (exec choose p s).2 := by
  induction p generalizing s with
  | ret a => exact hs
  | call c k ih => exact ih _ h.2 (hstep c s h.1 hs)

/-! ## Interleaving several programs -/

/-- One command of one thread of a pool: thread `i` runs under `sem i`. -/
inductive PoolStep [DecidableEq ι] (sem : ι → Sem C R σ) :
    (ι → Prog C R α) × σ → (ι → Prog C R α) × σ → Prop
  | step (ps : ι → Prog C R α) (i : ι) {c : C} {k : R c → Prog C R α} {s s' : σ} {r : R c} :
      ps i = call c k → sem i c s r s' → PoolStep sem (ps, s) (Function.update ps i (k r), s')

/-- Any number of pool steps. -/
abbrev PoolSteps [DecidableEq ι] (sem : ι → Sem C R σ) :=
  Relation.ReflTransGen (PoolStep (α := α) sem)

/-- What one thread can do on its own, it can do inside a pool while the
other threads wait. -/
theorem poolSteps_of_reaches [DecidableEq ι] {semI : ι → Sem C R σ} (i : ι)
    {p p' : Prog C R α} {s s' : σ} (h : Reaches (semI i) p s p' s') (ps : ι → Prog C R α)
    (hi : ps i = p) :
    PoolSteps semI (ps, s) (Function.update ps i p', s') := by
  induction h generalizing ps with
  | refl p s =>
    rw [← hi, Function.update_eq_self]
  | @call c k s₀ s₁ s₂ r p' hs _ ih =>
    have hstep : PoolStep semI (ps, s₀) (Function.update ps i (k r), s₁) := .step ps i hi hs
    have hrest := ih (Function.update ps i (k r)) (Function.update_self i (k r) ps)
    rw [Function.update_idem] at hrest
    exact Relation.ReflTransGen.head hstep hrest

end Prog
