import Mathlib.Logic.Basic
import Mathlib.Data.List.Basic

/-!
# Runs of a labelled transition system

A system whose parties call into shared state one call at a time is modelled
by a step relation `step s ev s'`: from state `s` the call recorded as event
`ev` leads to `s'`.  A `Run` is any serial order of such calls; a theorem over
every run holds for every interleaving of every party's calls.

Properties of a run are often about what the events so far have granted (the
terms held, the votes cast), which is a ghost value folded over the events.
`Run.fold` is the induction rule for an invariant that relates the state to
such a ghost, under a side condition that each event must meet
(`Along f P g evs`: before each event, `P` holds of the ghost so far).
`Run.split` cuts a run at any point of its events, for statements of the form
"after this event, until that one"; `Run.history` is the induction rule for
an invariant that speaks of all the events so far.  For a step function,
`exec` runs a concrete trace and `Run.of_exec` turns its result into a run.
-/

namespace Trace

variable {σ ε γ : Type*} {step : σ → ε → σ → Prop}

/-- A run of `step` from `s` through the events `evs` to `s'`. -/
inductive Run (step : σ → ε → σ → Prop) : σ → List ε → σ → Prop
  | nil (s : σ) : Run step s [] s
  | cons {s s₁ s' : σ} {ev : ε} {evs : List ε} :
      step s ev s₁ → Run step s₁ evs s' → Run step s (ev :: evs) s'

/-- `P` holds before each event, of the ghost value folded over the events
before it. -/
def Along (f : γ → ε → γ) (P : γ → ε → Prop) : γ → List ε → Prop
  | _, [] => True
  | g, ev :: evs => P g ev ∧ Along f P (f g ev) evs

instance decidableAlong (f : γ → ε → γ) (P : γ → ε → Prop) [∀ g ev, Decidable (P g ev)] :
    (g : γ) → (evs : List ε) → Decidable (Along f P g evs)
  | _, [] => isTrue trivial
  | g, ev :: evs =>
    @instDecidableAnd _ _ (inferInstanceAs (Decidable (P g ev))) (decidableAlong f P (f g ev) evs)

/-- A side condition that does not look at the ghost holds along every list
of events that meet it. -/
theorem along_of_forall {f : γ → ε → γ} {Q : ε → Prop} :
    ∀ {evs : List ε}, (∀ ev ∈ evs, Q ev) → ∀ g, Along f (fun _ ev => Q ev) g evs
  | [], _, _ => trivial
  | _ :: _, h, _ => ⟨h _ List.mem_cons_self,
      along_of_forall (fun ev hev => h ev (List.mem_cons_of_mem _ hev)) _⟩

theorem Run.append {s s₁ s' : σ} {evs₁ evs₂ : List ε} (h₁ : Run step s evs₁ s₁)
    (h₂ : Run step s₁ evs₂ s') : Run step s (evs₁ ++ evs₂) s' := by
  induction h₁ with
  | nil => exact h₂
  | cons hs _ ih => exact .cons hs (ih h₂)

theorem Run.split {s s' : σ} {evs₁ evs₂ : List ε} (h : Run step s (evs₁ ++ evs₂) s') :
    ∃ s₁, Run step s evs₁ s₁ ∧ Run step s₁ evs₂ s' := by
  induction evs₁ generalizing s with
  | nil => exact ⟨s, .nil s, h⟩
  | cons ev evs ih =>
    cases h with
    | cons hs hr =>
      obtain ⟨s₁, h₁, h₂⟩ := ih hr
      exact ⟨s₁, .cons hs h₁, h₂⟩

/-- The first event of a run, with the state after it. -/
theorem Run.uncons {s s' : σ} {ev : ε} {evs : List ε} (h : Run step s (ev :: evs) s') :
    ∃ s₁, step s ev s₁ ∧ Run step s₁ evs s' := by
  cases h with
  | cons hs hr => exact ⟨_, hs, hr⟩

/-- An invariant relating the state to a ghost folded over the events: kept
by every step whose event meets `P`, it holds after every run along which
`P` holds. -/
theorem Run.fold {I : γ → σ → Prop} (f : γ → ε → γ) (P : γ → ε → Prop)
    (hstep : ∀ g s ev s', I g s → P g ev → step s ev s' → I (f g ev) s')
    {s s' : σ} {evs : List ε} (h : Run step s evs s') :
    ∀ g, Along f P g evs → I g s → I (evs.foldl f g) s' := by
  induction h with
  | nil => exact fun _ _ hI => hI
  | cons hs _ ih =>
    intro g hP hI
    exact ih _ hP.2 (hstep _ _ _ _ hI hP.1 hs)

/-- A state invariant kept by every step whose event meets `Q`. -/
theorem Run.preserve {I : σ → Prop} (Q : ε → Prop)
    (hstep : ∀ s ev s', I s → Q ev → step s ev s' → I s')
    {s s' : σ} {evs : List ε} (h : Run step s evs s') (hQ : ∀ ev ∈ evs, Q ev) (hI : I s) :
    I s' := by
  induction h with
  | nil => exact hI
  | cons hs _ ih =>
    exact ih (fun ev hev => hQ ev (List.mem_cons_of_mem _ hev))
      (hstep _ _ _ hI (hQ _ List.mem_cons_self) hs)

/-- An invariant of the state and of the events so far, kept by every step,
holds after every run of the events the run adds. -/
theorem Run.history {I : List ε → σ → Prop}
    (hstep : ∀ hist s ev s', I hist s → step s ev s' → I (hist ++ [ev]) s')
    {s s' : σ} {evs : List ε} (h : Run step s evs s') : ∀ hist, I hist s → I (hist ++ evs) s' := by
  induction h with
  | nil =>
    intro hist hI
    rwa [List.append_nil]
  | @cons s s₁ s' ev evs hs _ ih =>
    intro hist hI
    have h₁ := ih _ (hstep _ _ _ _ hI hs)
    rwa [List.append_assoc, List.singleton_append] at h₁

/-- Runs a partial step function over the events while each is enabled. -/
def exec (next : σ → ε → Option σ) : σ → List ε → Option σ
  | s, [] => some s
  | s, ev :: evs => (next s ev).bind fun s₁ => exec next s₁ evs

/-- A run that `exec` computes: the way a concrete trace is checked. -/
theorem Run.of_exec {next : σ → ε → Option σ} {s s' : σ} {evs : List ε}
    (h : exec next s evs = some s') : Run (fun s ev s' => next s ev = some s') s evs s' := by
  induction evs generalizing s with
  | nil =>
    cases h
    exact .nil _
  | cons ev evs ih =>
    rw [exec, Option.bind_eq_some_iff] at h
    obtain ⟨s₁, h₁, h₂⟩ := h
    exact .cons h₁ (ih h₂)

end Trace
