import Mathlib.Data.List.Infix

/-!
# Wildcard patterns

Patterns over an alphabet with two wildcard symbols: `star` stands for any
run of symbols and `one` for any single symbol (`*` and `?` of shell globs,
of AWS resource ARNs and of `StringLike` conditions).  A pattern without
wildcards is `Literal`.

    prefix_of_accepts       a literal head of a pattern is a head of every text it accepts
    eq_of_accepts_literal   a literal pattern accepts only itself
    accepts_append_star     `s ++ [star]`, `s` literal, accepts exactly the extensions of `s`
-/

namespace Glob

variable {α : Type*} (star one : α)

/-- No wildcard in the pattern. -/
def Literal (s : List α) : Prop := star ∉ s ∧ one ∉ s

theorem Literal.cons {c : α} {s : List α} (h : Literal star one (c :: s)) :
    c ≠ star ∧ c ≠ one ∧ Literal star one s := by
  simp only [Literal, List.mem_cons, not_or] at h
  exact ⟨fun e => h.1.1 e.symm, fun e => h.2.1 e.symm, h.1.2, h.2.2⟩

theorem Literal.append {s t : List α} (hs : Literal star one s) (ht : Literal star one t) :
    Literal star one (s ++ t) := by
  simp only [Literal, List.mem_append, not_or] at *
  exact ⟨⟨hs.1, ht.1⟩, hs.2, ht.2⟩

variable [DecidableEq α]

/-- `accepts star one pattern text`: the pattern matches the whole text. -/
def accepts : List α → List α → Bool
  | [], t => t.isEmpty
  | c :: ps, t =>
    if c = star then t.tails.any (accepts ps)
    else
      match t with
      | [] => false
      | d :: ts => (c = one || c = d) && accepts ps ts

theorem accepts_nil (t : List α) : accepts star one [] t = t.isEmpty := rfl

theorem accepts_cons (c : α) (ps t : List α) :
    accepts star one (c :: ps) t =
      if c = star then t.tails.any (accepts star one ps)
      else
        match t with
        | [] => false
        | d :: ts => (c = one || c = d) && accepts star one ps ts := rfl

variable {star one}

/-- A literal symbol of the pattern must be the text's next symbol. -/
theorem accepts_cons_literal {c : α} {ps t : List α} (hs : c ≠ star) (ho : c ≠ one) :
    accepts star one (c :: ps) t = true ↔ ∃ ts, t = c :: ts ∧ accepts star one ps ts = true := by
  rw [accepts_cons, if_neg hs]
  cases t with
  | nil => simp
  | cons d ts =>
    simp only [Bool.and_eq_true, Bool.or_eq_true, decide_eq_true_eq, List.cons.injEq]
    constructor
    · rintro ⟨ho' | rfl, h⟩
      · exact absurd ho' ho
      · exact ⟨ts, ⟨rfl, rfl⟩, h⟩
    · rintro ⟨ts', ⟨rfl, rfl⟩, h⟩
      exact ⟨.inr rfl, h⟩

theorem prefix_of_accepts {s r t : List α} (hs : Literal star one s)
    (h : accepts star one (s ++ r) t = true) : s <+: t := by
  induction s generalizing t with
  | nil => exact List.nil_prefix
  | cons c s ih =>
    obtain ⟨hstar, hone, hs'⟩ := hs.cons
    obtain ⟨ts, rfl, hts⟩ := (accepts_cons_literal hstar hone).mp h
    exact List.prefix_cons_inj c |>.mpr (ih hs' hts)

theorem eq_of_accepts_literal {s t : List α} (hs : Literal star one s)
    (h : accepts star one s t = true) : s = t := by
  induction s generalizing t with
  | nil =>
    rw [accepts_nil, List.isEmpty_iff] at h
    exact h.symm
  | cons c s ih =>
    obtain ⟨hstar, hone, hs'⟩ := hs.cons
    obtain ⟨ts, rfl, hts⟩ := (accepts_cons_literal hstar hone).mp h
    rw [ih hs' hts]

theorem accepts_literal_self {s : List α} (hs : Literal star one s) : accepts star one s s = true := by
  induction s with
  | nil => rfl
  | cons c s ih =>
    obtain ⟨hstar, hone, hs'⟩ := hs.cons
    exact (accepts_cons_literal hstar hone).mpr ⟨s, rfl, ih hs'⟩

/-- A lone `star` accepts every text. -/
theorem accepts_star (t : List α) : accepts star one [star] t = true := by
  rw [accepts_cons, if_pos rfl, List.any_eq_true]
  exact ⟨[], (List.mem_tails [] t).mpr (List.nil_suffix), rfl⟩

/-- A pattern ending in `star` accepts every text that starts with the rest of
the pattern read as text, wildcards included. -/
theorem accepts_append_star_self (s u : List α) : accepts star one (s ++ [star]) (s ++ u) = true := by
  induction s with
  | nil => exact accepts_star u
  | cons c s ih =>
    rw [List.cons_append, List.cons_append, accepts_cons]
    split
    · -- the `star` matches the empty run before the rest
      rw [List.any_eq_true]
      exact ⟨s ++ u, (List.mem_tails _ _).mpr (List.suffix_cons c _), ih⟩
    · simp [ih]

theorem accepts_append_star {s t : List α} (hs : Literal star one s) :
    accepts star one (s ++ [star]) t = true ↔ s <+: t := by
  constructor
  · exact prefix_of_accepts hs
  · induction s generalizing t with
    | nil => exact fun _ => accepts_star t
    | cons c s ih =>
      obtain ⟨hstar, hone, hs'⟩ := hs.cons
      rintro ⟨u, rfl⟩
      exact (accepts_cons_literal hstar hone).mpr ⟨s ++ u, rfl, ih hs' ⟨u, rfl⟩⟩

end Glob
