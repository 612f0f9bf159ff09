import DeltaGlider.Lib.Glob

/-!
# AWS IAM identity-policy evaluation, and the engines that implement it

The evaluation AWS documents for identity policies (`decision`): a statement
applies to a request when one of its action patterns and one of its resource
patterns match (with `*` and `?` wildcards) and each of its conditions holds
in the request context; any applicable `Deny` decides `Deny`, otherwise any
applicable `Allow` decides `Allow`, otherwise the request is not applicable
(an implicit deny).  `StringEquals` and `StringLike` are evaluated here (a key
absent from the context fails them); the other operators are judged by an
`OtherOperators` function, left open.

A policy engine (`Engine`) is the library a program calls for this: it parses
ARNs, reads JSON condition blocks and evaluates requests, and may fail at
each.  Its code is not part of the program.  `Engine.Aws` is what a program
relies on of it: it decides as `decision` does, it parses the ARN of an S3
resource, and it reads a block of one string condition as that condition.
`Engine.reference` is an engine with these laws (`Engine.reference_aws`).

    decision_eq_deny, decision_eq_allow, decision_eq_notApplicable
    decision_context_free     without conditions, the context does not matter
    globMatch_append_star_of_prefix   `s*` matches the strings `s` begins
-/

namespace IamPolicy

/-! ## Strings and ARNs -/

/-- AWS wildcard matching of a whole string: `*` any run, `?` any one char. -/
def globMatch (pattern text : String) : Bool := Glob.accepts '*' '?' pattern.toList text.toList

theorem globMatch_append_star_of_prefix {s t : String} (h : s.toList <+: t.toList) :
    globMatch (s ++ "*") t = true := by
  obtain ⟨u, hu⟩ := h
  unfold globMatch
  rw [String.toList_append, ← hu]
  exact Glob.accepts_append_star_self s.toList u

/-- The ARN format: `arn:partition:service:region:account:resource`, with a
partition, a service and a resource (which may hold further colons). -/
def arnValid (s : String) : Bool :=
  match s.toList.splitOn ':' with
  | tag :: partition :: service :: _ :: _ :: resource :: rest =>
    tag == "arn".toList && !partition.isEmpty && !service.isEmpty && !(resource.isEmpty && rest.isEmpty)
  | _ => false

/-- An S3 ARN is well formed exactly when its resource part is not empty. -/
theorem arnValid_s3 (s : String) : arnValid ("arn:aws:s3:::" ++ s) = !s.isEmpty := by
  have htext : ("arn:aws:s3:::" ++ s).toList =
      ['a', 'r', 'n'] ++ ':' :: (['a', 'w', 's'] ++ ':' :: (['s', '3'] ++ ':' ::
        ([] ++ ':' :: ([] ++ ':' :: s.toList)))) := by
    simp [String.toList_append]
  obtain ⟨r, rest, hsplit⟩ : ∃ r rest, s.toList.splitOn ':' = r :: rest :=
    List.exists_cons_of_ne_nil (List.splitOn_ne_nil ':' s.toList)
  -- the resource part and what follows are both empty only for the empty string
  have hempty : (r.isEmpty && rest.isEmpty) = s.isEmpty := by
    have hjoin : [':'].intercalate (s.toList.splitOn ':') = s.toList := List.intercalate_splitOn ':'
    rw [hsplit] at hjoin
    apply Bool.eq_iff_iff.mpr
    rw [String.isEmpty_iff, ← String.toList_eq_nil_iff, ← hjoin, Bool.and_eq_true, List.isEmpty_iff,
      List.isEmpty_iff]
    cases rest with
    | nil => simp
    | cons r' rest' => simp
  unfold arnValid
  rw [htext, List.splitOn_append_cons_self_of_not_mem (by decide),
    List.splitOn_append_cons_self_of_not_mem (by decide), List.splitOn_append_cons_self_of_not_mem (by decide),
    List.splitOn_append_cons_self_of_not_mem (by decide), List.splitOn_append_cons_self_of_not_mem (by decide),
    hsplit]
  dsimp only
  rw [hempty]
  rfl

/-! ## Condition blocks -/

/-- A JSON document (`serde_json::Value`); numbers are kept as integers. -/
inductive Json where
  | null
  | bool (b : Bool)
  | num (n : Int)
  | str (s : String)
  | arr (items : List Json)
  | obj (fields : List (String × Json))
  deriving Repr

/-- A condition operator: the two evaluated here, and the others by name. -/
inductive Operator where
  | stringEquals
  | stringLike
  | other (name : String)
  deriving DecidableEq, Repr

/-- One condition: the operator, the context key and the values to test. -/
structure Condition where
  operator : Operator
  key : String
  values : List String
  deriving Repr

/-- The string operators by their names in a policy. -/
def stringOperator? (name : String) : Option Operator :=
  if name = "StringEquals" then some .stringEquals
  else if name = "StringLike" then some .stringLike
  else none

def stringValue? : Json → Option String
  | .str s => some s
  | _ => none

/-- The values of a key written as one string or a non-empty list of strings. -/
def stringValues? : Json → Option (List String)
  | .str s => some [s]
  | .arr (item :: items) => (item :: items).mapM stringValue?
  | _ => none

/-- A block of one string condition, `{"StringLike": {"s3:prefix": "a*"}}`:
one string operator with one key. -/
def stringCondition? : Json → Option Condition
  | .obj [(name, .obj [(key, values)])] => do
    let operator ← stringOperator? name
    let values ← stringValues? values
    pure ⟨operator, key, values⟩
  | _ => none

theorem mapM_stringValue?_str (values : List String) :
    (values.map Json.str).mapM stringValue? = some values := by
  induction values with
  | nil => rfl
  | cons v vs ih =>
    rw [List.map_cons, List.mapM_cons, ih]
    rfl

/-- The block of one `StringLike` condition on one key, over a list of patterns. -/
theorem stringCondition?_stringLike (key : String) {patterns : List String} (hne : patterns ≠ []) :
    stringCondition? (.obj [("StringLike", .obj [(key, .arr (patterns.map .str))])]) =
      some ⟨.stringLike, key, patterns⟩ := by
  obtain ⟨p, ps, rfl⟩ := List.exists_cons_of_ne_nil hne
  have hvalues : stringValues? (.arr ((p :: ps).map .str)) = some (p :: ps) :=
    mapM_stringValue?_str (p :: ps)
  simp only [stringCondition?, hvalues]
  rfl

/-! ## Requests and decisions -/

/-- The request context: the value of each key present. -/
abbrev Context := String → Option String

def Context.empty : Context := fun _ => none

/-- `Context::with_string`. -/
def Context.withString (ctx : Context) (key value : String) : Context :=
  fun k => if k = key then some value else ctx k

/-- How the operators other than `StringEquals` and `StringLike` judge a key's
value (or its absence) against a condition's values. -/
abbrev OtherOperators := String → Option String → List String → Bool

def Condition.holds (others : OtherOperators) (ctx : Context) (c : Condition) : Bool :=
  match c.operator, ctx c.key with
  | .stringEquals, some v => c.values.contains v
  | .stringLike, some v => c.values.any fun p => globMatch p v
  | .stringEquals, none => false
  | .stringLike, none => false
  | .other name, v => others name v c.values

@[simp] theorem Context.withString_self (ctx : Context) (key value : String) :
    ctx.withString key value key = some value := if_pos rfl

/-- A `StringLike` condition holds when a pattern matches the key's value. -/
theorem Condition.holds_stringLike {others : OtherOperators} {ctx : Context} {key v : String}
    {patterns : List String} (h : ctx key = some v) :
    Condition.holds others ctx ⟨.stringLike, key, patterns⟩ = patterns.any fun p => globMatch p v := by
  unfold Condition.holds
  dsimp only
  rw [h]

inductive Effect where
  | allow
  | deny
  deriving DecidableEq, Repr

structure Statement where
  effect : Effect
  actions : List String
  resources : List String
  conditions : List Condition
  deriving Repr

/-- An identity policy. -/
structure Policy where
  statements : List Statement
  deriving Repr

structure Request where
  action : String
  resource : String
  context : Context

inductive Decision where
  | allow
  | deny
  | notApplicable
  deriving DecidableEq, Repr

section Evaluation

variable (others : OtherOperators)

def Statement.applies (req : Request) (st : Statement) : Bool :=
  st.actions.any (fun a => globMatch a req.action) &&
    st.resources.any (fun r => globMatch r req.resource) &&
    st.conditions.all (Condition.holds others req.context)

/-- Every statement of the policies. -/
def statements (policies : List Policy) : List Statement := policies.flatMap Policy.statements

/-- The decision AWS documents: an applicable `Deny` wins, then an applicable
`Allow`; with neither the request is not applicable. -/
def decision (policies : List Policy) (req : Request) : Decision :=
  let applicable := (statements policies).filter (Statement.applies others req)
  if applicable.any (fun st => st.effect == .deny) then .deny
  else if applicable.any (fun st => st.effect == .allow) then .allow
  else .notApplicable

variable {others} {policies : List Policy} {req : Request}

theorem decision_eq_deny :
    decision others policies req = .deny ↔
      ∃ st ∈ statements policies, st.applies others req = true ∧ st.effect = .deny := by
  delta decision
  dsimp only
  split
  · next h =>
    simp only [List.any_eq_true, List.mem_filter, beq_iff_eq] at h
    obtain ⟨st, ⟨hst, happ⟩, heff⟩ := h
    exact ⟨fun _ => ⟨st, hst, happ, heff⟩, fun _ => rfl⟩
  · next h =>
    simp only [List.any_eq_true, List.mem_filter, beq_iff_eq, not_exists, not_and] at h
    constructor
    · intro hd
      split at hd <;> cases hd
    · rintro ⟨st, hst, happ, heff⟩
      exact absurd heff (h st ⟨hst, happ⟩)

theorem decision_eq_allow :
    decision others policies req = .allow ↔
      (∃ st ∈ statements policies, st.applies others req = true ∧ st.effect = .allow) ∧
        ∀ st ∈ statements policies, st.applies others req = true → st.effect ≠ .deny := by
  delta decision
  dsimp only
  split
  · next h =>
    simp only [List.any_eq_true, List.mem_filter, beq_iff_eq] at h
    obtain ⟨st, ⟨hst, happ⟩, heff⟩ := h
    exact ⟨fun hd => (by cases hd), fun ⟨_, hno⟩ => absurd heff (hno st hst happ)⟩
  · next h =>
    simp only [List.any_eq_true, List.mem_filter, beq_iff_eq, not_exists, not_and] at h
    have hno : ∀ st ∈ statements policies, st.applies others req = true → st.effect ≠ .deny :=
      fun st hst happ => h st ⟨hst, happ⟩
    split
    · next ha =>
      simp only [List.any_eq_true, List.mem_filter, beq_iff_eq] at ha
      obtain ⟨st, ⟨hst, happ⟩, heff⟩ := ha
      exact ⟨fun _ => ⟨⟨st, hst, happ, heff⟩, hno⟩, fun _ => rfl⟩
    · next ha =>
      simp only [List.any_eq_true, List.mem_filter, beq_iff_eq, not_exists, not_and] at ha
      constructor
      · intro hd
        cases hd
      · rintro ⟨⟨st, hst, happ, heff⟩, -⟩
        exact absurd heff (ha st ⟨hst, happ⟩)

theorem decision_eq_notApplicable :
    decision others policies req = .notApplicable ↔
      ∀ st ∈ statements policies, st.applies others req = false := by
  have heffect : ∀ st : Statement, st.effect = .allow ∨ st.effect = .deny := fun st => by
    cases st.effect <;> simp
  constructor
  · intro h st hst
    by_contra happ
    rw [Bool.not_eq_false] at happ
    rcases heffect st with ha | hd
    · -- an applicable `Allow` makes the decision `Allow` or `Deny`
      by_cases hdeny : ∃ st ∈ statements policies, st.applies others req = true ∧ st.effect = .deny
      · rw [decision_eq_deny.mpr hdeny] at h
        cases h
      · simp only [not_exists, not_and] at hdeny
        rw [decision_eq_allow.mpr ⟨⟨st, hst, happ, ha⟩, hdeny⟩] at h
        cases h
    · rw [decision_eq_deny.mpr ⟨st, hst, happ, hd⟩] at h
      cases h
  · intro h
    delta decision
    dsimp only
    have hnil : (statements policies).filter (Statement.applies others req) = [] :=
      List.filter_eq_nil_iff.mpr fun st hst => by rw [h st hst]; decide
    rw [hnil]
    rfl

/-- A statement without conditions applies whatever the request context. -/
theorem Statement.applies_context_free {st : Statement} (hst : st.conditions = [])
    (action resource : String) (ctx ctx' : Context) :
    st.applies others ⟨action, resource, ctx⟩ = st.applies others ⟨action, resource, ctx'⟩ := by
  simp only [Statement.applies, hst, List.all_nil]

/-- Policies without conditions decide the same in every request context. -/
theorem decision_context_free (h : ∀ st ∈ statements policies, st.conditions = [])
    (action resource : String) (ctx ctx' : Context) :
    decision others policies ⟨action, resource, ctx⟩ = decision others policies ⟨action, resource, ctx'⟩ := by
  delta decision
  dsimp only
  have hfilter : (statements policies).filter (Statement.applies others ⟨action, resource, ctx⟩) =
      (statements policies).filter (Statement.applies others ⟨action, resource, ctx'⟩) :=
    List.filter_congr fun st hst => Statement.applies_context_free (h st hst) action resource ctx ctx'
  rw [hfilter]

end Evaluation

/-! ## Policy engines -/

/-- The operations of a policy library that a program calls: `Arn::parse`
(whether it succeeds), the reading of a JSON condition block into
conditions, and the evaluation of a request against policies, each of which
may fail. -/
structure Engine where
  arnValid : String → Bool
  parseConditionBlock : Json → Except String (List Condition)
  evaluate : List Policy → Request → Except String Decision

/-- An engine that implements AWS policy semantics, with `others` judging the
operators other than `StringEquals` and `StringLike`. -/
structure Engine.Aws (E : Engine) (others : OtherOperators) : Prop where
  /-- Evaluation succeeds with the decision AWS documents. -/
  evaluate_eq : ∀ policies req, E.evaluate policies req = .ok (decision others policies req)
  /-- The ARN of an S3 resource parses when it names a resource. -/
  arnValid_s3 : ∀ s, E.arnValid ("arn:aws:s3:::" ++ s) = !s.isEmpty
  /-- A block of one string condition reads as that condition. -/
  parseConditionBlock_string : ∀ j c, stringCondition? j = some c → E.parseConditionBlock j = .ok [c]

/-- An engine that meets `Engine.Aws`: the documented decision, the ARN
format, and blocks of one string condition only. -/
def Engine.reference (others : OtherOperators) : Engine where
  arnValid := IamPolicy.arnValid
  parseConditionBlock j :=
    match stringCondition? j with
    | some c => .ok [c]
    | none => .error "unsupported condition block"
  evaluate policies req := .ok (decision others policies req)

theorem Engine.reference_aws (others : OtherOperators) : (Engine.reference others).Aws others where
  evaluate_eq _ _ := rfl
  arnValid_s3 := IamPolicy.arnValid_s3
  parseConditionBlock_string j c h := by
    show (match stringCondition? j with
      | some c => Except.ok [c]
      | none => .error "unsupported condition block") = _
    rw [h]

section Laws

variable {E : Engine} {others : OtherOperators}

/-- Two engines with the laws read a block of one string condition alike. -/
theorem Engine.Aws.parseConditionBlock_eq {E' : Engine} {others' : OtherOperators} (hE : E.Aws others)
    (hE' : E'.Aws others') {j : Json} (hj : (stringCondition? j).isSome = true) :
    E.parseConditionBlock j = E'.parseConditionBlock j := by
  obtain ⟨c, hc⟩ := Option.isSome_iff_exists.mp hj
  rw [hE.parseConditionBlock_string j c hc, hE'.parseConditionBlock_string j c hc]

/-- Two engines with the laws parse the ARN of an S3 resource alike. -/
theorem Engine.Aws.arnValid_eq {E' : Engine} {others' : OtherOperators} (hE : E.Aws others)
    (hE' : E'.Aws others') (s : String) :
    E.arnValid ("arn:aws:s3:::" ++ s) = E'.arnValid ("arn:aws:s3:::" ++ s) := by
  rw [hE.arnValid_s3, hE'.arnValid_s3]

end Laws

end IamPolicy
