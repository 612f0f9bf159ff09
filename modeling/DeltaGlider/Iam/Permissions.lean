import DeltaGlider.Lib.IamPolicy
import DeltaGlider.Api.Auth

/-!
# IAM permissions and their evaluation

`Permission`, `S3Action` and `AuthenticatedUser` of `src/iam/types.rs`, and
of `src/iam/permissions.rs` the validation of permission lists, the
expansion of the `${iam:username}` and `${iam:access_key_id}` templates, the
conversion of a permission to an IAM policy (`permission_to_iam_policy`) and
the two evaluations: through the policy engine (`evaluate_iam`, with its
retry of a bucket-level request on `bucket/`) and the legacy one.  A user's
entry in the IAM index carries its expanded permissions and their policies
(`indexedUser`).

The policy library (`iam-rs`) is a parameter `E : IamPolicy.Engine`, and
`urlencoding::encode` a parameter `urlEncode`.  What the engine grants is
read through its AWS laws (`IamPolicy.Engine.Aws`): an engine with the laws
grants as the reference engine does (`evaluateIam_reference`).

    validatePermissions_effect   a validated list, normalised, has effects `Allow` and `Deny` only
    expandPermissionTemplates_of_plain   a list without `$` expands to itself
    evaluateIam_eq_true   `evaluate_iam` grants only on an `Allow` for the request's ARN
    evaluateIam_reference   an engine with the AWS laws grants as the reference engine
-/

namespace DeltaGlider.Iam

open RustStd
open IamPolicy (Json Policy Statement Effect Context Condition OtherOperators Engine)

/-! ## Permissions and actions -/

/-- `Permission`: an `Allow` or `Deny` rule over action verbs and resource
patterns, with an optional JSON condition block. -/
structure Permission where
  id : Int
  effect : String
  actions : List String
  resources : List String
  conditions : Option Json
  deriving Repr

/-- `S3Action`. -/
inductive S3Action where
  | read
  | write
  | delete
  | list
  | admin
  deriving DecidableEq, Repr

def S3Action.asStr : S3Action → String
  | .read => "read"
  | .write => "write"
  | .delete => "delete"
  | .list => "list"
  | .admin => "admin"

def S3Action.toIamAction : S3Action → String
  | .read => "s3:GetObject"
  | .write => "s3:PutObject"
  | .delete => "s3:DeleteObject"
  | .list => "s3:ListBucket"
  | .admin => "s3:CreateBucket"

def validActions : List String := ["read", "write", "delete", "list", "admin", "*"]

def allowedTemplateVariables : List String := ["iam:username", "iam:access_key_id"]

/-! ## Templates -/

/-- The loop of `validate_template_vars`, one char at a time: `name` is the
variable being read after a `${`, when there is one. -/
def templateVarsScan (value : String) : Option (List Char) → List Char → Except String Unit
  | none, [] => .ok ()
  | none, '$' :: '\x7b' :: rest => templateVarsScan value (some []) rest
  | none, _ :: rest => templateVarsScan value none rest
  | some _, [] => .error ("unterminated template variable in '" ++ value ++ "'")
  | some name, c :: rest =>
    if c = '\x7d' then
      if allowedTemplateVariables.contains (String.ofList name) then templateVarsScan value none rest
      else .error ("unknown template variable '$\x7b" ++ String.ofList name ++ "\x7d' in '" ++ value ++
        "' (allowed: $\x7biam:username\x7d, $\x7biam:access_key_id\x7d)")
    else templateVarsScan value (some (name ++ [c])) rest

/-- `validate_template_vars`. -/
def validateTemplateVars (value : String) : Except String Unit :=
  templateVarsScan value none value.toList

mutual

/-- `validate_condition_templates`: every string of the block. -/
def validateConditionTemplates : Json → Except String Unit
  | .str s => validateTemplateVars s
  | .arr items => validateConditionTemplatesItems items
  | .obj fields => validateConditionTemplatesFields fields
  | _ => .ok ()

def validateConditionTemplatesItems : List Json → Except String Unit
  | [] => .ok ()
  | v :: vs => validateConditionTemplates v >>= fun _ => validateConditionTemplatesItems vs

def validateConditionTemplatesFields : List (String × Json) → Except String Unit
  | [] => .ok ()
  | (_, v) :: fs => validateConditionTemplates v >>= fun _ => validateConditionTemplatesFields fs

end

/-- `encode_template_value`: `urlencoding::encode`, so that a name cannot
bring a `/` or a `*` into a pattern. -/
def encodeTemplateValue (urlEncode : String → String) (value : String) : String := urlEncode value

/-- `expand_template_value`. -/
def expandTemplateValue (urlEncode : String → String) (value username accessKeyId : String) :
    Except String String := do
  validateTemplateVars value
  let withName := strReplace value.toList "$\x7biam:username\x7d".toList
    (encodeTemplateValue urlEncode username).toList
  pure (String.ofList (strReplace withName "$\x7biam:access_key_id\x7d".toList
    (encodeTemplateValue urlEncode accessKeyId).toList))

mutual

/-- `expand_condition_templates`: every string of the block expanded. -/
def expandConditionTemplates (urlEncode : String → String) (username accessKeyId : String) :
    Json → Except String Json
  | .str s => (expandTemplateValue urlEncode s username accessKeyId).map .str
  | .arr items => (expandConditionTemplatesItems urlEncode username accessKeyId items).map .arr
  | .obj fields => (expandConditionTemplatesFields urlEncode username accessKeyId fields).map .obj
  | v => .ok v

def expandConditionTemplatesItems (urlEncode : String → String) (username accessKeyId : String) :
    List Json → Except String (List Json)
  | [] => .ok []
  | v :: vs => do
    let v' ← expandConditionTemplates urlEncode username accessKeyId v
    let vs' ← expandConditionTemplatesItems urlEncode username accessKeyId vs
    pure (v' :: vs')

def expandConditionTemplatesFields (urlEncode : String → String) (username accessKeyId : String) :
    List (String × Json) → Except String (List (String × Json))
  | [] => .ok []
  | (k, v) :: fs => do
    let v' ← expandConditionTemplates urlEncode username accessKeyId v
    let fs' ← expandConditionTemplatesFields urlEncode username accessKeyId fs
    pure ((k, v') :: fs')

end

/-- One permission of `expand_permission_templates`. -/
def expandPermission (urlEncode : String → String) (username accessKeyId : String) (perm : Permission) :
    Except String Permission := do
  let resources ← perm.resources.mapM fun res => expandTemplateValue urlEncode res username accessKeyId
  let conditions ← perm.conditions.mapM (expandConditionTemplates urlEncode username accessKeyId)
  pure { perm with resources := resources, conditions := conditions }

/-- `expand_permission_templates`. -/
def expandPermissionTemplates (urlEncode : String → String) (permissions : List Permission)
    (username accessKeyId : String) : Except String (List Permission) :=
  permissions.mapM (expandPermission urlEncode username accessKeyId)

/-- A permission with no template to expand: no condition block, and no `$`
in its resources. -/
def Permission.Plain (perm : Permission) : Prop :=
  perm.conditions.isNone = true ∧ ∀ res ∈ perm.resources, '$' ∉ res.toList

instance (perm : Permission) : Decidable perm.Plain :=
  inferInstanceAs (Decidable (perm.conditions.isNone = true ∧ ∀ res ∈ perm.resources, '$' ∉ res.toList))

theorem templateVarsScan_of_not_mem {value : String} {l : List Char} (h : '$' ∉ l) :
    templateVarsScan value none l = .ok () := by
  induction l with
  | nil => rfl
  | cons c rest ih =>
    have hc : c ≠ '$' := fun e => h (e ▸ List.mem_cons_self)
    have hrest : '$' ∉ rest := fun hm => h (List.mem_cons_of_mem _ hm)
    rw [templateVarsScan.eq_3 value c rest (fun _ e _ => hc e), ih hrest]

theorem expandTemplateValue_of_not_mem {value : String} (h : '$' ∉ value.toList)
    (urlEncode : String → String) (username accessKeyId : String) :
    expandTemplateValue urlEncode value username accessKeyId = .ok value := by
  -- both patterns hold a `$`, so neither occurs in the value
  have hpat : ∀ pat : String, '$' ∈ pat.toList → ¬ pat.toList <:+: value.toList :=
    fun pat hm hi => h (hi.subset hm)
  have hscan : validateTemplateVars value = .ok () := templateVarsScan_of_not_mem h
  unfold expandTemplateValue
  rw [hscan]
  show Except.ok (String.ofList (strReplace (strReplace value.toList _ _) _ _)) = _
  rw [strReplace_eq_self (hpat _ (by decide)), strReplace_eq_self (hpat _ (by decide)),
    String.ofList_toList]

theorem mapM_eq_ok_self {α ε : Type} {f : α → Except ε α} {l : List α} (h : ∀ a ∈ l, f a = .ok a) :
    l.mapM f = .ok l := by
  induction l with
  | nil => rfl
  | cons a l ih =>
    rw [List.mapM_cons, h a List.mem_cons_self, ih fun b hb => h b (List.mem_cons_of_mem _ hb)]
    rfl

theorem expandPermission_of_plain {perm : Permission} (h : perm.Plain) (urlEncode : String → String)
    (username accessKeyId : String) : expandPermission urlEncode username accessKeyId perm = .ok perm := by
  obtain ⟨id, effect, actions, resources, conditions⟩ := perm
  obtain ⟨hcond, hres⟩ := h
  have hresources : resources.mapM (fun res => expandTemplateValue urlEncode res username accessKeyId) =
      .ok resources :=
    mapM_eq_ok_self fun res hr => expandTemplateValue_of_not_mem (hres res hr) urlEncode username accessKeyId
  rw [Option.isNone_iff_eq_none] at hcond
  subst hcond
  unfold expandPermission
  rw [hresources]
  rfl

/-- A list of plain permissions expands to itself, for every user. -/
theorem expandPermissionTemplates_of_plain {permissions : List Permission}
    (h : ∀ perm ∈ permissions, perm.Plain) (urlEncode : String → String) (username accessKeyId : String) :
    expandPermissionTemplates urlEncode permissions username accessKeyId = .ok permissions :=
  mapM_eq_ok_self fun perm hp => expandPermission_of_plain (h perm hp) urlEncode username accessKeyId

/-! ## Validation -/

def maxPermissionRules : Nat := 100

/-- `effect.to_lowercase()` (the effects it is compared with are ASCII). -/
def lowercase (s : String) : String := String.ofList (s.toList.map Char.toLower)

/-- `normalize_permissions`: the effect's case fixed. -/
def normalizePermissions (permissions : List Permission) : List Permission :=
  permissions.map fun perm =>
    let lower := lowercase perm.effect
    { perm with effect := if lower = "allow" then "Allow" else if lower = "deny" then "Deny" else perm.effect }

/-- The checks of `validate_permissions` on one resource pattern. -/
def validateResource (ctx res : String) : Except String Unit := do
  if res.isEmpty then throw (ctx ++ ": resource pattern must not be empty")
  if res.toList.any fun c => isWhitespace c || isControl c then
    throw (ctx ++ ": resource '" ++ res ++ "' contains whitespace or control characters")
  (validateTemplateVars res).mapError fun e => ctx ++ ": resource " ++ e
  -- `res.find('*')` is a byte offset, `res.len() - 1` the last byte: as `*` is
  -- one byte, they agree exactly when the first `*` is the last char
  if '*' ∈ res.toList ∧ res.toList.idxOf '*' ≠ res.toList.length - 1 then
    throw (ctx ++ ": resource '" ++ res ++ "' has '*' in an invalid position — only trailing '*' " ++
      "is supported (e.g. 'bucket/*', 'bucket/prefix/*')")

/-- The checks of `validate_permissions` on rule `i + 1`. -/
def validatePermission (E : Engine) (i : Nat) (perm : Permission) : Except String Unit := do
  let ctx := "rule " ++ toString (i + 1)
  let effectLower := lowercase perm.effect
  if effectLower ≠ "allow" ∧ effectLower ≠ "deny" then
    throw (ctx ++ ": effect must be 'Allow' or 'Deny', got '" ++ perm.effect ++ "'")
  if perm.actions.isEmpty then throw (ctx ++ ": actions must not be empty")
  for action in perm.actions do
    if action ∉ validActions then
      throw (ctx ++ ": invalid action '" ++ action ++ "' (valid: " ++ ", ".intercalate validActions ++ ")")
  if perm.resources.isEmpty then throw (ctx ++ ": resources must not be empty")
  for res in perm.resources do
    validateResource ctx res
  match perm.conditions with
  | some conditions =>
    (validateConditionTemplates conditions).mapError fun e => ctx ++ ": condition " ++ e
    discard <| (E.parseConditionBlock conditions).mapError
      fun e => ctx ++ ": condition could not be parsed: " ++ e
  | none => pure ()

/-- The rules from number `i + 1` on. -/
def validateRules (E : Engine) : Nat → List Permission → Except String Unit
  | _, [] => .ok ()
  | i, perm :: rest => validatePermission E i perm >>= fun _ => validateRules E (i + 1) rest

/-- `validate_permissions`. -/
def validatePermissions (E : Engine) (permissions : List Permission) : Except String Unit :=
  if permissions.length > maxPermissionRules then
    .error ("too many permission rules (" ++ toString permissions.length ++ ", max " ++
      toString maxPermissionRules ++ ")")
  else validateRules E 0 permissions

/-- A rule that passes has the effect `allow` or `deny`, in any case. -/
theorem validatePermission_effect {E : Engine} {i : Nat} {perm : Permission}
    (h : validatePermission E i perm = .ok ()) :
    lowercase perm.effect = "allow" ∨ lowercase perm.effect = "deny" := by
  by_contra hne
  simp only [not_or] at hne
  unfold validatePermission at h
  simp only [ne_eq, hne, not_false_eq_true, and_self, if_true] at h
  cases h

theorem validateRules_effect {E : Engine} {i : Nat} {permissions : List Permission}
    (h : validateRules E i permissions = .ok ()) :
    ∀ perm ∈ permissions, lowercase perm.effect = "allow" ∨ lowercase perm.effect = "deny" := by
  induction permissions generalizing i with
  | nil => simp
  | cons perm rest ih =>
    unfold validateRules at h
    cases hv : validatePermission E i perm with
    | error e =>
      rw [hv] at h
      cases h
    | ok u =>
      rw [hv] at h
      intro q hq
      rcases List.mem_cons.mp hq with rfl | hq
      · exact validatePermission_effect hv
      · exact ih h q hq

/-- A validated list, normalised, has the effects `Allow` and `Deny` only. -/
theorem validatePermissions_effect {E : Engine} {permissions : List Permission}
    (h : validatePermissions E permissions = .ok ()) :
    ∀ perm ∈ normalizePermissions permissions, perm.effect = "Allow" ∨ perm.effect = "Deny" := by
  unfold validatePermissions at h
  split at h
  · cases h
  · intro perm hperm
    obtain ⟨p, hp, rfl⟩ := List.mem_map.mp hperm
    rcases validateRules_effect h p hp with hlow | hlow
    · simp [hlow]
    · simp [hlow]

/-! ## Conversion to IAM policies -/

/-- `action_to_iam`. -/
def actionToIam (action : String) : String :=
  match action with
  | "read" => "s3:GetObject"
  | "write" => "s3:PutObject"
  | "delete" => "s3:DeleteObject"
  | "list" => "s3:ListBucket"
  | "admin" => "s3:CreateBucket"
  | "*" => "s3:*"
  | other => "s3:" ++ other

/-- `resource_to_arn`. -/
def resourceToArn (resource : String) : String :=
  if resource = "*" then "*" else "arn:aws:s3:::" ++ resource

/-- `permission_to_iam_policy`: one statement, or none when the condition
block does not parse. -/
def permissionToIamPolicy (E : Engine) (perm : Permission) : Policy :=
  let effect := if perm.effect = "Deny" then Effect.deny else Effect.allow
  let actions := perm.actions.map actionToIam
  let resources := perm.resources.map resourceToArn
  match perm.conditions with
  | none => ⟨[⟨effect, actions, resources, []⟩]⟩
  | some cond =>
    match E.parseConditionBlock cond with
    | .ok conds => ⟨[⟨effect, actions, resources, conds⟩]⟩
    | .error _ => ⟨[]⟩

/-- `build_resource_arn`. -/
def buildResourceArn (bucket key : String) : String :=
  if key.isEmpty then "arn:aws:s3:::" ++ bucket else "arn:aws:s3:::" ++ bucket ++ "/" ++ key

/-- A statement of a permission's policy: the permission's effect (anything
but `Deny` allows), its resources as ARNs, and no condition when it has no
condition block. -/
theorem mem_statements_permissionToIamPolicy {E : Engine} {perms : List Permission} {st : Statement}
    (h : st ∈ IamPolicy.statements (perms.map (permissionToIamPolicy E))) :
    ∃ perm ∈ perms, st.effect = (if perm.effect = "Deny" then .deny else .allow) ∧
      st.resources = perm.resources.map resourceToArn ∧
      (perm.conditions.isNone = true → st.conditions = []) := by
  unfold IamPolicy.statements at h
  obtain ⟨pol, hpol, hst⟩ := List.mem_flatMap.mp h
  obtain ⟨perm, hperm, rfl⟩ := List.mem_map.mp hpol
  refine ⟨perm, hperm, ?_⟩
  unfold permissionToIamPolicy at hst
  dsimp only at hst
  split at hst
  · rw [List.mem_singleton] at hst
    subst hst
    exact ⟨rfl, rfl, fun _ => rfl⟩
  · next cond hcond =>
    split at hst
    · rw [List.mem_singleton] at hst
      subst hst
      refine ⟨rfl, rfl, fun hnone => ?_⟩
      rw [hcond] at hnone
      cases hnone
    · cases hst

/-- The statement of a permission whose condition block parses. -/
theorem mem_permissionToIamPolicy {E : Engine} {perm : Permission} {conds : List Condition}
    (h : perm.conditions.elim (.ok []) E.parseConditionBlock = .ok conds) :
    ⟨if perm.effect = "Deny" then .deny else .allow, perm.actions.map actionToIam,
      perm.resources.map resourceToArn, conds⟩ ∈ (permissionToIamPolicy E perm).statements := by
  unfold permissionToIamPolicy
  dsimp only
  split
  · next hnone =>
    rw [hnone] at h
    cases h
    exact List.mem_singleton_self _
  · next cond hcond =>
    rw [hcond] at h
    dsimp only [Option.elim] at h
    rw [h]
    exact List.mem_singleton_self _

theorem mem_statements_of_mem {E : Engine} {perms : List Permission} {perm : Permission} {st : Statement}
    (hperm : perm ∈ perms) (hst : st ∈ (permissionToIamPolicy E perm).statements) :
    st ∈ IamPolicy.statements (perms.map (permissionToIamPolicy E)) :=
  List.mem_flatMap.mpr ⟨_, List.mem_map.mpr ⟨perm, hperm, rfl⟩, hst⟩

theorem toList_buildResourceArn (bucket key : String) :
    (buildResourceArn bucket key).toList =
      "arn:aws:s3:::".toList ++ bucket.toList ++ (if key.isEmpty then [] else '/' :: key.toList) := by
  unfold buildResourceArn
  split <;> simp [String.toList_append]

/-! ## Evaluation -/

section Evaluation

variable (E : Engine)

/-- `evaluate_iam`: an `Allow` on the resource; for a bucket-level request
that no statement decided, an `Allow` on `bucket/`.  An ARN that does not
parse, or an evaluation that fails, grants nothing. -/
def evaluateIam (policies : List Policy) (action : S3Action) (bucket key : String) (context : Context) :
    Bool :=
  let resourceStr := buildResourceArn bucket key
  if !E.arnValid resourceStr then false
  else
    match E.evaluate policies ⟨action.toIamAction, resourceStr, context⟩ with
    | .ok .allow => true
    | .ok .deny => false
    | .ok .notApplicable =>
      if key.isEmpty then
        let altStr := "arn:aws:s3:::" ++ bucket ++ "/"
        if E.arnValid altStr then
          match E.evaluate policies ⟨action.toIamAction, altStr, context⟩ with
          | .ok result => result == .allow
          | .error _ => false
        else false
      else false
    | .error _ => false

/-- `is_explicitly_denied_iam`: an ARN that does not parse counts as denied,
a failed evaluation as not denied. -/
def isExplicitlyDeniedIam (policies : List Policy) (action : S3Action) (bucket key : String)
    (context : Context) : Bool :=
  let resourceStr := buildResourceArn bucket key
  if !E.arnValid resourceStr then true
  else
    match E.evaluate policies ⟨action.toIamAction, resourceStr, context⟩ with
    | .ok .deny => true
    | _ => false

variable {E} {others : OtherOperators} {policies : List Policy} {action : S3Action} {context : Context}

/-- `evaluate_iam` grants only on an `Allow` for the resource's ARN, or for
`bucket/` when the request is bucket-level. -/
theorem evaluateIam_eq_true {bucket key : String} (h : evaluateIam E policies action bucket key context = true) :
    ∃ arn, (arn = buildResourceArn bucket key ∨ (key.isEmpty = true ∧ arn = "arn:aws:s3:::" ++ bucket ++ "/")) ∧
      E.evaluate policies ⟨action.toIamAction, arn, context⟩ = .ok .allow := by
  unfold evaluateIam at h
  dsimp only at h
  split at h
  · cases h
  · split at h
    · next hallow => exact ⟨_, .inl rfl, hallow⟩
    · cases h
    · -- the retry on `bucket/`, for a bucket-level request
      split at h
      · next hkey =>
        split at h
        · split at h
          · next result hres =>
            rw [beq_iff_eq] at h
            exact ⟨_, .inr ⟨hkey, rfl⟩, h ▸ hres⟩
          · cases h
        · cases h
      · cases h
    · cases h

/-- The retry of a bucket-level request: an `Allow` on `bucket/` grants, unless
the bucket's own ARN is denied. -/
theorem evaluateIam_bucket_retry (hE : E.Aws others) {bucket : String} (hbucket : bucket ≠ "")
    (hdeny : IamPolicy.decision others policies ⟨action.toIamAction, "arn:aws:s3:::" ++ bucket, context⟩ ≠
      .deny)
    (hallow : IamPolicy.decision others policies
      ⟨action.toIamAction, "arn:aws:s3:::" ++ bucket ++ "/", context⟩ = .allow) :
    evaluateIam E policies action bucket "" context = true := by
  have harn : buildResourceArn bucket "" = "arn:aws:s3:::" ++ bucket := if_pos rfl
  have hvalid : E.arnValid ("arn:aws:s3:::" ++ bucket) = true := by
    rw [hE.arnValid_s3, Bool.not_eq_true', Bool.eq_false_iff, ne_eq, String.isEmpty_iff]
    exact hbucket
  have halt : E.arnValid ("arn:aws:s3:::" ++ bucket ++ "/") = true := by
    rw [String.append_assoc, hE.arnValid_s3]
    simp
  unfold evaluateIam
  dsimp only
  rw [harn, hvalid, hE.evaluate_eq]
  simp only [Bool.not_true, Bool.false_eq_true, ↓reduceIte]
  rcases hd : IamPolicy.decision others policies ⟨action.toIamAction, "arn:aws:s3:::" ++ bucket, context⟩
  · rfl
  · exact absurd hd hdeny
  · rw [if_pos (String.isEmpty_iff.mpr rfl), halt, if_pos rfl, hE.evaluate_eq, hallow]
    rfl

/-- Without conditions, `evaluate_iam` does not read the request context. -/
theorem evaluateIam_context_free (hE : E.Aws others)
    (h : ∀ st ∈ IamPolicy.statements policies, st.conditions = []) (action : S3Action)
    (bucket key : String) (context : Context) :
    evaluateIam E policies action bucket key context =
      evaluateIam E policies action bucket key Context.empty := by
  unfold evaluateIam
  simp only [hE.evaluate_eq, IamPolicy.decision_context_free h _ _ context Context.empty]

theorem buildResourceArn_eq (bucket key : String) :
    buildResourceArn bucket key =
      "arn:aws:s3:::" ++ (if key.isEmpty then bucket else bucket ++ "/" ++ key) := by
  unfold buildResourceArn
  split
  · rfl
  · simp only [String.append_assoc]

/-- An engine with the AWS laws grants as the reference engine does. -/
theorem evaluateIam_reference (hE : E.Aws others) (policies : List Policy) (action : S3Action)
    (bucket key : String) (context : Context) :
    evaluateIam E policies action bucket key context =
      evaluateIam (Engine.reference others) policies action bucket key context := by
  have hR := IamPolicy.Engine.reference_aws others
  unfold evaluateIam
  simp only [buildResourceArn_eq, String.append_assoc, hE.arnValid_eq hR, hE.evaluate_eq, hR.evaluate_eq]

/-- An engine with the AWS laws denies as the reference engine does. -/
theorem isExplicitlyDeniedIam_reference (hE : E.Aws others) (policies : List Policy) (action : S3Action)
    (bucket key : String) (context : Context) :
    isExplicitlyDeniedIam E policies action bucket key context =
      isExplicitlyDeniedIam (Engine.reference others) policies action bucket key context := by
  have hR := IamPolicy.Engine.reference_aws others
  unfold isExplicitlyDeniedIam
  simp only [buildResourceArn_eq, hE.arnValid_eq hR, hE.evaluate_eq, hR.evaluate_eq]

end Evaluation

/-- `matches_resource`: `*`, a trailing-`*` prefix (whose `bucket/*` form
also covers the bucket itself), or the exact resource. -/
def matchesResource (pattern resource : String) : Bool :=
  if pattern = "*" then true
  else
    match stripSuffix pattern '*' with
    | some pre =>
      if startsWith resource pre then true
      else
        match stripSuffix pre '/' with
        | some bucketPrefix => resource == bucketPrefix
        | none => false
    | none => resource == pattern

/-- `matches_action_and_resource`. -/
def matchesActionAndResource (perm : Permission) (actionStr bucket key : String) : Bool :=
  if !perm.actions.any fun a => a == "*" || a == actionStr then false
  else
    let resource := if key.isEmpty then bucket else bucket ++ "/" ++ key
    perm.resources.any fun pattern => matchesResource pattern resource

/-- `has_matching_deny`. -/
def hasMatchingDeny (permissions : List Permission) (action : S3Action) (bucket key : String) : Bool :=
  permissions.any fun perm =>
    perm.effect == "Deny" && matchesActionAndResource perm action.asStr bucket key

/-- `evaluate`, the legacy evaluation: a matching `Deny` refuses, then a
matching `Allow` grants. -/
def evaluate (permissions : List Permission) (action : S3Action) (bucket key : String) : Bool :=
  if permissions.any fun perm =>
      perm.effect == "Deny" && matchesActionAndResource perm action.asStr bucket key then false
  else
    permissions.any fun perm =>
      perm.effect == "Allow" && matchesActionAndResource perm action.asStr bucket key

/-- `is_admin`. -/
def isAdmin (permissions : List Permission) : Bool :=
  let admin := fun (p : Permission) (effect : String) =>
    p.effect == effect && p.actions.any (fun a => a == "*" || a == "admin") && p.resources.any (· == "*")
  if permissions.any (admin · "Deny") then false else permissions.any (admin · "Allow")

/-! ## Authenticated users -/

/-- `AuthenticatedUser`. -/
structure AuthenticatedUser where
  name : String
  accessKeyId : String
  permissions : List Permission
  iamPolicies : List Policy
  deriving Repr

namespace AuthenticatedUser

variable (E : Engine)

/-- `AuthenticatedUser::can`: the policy engine when the user has policies,
with an empty request context. -/
def can (user : AuthenticatedUser) (action : S3Action) (bucket key : String) : Bool :=
  if !user.iamPolicies.isEmpty then evaluateIam E user.iamPolicies action bucket key Context.empty
  else evaluate user.permissions action bucket key

/-- `AuthenticatedUser::can_with_context`. -/
def canWithContext (user : AuthenticatedUser) (action : S3Action) (bucket key : String)
    (context : Context) : Bool :=
  if !user.iamPolicies.isEmpty then evaluateIam E user.iamPolicies action bucket key context
  else evaluate user.permissions action bucket key

/-- `AuthenticatedUser::is_explicitly_denied`. -/
def isExplicitlyDenied (user : AuthenticatedUser) (action : S3Action) (bucket key : String)
    (context : Context) : Bool :=
  if !user.iamPolicies.isEmpty then isExplicitlyDeniedIam E user.iamPolicies action bucket key context
  else hasMatchingDeny user.permissions action bucket key

variable {E} {others : OtherOperators}

theorem can_reference (hE : E.Aws others) (user : AuthenticatedUser) (action : S3Action)
    (bucket key : String) :
    user.can E action bucket key = user.can (Engine.reference others) action bucket key := by
  unfold can
  rw [evaluateIam_reference hE]

theorem canWithContext_reference (hE : E.Aws others) (user : AuthenticatedUser) (action : S3Action)
    (bucket key : String) (context : Context) :
    user.canWithContext E action bucket key context =
      user.canWithContext (Engine.reference others) action bucket key context := by
  unfold canWithContext
  rw [evaluateIam_reference hE]

theorem isExplicitlyDenied_reference (hE : E.Aws others) (user : AuthenticatedUser) (action : S3Action)
    (bucket key : String) (context : Context) :
    user.isExplicitlyDenied E action bucket key context =
      user.isExplicitlyDenied (Engine.reference others) action bucket key context := by
  unfold isExplicitlyDenied
  rw [isExplicitlyDeniedIam_reference hE]

end AuthenticatedUser

/-- A user's entry of `IamIndex::from_users_and_groups`: its permissions
(its own and its groups', merged by the caller), expanded — or none at all
when an expansion fails — and their policies. -/
def indexedUser (E : Engine) (urlEncode : String → String) (name accessKeyId : String)
    (permissions : List Permission) : AuthenticatedUser :=
  let expanded :=
    match expandPermissionTemplates urlEncode permissions name accessKeyId with
    | .ok perms => perms
    | .error _ => []
  { name := name, accessKeyId := accessKeyId, permissions := expanded,
    iamPolicies := expanded.map (permissionToIamPolicy E) }

section Indexed

variable {E : Engine} {urlEncode : String → String} {others : OtherOperators}

theorem indexedUser_eq {name accessKeyId : String} {permissions perms : List Permission}
    (h : expandPermissionTemplates urlEncode permissions name accessKeyId = .ok perms) :
    indexedUser E urlEncode name accessKeyId permissions =
      ⟨name, accessKeyId, perms, perms.map (permissionToIamPolicy E)⟩ := by
  unfold indexedUser
  rw [h]

theorem indexedUser_of_plain {permissions : List Permission} (h : ∀ perm ∈ permissions, perm.Plain)
    (name accessKeyId : String) :
    indexedUser E urlEncode name accessKeyId permissions =
      ⟨name, accessKeyId, permissions, permissions.map (permissionToIamPolicy E)⟩ :=
  indexedUser_eq (expandPermissionTemplates_of_plain h urlEncode name accessKeyId)

/-- A permission whose condition block, when it has one, is one string
condition: what every engine with the AWS laws reads alike. -/
def Permission.StringConditions (perm : Permission) : Bool :=
  perm.conditions.all fun j => (IamPolicy.stringCondition? j).isSome

theorem permissionToIamPolicy_reference (hE : E.Aws others) {perm : Permission}
    (h : perm.StringConditions = true) :
    permissionToIamPolicy E perm = permissionToIamPolicy (Engine.reference others) perm := by
  unfold permissionToIamPolicy
  cases hc : perm.conditions with
  | none => rfl
  | some j =>
    simp only [Permission.StringConditions, hc, Option.all_some] at h
    simp only [hE.parseConditionBlock_eq (IamPolicy.Engine.reference_aws others) h]

theorem validatePermission_reference (hE : E.Aws others) {perm : Permission}
    (h : perm.StringConditions = true) (i : Nat) :
    validatePermission E i perm = validatePermission (Engine.reference others) i perm := by
  unfold validatePermission
  cases hc : perm.conditions with
  | none => rfl
  | some j =>
    simp only [Permission.StringConditions, hc, Option.all_some] at h
    simp only [hE.parseConditionBlock_eq (IamPolicy.Engine.reference_aws others) h]

theorem validatePermissions_reference (hE : E.Aws others) {permissions : List Permission}
    (h : ∀ perm ∈ permissions, perm.StringConditions = true) :
    validatePermissions E permissions = validatePermissions (Engine.reference others) permissions := by
  have hrules : ∀ i, validateRules E i permissions = validateRules (Engine.reference others) i permissions := by
    induction permissions with
    | nil => intro i; rfl
    | cons perm rest ih =>
      intro i
      rw [validateRules, validateRules, validatePermission_reference hE (h perm List.mem_cons_self),
        ih fun q hq => h q (List.mem_cons_of_mem _ hq)]
  unfold validatePermissions
  rw [hrules]

/-- The user the index builds with an engine with the AWS laws is the one it
builds with the reference engine. -/
theorem indexedUser_reference (hE : E.Aws others) {name accessKeyId : String}
    {permissions perms : List Permission}
    (hexp : expandPermissionTemplates urlEncode permissions name accessKeyId = .ok perms)
    (h : ∀ perm ∈ perms, perm.StringConditions = true) :
    indexedUser E urlEncode name accessKeyId permissions =
      indexedUser (Engine.reference others) urlEncode name accessKeyId permissions := by
  rw [indexedUser_eq hexp, indexedUser_eq hexp]
  congr 1
  exact List.map_congr_left fun perm hperm => permissionToIamPolicy_reference hE (h perm hperm)

end Indexed

end DeltaGlider.Iam
