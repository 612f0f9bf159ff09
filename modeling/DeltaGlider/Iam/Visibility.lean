import DeltaGlider.Iam.Permissions

/-!
# What a user sees: bucket lists, object lists and the LIST scope

Of `src/iam/permissions.rs` the hand-written visibility predicates —
`has_any_on_bucket` (ListBuckets), `has_unrestricted_allow_for_bucket_prefix`
(whether a LIST needs filtering), `user_can_see_listed_key` and
`user_can_see_common_prefix` (the filter) — and the anonymous user of
`build_anonymous_user` (`src/api/auth.rs`) and the LIST branch of
`authorization_middleware` (`src/iam/middleware.rs`).

The predicates read the raw patterns, while the grants themselves go through
the policy engine `E`, and for every engine with the AWS laws
(`IamPolicy.Engine.Aws`) they disagree in three places:

* a pattern with a wildcard in its bucket name (`prod*`) grants actions on
  `production` that ListBuckets hides (`bucket_wildcard_hidden`); without such
  patterns ListBuckets shows every bucket a user may act on
  (`canSeeBucket_of_can`);
* the filter shows a key under a common prefix it hides, and shows the
  anonymous user the object named like a public prefix without its `/`
  (`listing_filter_gaps`);
* the unfiltered LIST scope ignores `Deny` statements and conditions, so a
  conditioned `Deny` that hides keys from the filter does not hide them from
  an unrestricted listing (`unrestricted_list_skips_deny`); without
  conditions it never skips a needed filter (`unrestricted_list_sees_all`).
-/

namespace DeltaGlider.Iam

open RustStd
open IamPolicy (Json Policy Context Condition OtherOperators Engine globMatch)

/-! ## The predicates -/

/-- `has_any_on_bucket`: an `Allow` naming the bucket, a path in it, or `*`. -/
def hasAnyOnBucket (permissions : List Permission) (bucket : String) : Bool :=
  permissions.any fun perm =>
    perm.effect == "Allow" &&
      perm.resources.any fun res => res == "*" || res == bucket || startsWith res (bucket ++ "/")

/-- `has_unrestricted_allow_for_bucket_prefix`: an unconditioned `Allow`
(of any action) covering the whole bucket or the requested path. -/
def hasUnrestrictedAllowForBucketPrefix (permissions : List Permission) (bucket requested : String) :
    Bool :=
  let requestedPath := if requested.isEmpty then bucket else bucket ++ "/" ++ requested
  permissions.any fun perm =>
    perm.effect == "Allow" && perm.conditions.isNone &&
      perm.resources.any fun res =>
        res == "*" || res == bucket || res == bucket ++ "/*" ||
          (match stripSuffix res '*' with
           | some stripped => startsWith requestedPath stripped
           | none => false) ||
          res == requestedPath

/-- `resource_descends_from_prefix`. -/
def resourceDescendsFromPrefix (resource bucket requested : String) : Bool :=
  resource == "*" || startsWith ((stripSuffix resource '*').getD resource) (bucket ++ "/" ++ requested)

/-- The actions `allow_references_common_prefix` counts as discovering keys. -/
def discoveryActions : List String := ["*", "read", "list", "s3:GetObject", "s3:ListBucket", "s3:*"]

/-- `allow_references_common_prefix`: an unconditioned `Allow` of a discovery
action on a resource under the prefix. -/
def allowReferencesCommonPrefix (user : AuthenticatedUser) (bucket requested : String) : Bool :=
  user.permissions.any fun perm =>
    perm.effect == "Allow" && perm.conditions.isNone &&
      perm.actions.any (fun a => discoveryActions.contains a) &&
      perm.resources.any fun r => resourceDescendsFromPrefix r bucket requested

namespace AuthenticatedUser

/-- `AuthenticatedUser::can_see_bucket`. -/
def canSeeBucket (user : AuthenticatedUser) (bucket : String) : Bool :=
  hasAnyOnBucket user.permissions bucket

end AuthenticatedUser

section Listing

variable (E : Engine)

/-- `can_list_prefix_with_context`: a bucket-level LIST with `s3:prefix` set. -/
def canListPrefixWithContext (user : AuthenticatedUser) (bucket requested : String) : Bool :=
  user.canWithContext E .list bucket "" (Context.empty.withString "s3:prefix" requested)

/-- `user_can_see_listed_key`. -/
def userCanSeeListedKey (user : AuthenticatedUser) (bucket key : String) : Bool :=
  user.can E .read bucket key || user.can E .list bucket key ||
    canListPrefixWithContext E user bucket key

/-- `user_can_see_common_prefix`. -/
def userCanSeeCommonPrefix (user : AuthenticatedUser) (bucket requested : String) : Bool :=
  user.can E .read bucket requested || user.can E .list bucket requested ||
    canListPrefixWithContext E user bucket requested ||
    allowReferencesCommonPrefix user bucket requested

/-- `ListScope`. -/
inductive ListScope where
  | unrestricted
  | filtered (user : AuthenticatedUser)

/-- The LIST-objects branch of `authorization_middleware`: whether the
request is let through, and whether its keys must be filtered. -/
def listAuthorization (user : AuthenticatedUser) (bucket requested : String) (context : Context) :
    Bool × Option ListScope :=
  if user.canWithContext E .list bucket "" context then
    (true, some (if hasUnrestrictedAllowForBucketPrefix user.permissions bucket requested then .unrestricted
      else .filtered user))
  else if user.isExplicitlyDenied E .list bucket "" context then (false, none)
  else if user.name = "$anonymous" then (false, none)
  else if user.canSeeBucket bucket then (true, some (.filtered user))
  else (false, none)

variable {E} {others : OtherOperators}

/-- With an engine with the AWS laws the filter and the LIST scope are the
reference engine's. -/
theorem canListPrefixWithContext_reference (hE : E.Aws others) (user : AuthenticatedUser)
    (bucket requested : String) :
    canListPrefixWithContext E user bucket requested =
      canListPrefixWithContext (Engine.reference others) user bucket requested := by
  unfold canListPrefixWithContext
  rw [AuthenticatedUser.canWithContext_reference hE]

theorem userCanSeeListedKey_reference (hE : E.Aws others) (user : AuthenticatedUser) (bucket key : String) :
    userCanSeeListedKey E user bucket key = userCanSeeListedKey (Engine.reference others) user bucket key := by
  unfold userCanSeeListedKey
  rw [AuthenticatedUser.can_reference hE, AuthenticatedUser.can_reference hE,
    canListPrefixWithContext_reference hE]

theorem userCanSeeCommonPrefix_reference (hE : E.Aws others) (user : AuthenticatedUser)
    (bucket requested : String) :
    userCanSeeCommonPrefix E user bucket requested =
      userCanSeeCommonPrefix (Engine.reference others) user bucket requested := by
  unfold userCanSeeCommonPrefix
  rw [AuthenticatedUser.can_reference hE, AuthenticatedUser.can_reference hE,
    canListPrefixWithContext_reference hE]

theorem listAuthorization_reference (hE : E.Aws others) (user : AuthenticatedUser)
    (bucket requested : String) (context : Context) :
    listAuthorization E user bucket requested context =
      listAuthorization (Engine.reference others) user bucket requested context := by
  unfold listAuthorization
  rw [AuthenticatedUser.canWithContext_reference hE, AuthenticatedUser.isExplicitlyDenied_reference hE]

end Listing

/-! ## The anonymous user -/

/-- The two permissions `build_anonymous_user` grants for one public prefix:
read under it, and list it — unconditioned for the whole bucket, otherwise
with `s3:prefix` `StringLike` the prefix (a `/`-terminated one also its bare
form). -/
def anonymousPermissions (bucket pre : String) : List Permission :=
  let readPerm : Permission := ⟨0, "Allow", ["read"], [bucket ++ "/" ++ pre ++ "*"], none⟩
  let listPerm : Permission :=
    if pre.isEmpty then ⟨0, "Allow", ["list"], [bucket ++ "/*"], none⟩
    else
      let patterns :=
        if pre.toList.getLast? = some '/' then
          [String.ofList (trimEndMatches '/' pre.toList), pre ++ "*"]
        else [pre ++ "*"]
      ⟨0, "Allow", ["list"], [bucket ++ "/*"],
        some (.obj [("StringLike", .obj [("s3:prefix", .arr (patterns.map .str))])])⟩
  [readPerm, listPerm]

/-- `build_anonymous_user`. -/
def buildAnonymousUser (E : Engine) (bucket : String) (publicPrefixes : List String) : AuthenticatedUser :=
  let permissions := publicPrefixes.flatMap (anonymousPermissions bucket)
  { name := "$anonymous", accessKeyId := "", permissions := permissions,
    iamPolicies := permissions.map (permissionToIamPolicy E) }

/-- Whether a LIST scope skips the filter. -/
def ListScope.isUnrestricted : ListScope → Bool
  | .unrestricted => true
  | .filtered _ => false

/-! ## Users whose policies are their permissions' -/

/-- The user's policies are its permissions', as the IAM index and
`build_anonymous_user` build them. -/
def AuthenticatedUser.Indexed (E : Engine) (user : AuthenticatedUser) : Prop :=
  user.iamPolicies = user.permissions.map (permissionToIamPolicy E)

/-- A resource pattern whose bucket part (up to its first `/`) has no
wildcard, or the pattern `*`. -/
def NamesBucket (res : String) : Prop :=
  res = "*" ∨ Glob.Literal '*' '?' (res.toList.takeWhile (· != '/'))

instance : DecidablePred NamesBucket := fun res => by
  unfold NamesBucket Glob.Literal
  infer_instance

/-- Two `/`-free names, each followed by `/`, one heading the other, are equal. -/
theorem slash_terminated_heads_eq {s b t : List Char} (hs : '/' ∉ s) (hb : '/' ∉ b)
    (h : s ++ ['/'] <+: b ++ '/' :: t) : s = b := by
  obtain ⟨u, hu⟩ := h
  induction s generalizing b with
  | nil =>
    cases b with
    | nil => rfl
    | cons y b =>
      simp only [List.nil_append, List.cons_append, List.cons.injEq] at hu
      obtain ⟨rfl, -⟩ := hu
      exact absurd List.mem_cons_self hb
  | cons x s ih =>
    cases b with
    | nil =>
      simp only [List.cons_append, List.nil_append, List.cons.injEq] at hu
      obtain ⟨rfl, -⟩ := hu
      exact absurd List.mem_cons_self hs
    | cons y b =>
      simp only [List.cons_append, List.cons.injEq] at hu
      obtain ⟨rfl, hrest⟩ := hu
      have hs' : '/' ∉ s := fun hm => hs (List.mem_cons_of_mem _ hm)
      have hb' : '/' ∉ b := fun hm => hb (List.mem_cons_of_mem _ hm)
      rw [ih hs' hb' hrest]

/-- A pattern naming its bucket matches the ARN of a bucket or of a path in a
bucket only when it is `*`, that bucket, or a path in it. -/
theorem namesBucket_of_accepts {res bucket : String} {tail : List Char} (hres : NamesBucket res)
    (hbucket : '/' ∉ bucket.toList) (htail : tail = [] ∨ ∃ t, tail = '/' :: t)
    (h : Glob.accepts '*' '?' (resourceToArn res).toList
      ("arn:aws:s3:::".toList ++ bucket.toList ++ tail) = true) :
    res = "*" ∨ res = bucket ∨ (bucket ++ "/").toList <+: res.toList := by
  by_cases hstar : res = "*"
  · exact .inl hstar
  right
  have hhead : Glob.Literal '*' '?' "arn:aws:s3:::".toList := ⟨by decide, by decide⟩
  have hname : Glob.Literal '*' '?' (res.toList.takeWhile (· != '/')) := hres.resolve_left hstar
  have hnameSlash : '/' ∉ res.toList.takeWhile (· != '/') := fun hm => by
    simpa using List.mem_takeWhile_imp hm
  have hsplit := (List.takeWhile_append_dropWhile (p := (· != '/')) (l := res.toList)).symm
  have hfirst := List.head?_dropWhile_not (· != '/') res.toList
  rw [show (resourceToArn res).toList = "arn:aws:s3:::".toList ++ res.toList by
    simp only [resourceToArn, if_neg hstar, String.toList_append]] at h
  rw [hsplit] at h
  -- the text after the bucket part decides: the pattern is literal throughout,
  -- or it goes on with a `/` that the text must have right after the bucket
  cases hrest : res.toList.dropWhile (· != '/') with
  | nil =>
    rw [hrest, List.append_nil] at h hsplit
    have heq := Glob.eq_of_accepts_literal (Glob.Literal.append '*' '?' hhead hname) h
    rw [List.append_assoc, List.append_cancel_left_eq] at heq
    rcases htail with rfl | ⟨t, rfl⟩
    · left
      rw [List.append_nil] at heq
      exact String.toList_inj.mp (hsplit.trans heq)
    · exfalso
      exact hnameSlash (by rw [heq]; simp)
  | cons c rest =>
    rw [hrest] at hfirst h hsplit
    have hc : c = '/' := by simpa using hfirst
    subst hc
    have hlit : Glob.Literal '*' '?' ("arn:aws:s3:::".toList ++ res.toList.takeWhile (· != '/') ++ ['/']) :=
      Glob.Literal.append '*' '?' (Glob.Literal.append '*' '?' hhead hname) ⟨by decide, by decide⟩
    have hpre := Glob.prefix_of_accepts hlit (by simpa only [List.append_assoc, List.singleton_append] using h)
    rw [List.append_assoc, List.prefix_append_right_inj] at hpre
    rcases htail with rfl | ⟨t, rfl⟩
    · exfalso
      rw [List.append_nil] at hpre
      exact hbucket (hpre.subset (by simp))
    · rw [slash_terminated_heads_eq hnameSlash hbucket hpre] at hsplit
      rw [String.toList_append, hsplit]
      right
      exact ⟨rest, by simp⟩

section Grants

variable {E : Engine} {others : OtherOperators} {user : AuthenticatedUser}

/-- Permissions without condition blocks give policies without conditions. -/
theorem conditions_eq_nil_of_indexed (hidx : user.Indexed E)
    (hcond : ∀ perm ∈ user.permissions, perm.conditions.isNone = true) :
    ∀ st ∈ IamPolicy.statements user.iamPolicies, st.conditions = [] := by
  intro st hst
  rw [hidx] at hst
  obtain ⟨perm, hperm, -, -, hnone⟩ := mem_statements_permissionToIamPolicy hst
  exact hnone (hcond perm hperm)

theorem canWithContext_context_free (hE : E.Aws others) (hidx : user.Indexed E)
    (hcond : ∀ perm ∈ user.permissions, perm.conditions.isNone = true)
    (action : S3Action) (bucket key : String) (context context' : Context) :
    user.canWithContext E action bucket key context =
      user.canWithContext E action bucket key context' := by
  have hnil := conditions_eq_nil_of_indexed hidx hcond
  unfold AuthenticatedUser.canWithContext
  split
  · rw [evaluateIam_context_free hE hnil _ _ _ context, evaluateIam_context_free hE hnil _ _ _ context']
  · rfl

/-- An unfiltered LIST scope is given only with the bucket-level LIST granted. -/
theorem canWithContext_of_unrestricted {bucket requested : String} {context : Context}
    (h : (listAuthorization E user bucket requested context).2.map ListScope.isUnrestricted =
      some true) :
    user.canWithContext E .list bucket "" context = true := by
  unfold listAuthorization at h
  split at h
  · next hcan => exact hcan
  -- every other branch refuses, or lets the LIST through filtered
  · split at h
    · cases h
    · split at h
      · cases h
      · split at h <;> cases h

end Grants

/-! ## Where the predicates and the grants disagree -/

/-- Reading every bucket whose name starts with `prod`. -/
def prodPermissions : List Permission := [⟨0, "Allow", ["read"], ["prod*"], none⟩]

/-- ListBuckets hides `production` from a user who may read in it. -/
theorem bucket_wildcard_hidden (E : Engine) (others : OtherOperators) (hE : E.Aws others)
    (urlEncode : String → String) (username accessKeyId : String) :
    validatePermissions E prodPermissions = .ok () ∧
      (indexedUser E urlEncode username accessKeyId prodPermissions).can E .read "production" "x" = true ∧
      (indexedUser E urlEncode username accessKeyId prodPermissions).canSeeBucket "production" = false := by
  rw [indexedUser_of_plain (by decide), validatePermissions_reference hE (by decide),
    AuthenticatedUser.can_reference hE]
  exact ⟨rfl, rfl, rfl⟩

theorem bucket_wildcard_hidden_alice :
    (Engine.reference fun _ _ _ => false).Aws (fun _ _ _ => false) ∧
      validatePermissions (Engine.reference fun _ _ _ => false) prodPermissions = .ok () ∧
      (indexedUser (Engine.reference fun _ _ _ => false) Auth.urlEncode "alice" "AK" prodPermissions).can
        (Engine.reference fun _ _ _ => false) .read "production" "x" = true ∧
      (indexedUser (Engine.reference fun _ _ _ => false) Auth.urlEncode "alice" "AK" prodPermissions).canSeeBucket
        "production" = false :=
  ⟨IamPolicy.Engine.reference_aws _,
    bucket_wildcard_hidden _ _ (IamPolicy.Engine.reference_aws _) Auth.urlEncode "alice" "AK"⟩

/-- Without a wildcard in a bucket name, ListBuckets shows every bucket the
user may act on. -/
theorem canSeeBucket_of_can {E : Engine} {others : OtherOperators} (hE : E.Aws others)
    {user : AuthenticatedUser} (hidx : user.Indexed E)
    (heffect : ∀ perm ∈ user.permissions, perm.effect = "Allow" ∨ perm.effect = "Deny")
    (hnames : ∀ perm ∈ user.permissions, ∀ res ∈ perm.resources, NamesBucket res)
    {action : S3Action} {bucket key : String} (hbucket : '/' ∉ bucket.toList)
    (hcan : user.can E action bucket key = true) : user.canSeeBucket bucket = true := by
  unfold AuthenticatedUser.can at hcan
  split at hcan
  · -- the policy engine granted: an `Allow` statement of some permission applies
    obtain ⟨arn, harn, hallow⟩ := evaluateIam_eq_true hcan
    rw [hE.evaluate_eq] at hallow
    obtain ⟨st, hst, happ, hsteff⟩ := (IamPolicy.decision_eq_allow.mp (Except.ok.inj hallow)).1
    rw [hidx] at hst
    obtain ⟨perm, hperm, hpermEff, hres, -⟩ := mem_statements_permissionToIamPolicy hst
    have hallowPerm : perm.effect = "Allow" := by
      rcases heffect perm hperm with h | h
      · exact h
      · rw [if_pos h] at hpermEff
        rw [hpermEff] at hsteff
        cases hsteff
    simp only [IamPolicy.Statement.applies, Bool.and_eq_true, List.any_eq_true, hres, List.mem_map]
      at happ
    obtain ⟨⟨-, _, ⟨res, hres', rfl⟩, hmatch⟩, -⟩ := happ
    -- the request's ARN is the bucket's, or a path in it
    have htext : ∃ tail, arn.toList = "arn:aws:s3:::".toList ++ bucket.toList ++ tail ∧
        (tail = [] ∨ ∃ t, tail = '/' :: t) := by
      rcases harn with rfl | ⟨-, rfl⟩
      · rw [toList_buildResourceArn]
        split
        · exact ⟨[], rfl, .inl rfl⟩
        · exact ⟨_, rfl, .inr ⟨_, rfl⟩⟩
      · exact ⟨['/'], by simp [String.toList_append], .inr ⟨[], rfl⟩⟩
    obtain ⟨tail, htext, htail⟩ := htext
    unfold globMatch at hmatch
    rw [htext] at hmatch
    have hsees := namesBucket_of_accepts (hnames perm hperm res hres') hbucket htail hmatch
    unfold AuthenticatedUser.canSeeBucket hasAnyOnBucket
    rw [List.any_eq_true]
    refine ⟨perm, hperm, ?_⟩
    rw [hallowPerm, beq_self_eq_true, Bool.true_and, List.any_eq_true]
    refine ⟨res, hres', ?_⟩
    rcases hsees with h | h | h
    · simp [h]
    · simp [h]
    · simp [startsWith_iff.mpr h]
  · next hempty =>
    -- no policies, so no permissions: the legacy evaluation grants nothing
    simp only [Bool.not_eq_true', List.isEmpty_eq_false_iff, ne_eq, Decidable.not_not] at hempty
    rw [hidx, List.map_eq_nil_iff] at hempty
    rw [hempty] at hcan
    simp [evaluate] at hcan

/-- Reading in the buckets under `docs/`. -/
def readDocsPermissions : List Permission := [⟨0, "Allow", ["read"], ["docs/*"], none⟩]

theorem canSeeBucket_of_can_docs :
    (indexedUser (Engine.reference fun _ _ _ => false) Auth.urlEncode "alice" "AK" readDocsPermissions).can
        (Engine.reference fun _ _ _ => false) .read "docs" "x" = true ∧
      (indexedUser (Engine.reference fun _ _ _ => false) Auth.urlEncode "alice" "AK"
        readDocsPermissions).canSeeBucket "docs" = true :=
  have hplain : indexedUser (Engine.reference fun _ _ _ => false) Auth.urlEncode "alice" "AK" readDocsPermissions =
      ⟨"alice", "AK", readDocsPermissions,
        readDocsPermissions.map (permissionToIamPolicy (Engine.reference fun _ _ _ => false))⟩ :=
    indexedUser_of_plain (by decide) "alice" "AK"
  have hcan : (indexedUser (Engine.reference fun _ _ _ => false) Auth.urlEncode "alice" "AK"
      readDocsPermissions).can (Engine.reference fun _ _ _ => false) .read "docs" "x" = true := by
    rw [hplain]
    rfl
  have heffect : ∀ perm ∈ (indexedUser (Engine.reference fun _ _ _ => false) Auth.urlEncode "alice" "AK"
      readDocsPermissions).permissions, perm.effect = "Allow" ∨ perm.effect = "Deny" := by
    rw [hplain]
    decide
  have hnames : ∀ perm ∈ (indexedUser (Engine.reference fun _ _ _ => false) Auth.urlEncode "alice" "AK"
      readDocsPermissions).permissions, ∀ res ∈ perm.resources, NamesBucket res := by
    rw [hplain]
    decide
  have hidx : (indexedUser (Engine.reference fun _ _ _ => false) Auth.urlEncode "alice" "AK"
      readDocsPermissions).Indexed (Engine.reference fun _ _ _ => false) := rfl
  ⟨hcan, canSeeBucket_of_can (IamPolicy.Engine.reference_aws _) hidx heffect hnames (by decide) hcan⟩

section Anonymous

variable {E : Engine} {others : OtherOperators} {bucket : String} {publicPrefixes : List String}

theorem buildAnonymousUser_indexed : (buildAnonymousUser E bucket publicPrefixes).Indexed E := rfl

/-- Every rule of the anonymous user allows. -/
theorem buildAnonymousUser_effect :
    ∀ st ∈ IamPolicy.statements (buildAnonymousUser E bucket publicPrefixes).iamPolicies,
      st.effect = .allow := by
  intro st hst
  rw [buildAnonymousUser_indexed] at hst
  obtain ⟨perm, hperm, heff, -, -⟩ := mem_statements_permissionToIamPolicy hst
  obtain ⟨pre, -, hmem⟩ := List.mem_flatMap.mp hperm
  have hallow : perm.effect = "Allow" := by
    unfold anonymousPermissions at hmem
    simp only [List.mem_cons, List.not_mem_nil, or_false] at hmem
    rcases hmem with rfl | rfl
    · rfl
    · split <;> rfl
  rw [heff, hallow, if_neg (show ¬ ("Allow" = "Deny") by decide)]

/-- The bucket-paths pattern `bucket/*` matches the ARN `bucket/`. -/
theorem globMatch_bucket_paths (bucket : String) :
    globMatch (resourceToArn (bucket ++ "/*")) ("arn:aws:s3:::" ++ bucket ++ "/") = true := by
  have hne : bucket ++ "/*" ≠ "*" := fun h => by
    have hlen := congrArg String.length h
    simp only [String.length_append] at hlen
    have : "/*".length = 2 := by decide
    have : "*".length = 1 := by decide
    omega
  rw [resourceToArn, if_neg hne,
    show "arn:aws:s3:::" ++ (bucket ++ "/*") = "arn:aws:s3:::" ++ bucket ++ "/" ++ "*" by
      simp only [String.append_assoc]; rfl]
  exact IamPolicy.globMatch_append_star_of_prefix List.prefix_rfl

/-- The patterns of the `s3:prefix` condition of a public prefix. -/
theorem anonymousPermissions_list {pre : String} (hpre : pre.isEmpty = false) :
    ∃ patterns, patterns ≠ [] ∧ pre ++ "*" ∈ patterns ∧
      anonymousPermissions bucket pre = [⟨0, "Allow", ["read"], [bucket ++ "/" ++ pre ++ "*"], none⟩,
        ⟨0, "Allow", ["list"], [bucket ++ "/*"],
          some (.obj [("StringLike", .obj [("s3:prefix", .arr (patterns.map .str))])])⟩] := by
  unfold anonymousPermissions
  rw [if_neg (by simp [hpre])]
  split
  · exact ⟨_, List.cons_ne_nil _ _, by simp, rfl⟩
  · exact ⟨_, List.cons_ne_nil _ _, List.mem_singleton_self _, rfl⟩

/-- Every condition block of the anonymous user is one string condition. -/
theorem anonymousPermissions_stringConditions (pre : String) :
    ∀ perm ∈ anonymousPermissions bucket pre, perm.StringConditions = true := by
  cases hpre : pre.isEmpty
  · obtain ⟨patterns, hne, -, heq⟩ := @anonymousPermissions_list bucket pre hpre
    rw [heq]
    intro perm hperm
    simp only [List.mem_cons, List.not_mem_nil, or_false] at hperm
    rcases hperm with rfl | rfl
    · rfl
    · simp [Permission.StringConditions, IamPolicy.stringCondition?_stringLike _ hne]
  · intro perm hperm
    unfold anonymousPermissions at hperm
    simp only [hpre, if_true, List.mem_cons, List.not_mem_nil, or_false] at hperm
    rcases hperm with rfl | rfl <;> rfl

/-- The anonymous user built with an engine with the AWS laws is the one built
with the reference engine. -/
theorem buildAnonymousUser_reference (hE : E.Aws others) :
    buildAnonymousUser E bucket publicPrefixes = buildAnonymousUser (Engine.reference others) bucket publicPrefixes := by
  unfold buildAnonymousUser
  dsimp only
  congr 1
  refine List.map_congr_left fun perm hperm => permissionToIamPolicy_reference hE ?_
  obtain ⟨pre, -, hmem⟩ := List.mem_flatMap.mp hperm
  exact anonymousPermissions_stringConditions pre perm hmem

/-- The LIST rule of a public prefix `pre`: its conditions parse, and hold for
every `s3:prefix` that `pre` heads. -/
theorem anonymous_list_rule (hE : E.Aws others) {pre key : String} (hkey : pre.toList <+: key.toList) :
    ∃ perm ∈ anonymousPermissions bucket pre, perm.actions = ["list"] ∧
      perm.resources = [bucket ++ "/*"] ∧ ∃ conds,
        perm.conditions.elim (Except.ok []) E.parseConditionBlock = Except.ok conds ∧
        conds.all (Condition.holds others (Context.empty.withString "s3:prefix" key)) = true := by
  cases hpre : pre.isEmpty
  · obtain ⟨patterns, hne, hmem, heq⟩ := @anonymousPermissions_list bucket pre hpre
    rw [heq]
    refine ⟨_, List.mem_cons_of_mem _ (List.mem_singleton_self _), rfl, rfl, _,
      hE.parseConditionBlock_string _ _ (IamPolicy.stringCondition?_stringLike _ hne), ?_⟩
    -- `pre*` is among the prefix's patterns, and heads the key
    rw [List.all_cons, List.all_nil, Bool.and_true,
      IamPolicy.Condition.holds_stringLike (IamPolicy.Context.withString_self _ _ _)]
    exact List.any_eq_true.mpr ⟨pre ++ "*", hmem, IamPolicy.globMatch_append_star_of_prefix hkey⟩
  · unfold anonymousPermissions
    rw [if_pos (by simp [hpre])]
    exact ⟨_, List.mem_cons_of_mem _ (List.mem_singleton_self _), rfl, rfl, [], rfl, rfl⟩

theorem anonymous_list_applies (hE : E.Aws others) {pre key : String} (hpre : pre ∈ publicPrefixes)
    (hkey : pre.toList <+: key.toList) :
    ∃ st ∈ IamPolicy.statements (buildAnonymousUser E bucket publicPrefixes).iamPolicies,
      st.applies others ⟨S3Action.list.toIamAction, "arn:aws:s3:::" ++ bucket ++ "/",
        Context.empty.withString "s3:prefix" key⟩ = true := by
  obtain ⟨perm, hperm, hact, hres, conds, hparse, hholds⟩ := @anonymous_list_rule E others bucket hE pre key hkey
  have hperm' : perm ∈ (buildAnonymousUser E bucket publicPrefixes).permissions :=
    List.mem_flatMap.mpr ⟨pre, hpre, hperm⟩
  have hin := mem_statements_of_mem hperm' (mem_permissionToIamPolicy hparse)
  rw [← buildAnonymousUser_indexed] at hin
  refine ⟨_, hin, ?_⟩
  -- its action and resource match, and its conditions hold
  unfold IamPolicy.Statement.applies
  dsimp only
  rw [hact, hres, hholds, Bool.and_true]
  simp only [List.map_cons, List.map_nil, List.any_cons, List.any_nil, Bool.or_false,
    globMatch_bucket_paths, Bool.and_true]
  decide

/-- The anonymous user sees every key under a public prefix of a named bucket. -/
theorem anonymous_sees_public_keys (hE : E.Aws others) {pre key : String} (hbucket : bucket ≠ "")
    (hpre : pre ∈ publicPrefixes) (hkey : pre.toList <+: key.toList) :
    userCanSeeListedKey E (buildAnonymousUser E bucket publicPrefixes) bucket key = true := by
  obtain ⟨st, hst, happ⟩ := @anonymous_list_applies E others bucket publicPrefixes hE pre key hpre hkey
  have hnoDeny : ∀ req, IamPolicy.decision others (buildAnonymousUser E bucket publicPrefixes).iamPolicies req ≠
      .deny := by
    intro req hdeny
    obtain ⟨st', hst', -, heff⟩ := IamPolicy.decision_eq_deny.mp hdeny
    rw [buildAnonymousUser_effect st' hst'] at heff
    cases heff
  have hallow := IamPolicy.decision_eq_allow.mpr
    ⟨⟨st, hst, happ, buildAnonymousUser_effect st hst⟩, fun st' hst' _ hdeny => by
      rw [buildAnonymousUser_effect st' hst'] at hdeny
      cases hdeny⟩
  have hpolicies : (buildAnonymousUser E bucket publicPrefixes).iamPolicies.isEmpty = false := by
    obtain ⟨pol, hpol, -⟩ := List.mem_flatMap.mp hst
    exact List.isEmpty_eq_false_iff_exists_mem.mpr ⟨pol, hpol⟩
  have hlist : canListPrefixWithContext E (buildAnonymousUser E bucket publicPrefixes) bucket key = true := by
    unfold canListPrefixWithContext AuthenticatedUser.canWithContext
    simp only [hpolicies, Bool.not_false, ↓reduceIte]
    exact evaluateIam_bucket_retry hE hbucket (hnoDeny _) hallow
  unfold userCanSeeListedKey
  rw [hlist, Bool.or_true]

end Anonymous

/-- Listing only under `docs/a`: prefix-scoped browsing of `b`. -/
def docsPermissions : List Permission :=
  [⟨0, "Allow", ["list"], ["b"], some (.obj [("StringLike", .obj [("s3:prefix", .str "docs/a*")])])⟩]

/-- Listing `b`, except with an `s3:prefix` that starts with `secret`. -/
def secretDenyPermissions : List Permission :=
  [⟨0, "Allow", ["list"], ["b"], none⟩,
   ⟨1, "Deny", ["list"], ["b"], some (.obj [("StringLike", .obj [("s3:prefix", .str "secret*")])])⟩]

/-- The root LIST of `b` is let through unfiltered, while the filter it
skips hides `secret/x`. -/
theorem unrestricted_list_skips_deny (E : Engine) (others : OtherOperators) (hE : E.Aws others)
    (urlEncode : String → String) :
    validatePermissions E secretDenyPermissions = .ok () ∧
      (listAuthorization E (indexedUser E urlEncode "alice" "AK" secretDenyPermissions) "b" ""
        (Context.empty.withString "s3:prefix" "")).1 = true ∧
      ((listAuthorization E (indexedUser E urlEncode "alice" "AK" secretDenyPermissions) "b" ""
        (Context.empty.withString "s3:prefix" "")).2.map ListScope.isUnrestricted) = some true ∧
      userCanSeeListedKey E (indexedUser E urlEncode "alice" "AK" secretDenyPermissions) "b" "secret/x" =
        false := by
  -- no template in the rules, so the index keeps them as they are
  have hexp : expandPermissionTemplates urlEncode secretDenyPermissions "alice" "AK" =
      .ok secretDenyPermissions := rfl
  rw [indexedUser_reference hE hexp (by decide), indexedUser_eq hexp,
    validatePermissions_reference hE (by decide), listAuthorization_reference hE,
    userCanSeeListedKey_reference hE]
  exact ⟨rfl, rfl, rfl, rfl⟩

theorem unrestricted_list_skips_deny_alice :
    (Engine.reference fun _ _ _ => false).Aws (fun _ _ _ => false) ∧
      validatePermissions (Engine.reference fun _ _ _ => false) secretDenyPermissions = .ok () ∧
      (listAuthorization (Engine.reference fun _ _ _ => false)
        (indexedUser (Engine.reference fun _ _ _ => false) Auth.urlEncode "alice" "AK" secretDenyPermissions) "b" ""
        (Context.empty.withString "s3:prefix" "")).1 = true ∧
      ((listAuthorization (Engine.reference fun _ _ _ => false)
        (indexedUser (Engine.reference fun _ _ _ => false) Auth.urlEncode "alice" "AK" secretDenyPermissions) "b" ""
        (Context.empty.withString "s3:prefix" "")).2.map ListScope.isUnrestricted) = some true ∧
      userCanSeeListedKey (Engine.reference fun _ _ _ => false)
        (indexedUser (Engine.reference fun _ _ _ => false) Auth.urlEncode "alice" "AK" secretDenyPermissions)
        "b" "secret/x" = false :=
  ⟨IamPolicy.Engine.reference_aws _,
    unrestricted_list_skips_deny _ _ (IamPolicy.Engine.reference_aws _) Auth.urlEncode⟩

/-- Without conditions an unfiltered LIST hides nothing the filter it skips
would show: the filter's own bucket-level LIST passes for every key. -/
theorem unrestricted_list_sees_all {E : Engine} {others : OtherOperators} (hE : E.Aws others)
    {user : AuthenticatedUser} (hidx : user.Indexed E)
    (hcond : ∀ perm ∈ user.permissions, perm.conditions.isNone = true)
    {bucket requested : String} {context : Context}
    (hscope : (listAuthorization E user bucket requested context).2.map ListScope.isUnrestricted =
      some true)
    (key : String) : userCanSeeListedKey E user bucket key = true := by
  have hlist : canListPrefixWithContext E user bucket key = true := by
    unfold canListPrefixWithContext
    rw [canWithContext_context_free hE hidx hcond _ _ _ _ context]
    exact canWithContext_of_unrestricted hscope
  unfold userCanSeeListedKey
  rw [hlist, Bool.or_true]

/-- Listing `b` with no condition. -/
def listPermissions : List Permission := [⟨0, "Allow", ["list"], ["b"], none⟩]

theorem unrestricted_list_sees_all_plain :
    ((listAuthorization (Engine.reference fun _ _ _ => false)
        (indexedUser (Engine.reference fun _ _ _ => false) Auth.urlEncode "alice" "AK" listPermissions) "b" ""
        (Context.empty.withString "s3:prefix" "")).2.map ListScope.isUnrestricted) = some true ∧
      userCanSeeListedKey (Engine.reference fun _ _ _ => false)
        (indexedUser (Engine.reference fun _ _ _ => false) Auth.urlEncode "alice" "AK" listPermissions)
        "b" "secret/x" = true :=
  have hplain : indexedUser (Engine.reference fun _ _ _ => false) Auth.urlEncode "alice" "AK" listPermissions =
      ⟨"alice", "AK", listPermissions,
        listPermissions.map (permissionToIamPolicy (Engine.reference fun _ _ _ => false))⟩ :=
    indexedUser_of_plain (by decide) "alice" "AK"
  have hscope : ((listAuthorization (Engine.reference fun _ _ _ => false)
      (indexedUser (Engine.reference fun _ _ _ => false) Auth.urlEncode "alice" "AK" listPermissions) "b" ""
      (Context.empty.withString "s3:prefix" "")).2.map ListScope.isUnrestricted) = some true := by
    rw [hplain]
    rfl
  have hcond : ∀ perm ∈ (indexedUser (Engine.reference fun _ _ _ => false) Auth.urlEncode "alice" "AK"
      listPermissions).permissions, perm.conditions.isNone = true := by
    rw [hplain]
    decide
  have hidx : (indexedUser (Engine.reference fun _ _ _ => false) Auth.urlEncode "alice" "AK"
      listPermissions).Indexed (Engine.reference fun _ _ _ => false) := rfl
  ⟨hscope, unrestricted_list_sees_all (IamPolicy.Engine.reference_aws _) hidx hcond hscope "secret/x"⟩

end DeltaGlider.Iam
