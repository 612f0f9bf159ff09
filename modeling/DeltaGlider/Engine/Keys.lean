import DeltaGlider.Engine.Backend

/-!
# Object keys

`ObjectKey::parse`, `full_key`, `validate_object` and `validate_ingest` of
`src/types.rs`, and the engine's `validated_key` / `validated_key_ingest`.
A key is split at its last `/` after its leading slashes are trimmed: the
part before is the deltaspace (the key's prefix), the part after the
filename.  The text functions run over the key's characters.

    fullKey (parse key) = key without its leading slashes   (fullKey_parse)
    parse key = parse key' ↔ they agree without them         (parse_eq_parse_iff)
    parse ("/" ++ key) = parse key                           (parse_slash_append)
-/

namespace DeltaGlider

/-- `ObjectKey` (the bucket is fixed by the engine call). -/
structure ObjectKey where
  prefixPath : String
  filename : String
  deriving DecidableEq, Repr

/-- `k.rfind(c)` as a split: the text before the last `c` and after it, or
`none` when `c` does not occur. -/
def splitAtLast (c : Char) : List Char → Option (List Char × List Char)
  | [] => none
  | x :: xs =>
    match splitAtLast c xs with
    | some (before, after) => some (x :: before, after)
    | none => if x = c then some ([], xs) else none

theorem splitAtLast_eq_none {c : Char} {k : List Char} (h : splitAtLast c k = none) : c ∉ k := by
  induction k with
  | nil => exact List.not_mem_nil
  | cons x xs ih =>
    unfold splitAtLast at h
    split at h
    · cases h
    · rename_i hs
      split at h
      · cases h
      · rename_i hx
        rw [List.mem_cons, not_or]
        exact ⟨fun e => hx e.symm, ih hs⟩

theorem splitAtLast_eq_some {c : Char} {k before after : List Char}
    (h : splitAtLast c k = some (before, after)) : k = before ++ c :: after ∧ c ∉ after := by
  induction k generalizing before with
  | nil => cases h
  | cons x xs ih =>
    unfold splitAtLast at h
    split at h
    · rename_i b a hs
      obtain ⟨rfl, rfl⟩ : x :: b = before ∧ a = after := by simpa using h
      obtain ⟨rfl, hc⟩ := ih hs
      exact ⟨rfl, hc⟩
    · rename_i hs
      split at h
      · rename_i hx
        obtain ⟨rfl, rfl⟩ : [] = before ∧ xs = after := by simpa using h
        exact ⟨by simp [hx], splitAtLast_eq_none hs⟩
      · cases h

theorem splitAtLast_append {c : Char} (before after : List Char) (h : c ∉ after) :
    splitAtLast c (before ++ c :: after) = some (before, after) := by
  induction before with
  | nil =>
    have hnone : splitAtLast c after = none := by
      cases hs : splitAtLast c after with
      | none => rfl
      | some p =>
        obtain ⟨hk, -⟩ := splitAtLast_eq_some hs
        exact absurd (hk ▸ List.mem_append_right p.1 List.mem_cons_self) h
    simp [splitAtLast, hnone]
  | cons x xs ih => simp [splitAtLast, ih]

namespace ObjectKey

/-- The key with its leading slashes trimmed (`trim_start_matches('/')`). -/
def trimmed (key : String) : List Char := key.toList.dropWhile (· == '/')

/-- `ObjectKey::parse`. -/
def parse (key : String) : ObjectKey :=
  match splitAtLast '/' (trimmed key) with
  | some (before, after) => ⟨String.ofList before, String.ofList after⟩
  | none => ⟨"", String.ofList (trimmed key)⟩

/-- `full_key`. -/
def fullKey (o : ObjectKey) : String :=
  if o.prefixPath.isEmpty then o.filename else o.prefixPath ++ "/" ++ o.filename

/-- `deltaspace_id`: the prefix. -/
def deltaspaceId (o : ObjectKey) : String := o.prefixPath

theorem trimmed_head {key : String} {k : List Char} (h : trimmed key = '/' :: k) : False := by
  have hne : trimmed key ≠ [] := by simp [h]
  have := List.head_dropWhile_not (· == '/') hne
  simp only [trimmed] at h
  simp [h] at this

theorem fullKey_parse (key : String) : (parse key).fullKey = String.ofList (trimmed key) := by
  unfold parse
  split
  · rename_i before after hs
    obtain ⟨hk, -⟩ := splitAtLast_eq_some hs
    cases before with
    | nil => exact (trimmed_head hk).elim
    | cons x xs =>
      rw [hk]
      simp [fullKey, String.ofList_append, String.append_assoc]
  · simp [fullKey]

theorem parse_eq_parse_iff (key key' : String) : parse key = parse key' ↔ trimmed key = trimmed key' := by
  constructor
  · intro h
    have h' := congrArg fullKey h
    rw [fullKey_parse, fullKey_parse] at h'
    simpa using congrArg String.toList h'
  · intro h
    simp only [parse, h]

theorem parse_slash_append (key : String) : parse ("/" ++ key) = parse key := by
  rw [parse_eq_parse_iff]
  simp [trimmed]

/-! ## Validation -/

/-- `validate_key_path`. -/
def validateKeyPath (value : String) (allowSlashes : Bool) : Except String Unit :=
  if '\x00' ∈ value.toList then .error "Key must not contain NUL bytes"
  else if '\\' ∈ value.toList then .error "Key must not contain backslashes"
  else if !allowSlashes && '/' ∈ value.toList then .error "Key must not contain '/'"
  else if ['.', '.'] ∈ value.toList.splitOn '/' then
    .error "Key must not contain '..' path segments"
  else .ok ()

/-- `validate_object`. -/
def validateObject (o : ObjectKey) : Except String Unit := do
  validateKeyPath o.prefixPath true
  validateKeyPath o.filename false
  if o.filename.isEmpty then throw "Object key must not be empty"
  if o.filename = "." ∨ o.filename = ".." then throw "Invalid object filename"
  if o.filename = "reference.bin" then
    throw "Object key 'reference.bin' is reserved for internal use"
  if ".delta".toList <:+ o.filename.toList then
    throw "Object keys ending in '.delta' are reserved for internal use"

/-- `validate_ingest`: also no empty segment (`//`) in the prefix once its
trailing slashes are trimmed. -/
def validateIngest (o : ObjectKey) : Except String Unit := do
  validateObject o
  if ['/', '/'] <:+: (o.prefixPath.toList.reverse.dropWhile (· == '/')).reverse then
    throw "Key must not contain empty path segments ('//')"

theorem validateKeyPath_ok {value : String} {allowSlashes : Bool}
    (h : validateKeyPath value allowSlashes = .ok ()) :
    '\x00' ∉ value.toList ∧ '\\' ∉ value.toList ∧ (allowSlashes = false → '/' ∉ value.toList) ∧
      ['.', '.'] ∉ value.toList.splitOn '/' := by
  unfold validateKeyPath at h
  split at h
  · cases h
  split at h
  · cases h
  split at h
  · cases h
  split at h
  · cases h
  rename_i h1 h2 h3 h4
  exact ⟨h1, h2, fun hs hm => h3 (by simp [hs, hm]), h4⟩

/-- What `validate_object` accepts, check by check. -/
theorem validateObject_eq_ok (o : ObjectKey) :
    validateObject o = .ok () ↔ validateKeyPath o.prefixPath true = .ok () ∧
      validateKeyPath o.filename false = .ok () ∧ o.filename.isEmpty = false ∧
      ¬(o.filename = "." ∨ o.filename = "..") ∧ o.filename ≠ "reference.bin" ∧
      ¬ ".delta".toList <:+ o.filename.toList := by
  unfold validateObject
  rcases validateKeyPath o.prefixPath true with e | ⟨⟩
  · simp [bind, Except.bind]
  rcases validateKeyPath o.filename false with e | ⟨⟩
  · simp [bind, Except.bind]
  -- the four guards of the source, in its order
  by_cases h1 : o.filename.isEmpty <;> by_cases h2 : o.filename = "." ∨ o.filename = ".." <;>
    by_cases h3 : o.filename = "reference.bin" <;> by_cases h4 : ".delta".toList <:+ o.filename.toList <;>
    simp_all [bind, Except.bind, throw, throwThe, MonadExceptOf.throw, pure, Except.pure]

/-- A filename `validate_object` accepts is a single non-empty segment that
names none of the internal objects. -/
theorem validateObject_filename {o : ObjectKey} (h : validateObject o = .ok ()) :
    o.filename ≠ "" ∧ '/' ∉ o.filename.toList ∧ o.filename ≠ "reference.bin" ∧
      ¬ ".delta".toList <:+ o.filename.toList := by
  obtain ⟨-, hf, he, -, hr, hd⟩ := (validateObject_eq_ok o).mp h
  exact ⟨fun h0 => by simp [h0] at he, (validateKeyPath_ok hf).2.2.1 rfl, hr, hd⟩

theorem validateObject_of_validateIngest {o : ObjectKey} (h : validateIngest o = .ok ()) :
    validateObject o = .ok () := by
  unfold validateIngest at h
  cases hv : validateObject o with
  | error e => simp [hv] at h; cases h
  | ok u => rfl

end ObjectKey

open ObjectKey

/-- `validated_key`: parse, validate for GET/HEAD/DELETE, and the deltaspace. -/
def validatedKey (key : String) : Except EngineError (ObjectKey × String) :=
  let o := parse key
  match validateObject o with
  | .error e => .error (.invalidArgument e)
  | .ok () => .ok (o, o.deltaspaceId)

/-- `validated_key_ingest`: the same with the stricter PUT validation. -/
def validatedKeyIngest (key : String) : Except EngineError (ObjectKey × String) :=
  let o := parse key
  match validateIngest o with
  | .error e => .error (.invalidArgument e)
  | .ok () => .ok (o, o.deltaspaceId)

theorem validatedKey_ok {key : String} {o : ObjectKey} {ds : String}
    (h : validatedKey key = .ok (o, ds)) :
    o = parse key ∧ ds = o.prefixPath ∧ validateObject o = .ok () := by
  unfold validatedKey at h
  dsimp only at h
  split at h
  · cases h
  · rename_i hv
    obtain ⟨rfl, rfl⟩ : parse key = o ∧ (parse key).deltaspaceId = ds := by simpa using h
    exact ⟨rfl, rfl, hv⟩

/-- A key accepted for a PUT is accepted for a GET, with the same parts. -/
theorem validatedKey_of_ingest {key : String} {o : ObjectKey} {ds : String}
    (h : validatedKeyIngest key = .ok (o, ds)) : validatedKey key = .ok (o, ds) := by
  unfold validatedKeyIngest at h
  dsimp only at h
  split at h
  · cases h
  · rename_i hv
    have ho := validateObject_of_validateIngest hv
    unfold validatedKey
    dsimp only
    rw [ho]
    exact h

theorem validatedKeyIngest_ok {key : String} {o : ObjectKey} {ds : String}
    (h : validatedKeyIngest key = .ok (o, ds)) :
    o = parse key ∧ ds = o.prefixPath ∧ validateObject o = .ok () :=
  validatedKey_ok (validatedKey_of_ingest h)

example : validatedKeyIngest "releases/v1/app.zip" =
    .ok (⟨"releases/v1", "app.zip"⟩, "releases/v1") := by decide

example : validatedKeyIngest "a//b.zip" = .ok (⟨"a/", "b.zip"⟩, "a/") := by decide

example : validatedKeyIngest "a//b/c.zip" =
    .error (.invalidArgument "Key must not contain empty path segments ('//')") := by decide

end DeltaGlider
