import DeltaGlider.Engine.Keys

/-!
# Where the filesystem backend stores a key

The path constructors of `FilesystemBackend` (`src/storage/filesystem.rs`):
`<root>/<bucket>/deltaspaces[/<prefix>]` for a deltaspace, and in it
`reference.bin`, `<filename>.delta` and the passthrough `<filename>`.  Paths
are joined as `Path::join` does on Unix, and looked up as the kernel does:
component by component, with empty and `.` components skipped and `..` going
up one (`resolve`).

    resolve_join             looking up a joined path continues from the looked-up base
    storage_paths_confined   for every key `validate_ingest` accepts, the three paths
                             lie under `<root>/<bucket>/deltaspaces`
    filesystem_key_aliases   `a/./f.txt` and `a//f.txt` pass `validate_ingest` and are
                             stored in the files of `a/f.txt`
-/

namespace DeltaGlider.Filesystem

open ObjectKey

/-! ## Paths -/

/-- `Path::join` on Unix: an absolute part replaces the path; a relative one
is appended, after a `/` unless the path is empty or already ends in one. -/
def join (path part : String) : String :=
  if part.toList.head? = some '/' then part
  else if path.toList.getLast?.all (· == '/') then path ++ part
  else path ++ "/" ++ part

/-- `bucket_dir`. -/
def bucketDir (root bucket : String) : String := join root bucket

/-- `bucket_dir(bucket).join("deltaspaces")`, under which every deltaspace lies. -/
def deltaspacesRoot (root bucket : String) : String := join (bucketDir root bucket) "deltaspaces"

/-- `deltaspace_dir`. -/
def deltaspaceDir (root bucket prefixPath : String) : String :=
  if prefixPath.isEmpty then deltaspacesRoot root bucket
  else join (deltaspacesRoot root bucket) prefixPath

/-- `reference_path`. -/
def referencePath (root bucket prefixPath : String) : String :=
  join (deltaspaceDir root bucket prefixPath) "reference.bin"

/-- `delta_path`. -/
def deltaPath (root bucket prefixPath filename : String) : String :=
  join (deltaspaceDir root bucket prefixPath) (filename ++ ".delta")

/-- `passthrough_path`. -/
def passthroughPath (root bucket prefixPath filename : String) : String :=
  join (deltaspaceDir root bucket prefixPath) filename

/-- One component of a lookup: empty and `.` stay, `..` goes up one, any
other component goes down into it. -/
def resolveStep (dirs : List (List Char)) (c : List Char) : List (List Char) :=
  if c = [] ∨ c = ['.'] then dirs
  else if c = ['.', '.'] then dirs.dropLast
  else dirs ++ [c]

/-- The directories a path is looked up through, as the kernel walks it. -/
def resolve (path : String) : List (List Char) :=
  (path.toList.splitOn '/').foldl resolveStep []

/-! ## Looking up joined paths -/

theorem foldl_resolveStep_nil_component (dirs : List (List Char)) :
    [[]].foldl resolveStep dirs = dirs := by
  simp [resolveStep]

/-- Looking up `path.join(part)` walks `part`'s components from where the
lookup of `path` ends. -/
theorem resolve_join {path part : String} (hpart : part.toList.head? ≠ some '/') :
    resolve (join path part) = (part.toList.splitOn '/').foldl resolveStep (resolve path) := by
  unfold join
  rw [if_neg hpart]
  split
  · next hend =>
    -- the path is empty, or its last char is `/`
    rcases List.eq_nil_or_concat path.toList with hnil | ⟨p, c, hp⟩
    · have hpath : path = "" := String.toList_eq_nil_iff.mp hnil
      subst hpath
      simp [resolve, resolveStep]
    · rw [List.concat_eq_append] at hp
      rw [hp, List.getLast?_concat, Option.all_some, beq_iff_eq] at hend
      subst hend
      have htext : (path ++ part).toList = p ++ '/' :: part.toList := by
        rw [String.toList_append, hp, List.append_assoc, List.singleton_append]
      unfold resolve
      rw [htext, hp, List.splitOn_append_cons_self, List.splitOn_append_cons_self, List.foldl_append,
        List.foldl_append, List.splitOn_nil, foldl_resolveStep_nil_component]
  · have htext : (path ++ "/" ++ part).toList = path.toList ++ '/' :: part.toList := by
      simp [String.toList_append]
    unfold resolve
    rw [htext, List.splitOn_append_cons_self, List.foldl_append]

/-- Without `..`, a lookup only goes down: into each component that is not
empty or `.`. -/
theorem foldl_resolveStep_of_plain {cs : List (List Char)} (hcs : ['.', '.'] ∉ cs)
    (dirs : List (List Char)) :
    cs.foldl resolveStep dirs = dirs ++ cs.filter (fun c => !(c = [] ∨ c = ['.'])) := by
  induction cs generalizing dirs with
  | nil => simp
  | cons c cs ih =>
    rw [List.mem_cons, not_or] at hcs
    rw [List.foldl_cons, ih hcs.2, List.filter_cons]
    unfold resolveStep
    by_cases hskip : c = [] ∨ c = ['.']
    · simp [hskip]
    · have hup : c ≠ ['.', '.'] := fun e => hcs.1 e.symm
      simp [hskip, hup]

/-- The lookup of a file in a deltaspace: the deltaspaces directory, then the
prefix's components, then the file's. -/
theorem resolve_inDeltaspace {root bucket prefixPath part : String}
    (hprefixPath : prefixPath.toList.head? ≠ some '/') (hpart : part.toList.head? ≠ some '/') :
    resolve (join (deltaspaceDir root bucket prefixPath) part) =
      (part.toList.splitOn '/').foldl resolveStep
        ((prefixPath.toList.splitOn '/').foldl resolveStep (resolve (deltaspacesRoot root bucket))) := by
  rw [resolve_join hpart]
  unfold deltaspaceDir
  split
  · next hempty =>
    rw [String.isEmpty_iff] at hempty
    subst hempty
    rw [String.toList_empty, List.splitOn_nil, foldl_resolveStep_nil_component]
  · rw [resolve_join hprefixPath]

/-! ## Keys -/

/-- A parsed key's prefix does not start with `/`: `parse` trims them. -/
theorem head_prefixPath_parse (key : String) : (parse key).prefixPath.toList.head? ≠ some '/' := by
  unfold parse
  split
  · next before after hsplit =>
    obtain ⟨htrim, -⟩ := splitAtLast_eq_some hsplit
    intro hhead
    cases before with
    | nil => cases hhead
    | cons c cs =>
      simp only [String.toList_ofList, List.head?_cons, Option.some.injEq] at hhead
      subst hhead
      exact trimmed_head htrim
  · simp

theorem head_ne_slash_of_not_mem {s : String} (h : '/' ∉ s.toList) : s.toList.head? ≠ some '/' := by
  intro hhead
  exact h (List.mem_of_head? hhead)

/-- A component that is not `..` is kept by a lookup without `..`. -/
theorem dotdot_not_mem_single {s : String} (hslash : '/' ∉ s.toList) (hdots : s ≠ "..") :
    ['.', '.'] ∉ s.toList.splitOn '/' := by
  rw [List.splitOn_eq_singleton hslash, List.mem_singleton]
  intro h
  exact hdots (String.toList_inj.mp (h.symm.trans (by decide)))

/-- For every key `validate_ingest` accepts, its passthrough and delta files
and its deltaspace's reference lie under `<root>/<bucket>/deltaspaces`. -/
theorem storage_paths_confined (root bucket key : String) (h : validateIngest (parse key) = .ok ()) :
    resolve (deltaspacesRoot root bucket) <+:
        resolve (passthroughPath root bucket (parse key).prefixPath (parse key).filename) ∧
      resolve (deltaspacesRoot root bucket) <+:
        resolve (deltaPath root bucket (parse key).prefixPath (parse key).filename) ∧
      resolve (deltaspacesRoot root bucket) <+: resolve (referencePath root bucket (parse key).prefixPath) := by
  have hobject := validateObject_of_validateIngest h
  obtain ⟨hpre, -, -, hdots, -, -⟩ := (validateObject_eq_ok _).mp hobject
  obtain ⟨-, hslash, -, -⟩ := validateObject_filename hobject
  have hpreDots := (validateKeyPath_ok hpre).2.2.2
  have hhead := head_prefixPath_parse key
  -- the deltaspace directory only goes down from the deltaspaces root
  have hbase := foldl_resolveStep_of_plain hpreDots (resolve (deltaspacesRoot root bucket))
  have hfileHead := head_ne_slash_of_not_mem hslash
  have hfileDots : ['.', '.'] ∉ (parse key).filename.toList.splitOn '/' :=
    dotdot_not_mem_single hslash (fun e => hdots (.inr e))
  -- `<filename>.delta` is one component, and not `..`
  have hdeltaSlash : '/' ∉ ((parse key).filename ++ ".delta").toList := by
    rw [String.toList_append, List.mem_append, not_or]
    exact ⟨hslash, by decide⟩
  have hdeltaHead : ((parse key).filename ++ ".delta").toList.head? ≠ some '/' :=
    head_ne_slash_of_not_mem hdeltaSlash
  have hdeltaDots : ['.', '.'] ∉ ((parse key).filename ++ ".delta").toList.splitOn '/' := by
    refine dotdot_not_mem_single hdeltaSlash fun e => ?_
    have hlen := congrArg String.length e
    simp only [String.length_append] at hlen
    have : ".delta".length = 6 := by decide
    have : "..".length = 2 := by decide
    omega
  refine ⟨?_, ?_, ?_⟩
  · unfold passthroughPath
    rw [resolve_inDeltaspace hhead hfileHead, foldl_resolveStep_of_plain hfileDots, hbase,
      List.append_assoc]
    exact List.prefix_append _ _
  · unfold deltaPath
    rw [resolve_inDeltaspace hhead hdeltaHead, foldl_resolveStep_of_plain hdeltaDots, hbase,
      List.append_assoc]
    exact List.prefix_append _ _
  · unfold referencePath
    rw [resolve_inDeltaspace hhead (by decide), foldl_resolveStep_of_plain (by decide), hbase,
      List.append_assoc]
    exact List.prefix_append _ _

/-- Two deltaspaces whose components walk alike below the deltaspaces root
share their reference, and a file name in one is the same file in the
other. -/
theorem paths_eq_of_walk {root bucket p q : String} (file : String)
    (hp : p.toList.head? ≠ some '/') (hq : q.toList.head? ≠ some '/')
    (hfile : file.toList.head? ≠ some '/')
    (hwalk : ∀ dirs, (p.toList.splitOn '/').foldl resolveStep dirs =
      (q.toList.splitOn '/').foldl resolveStep dirs) :
    resolve (passthroughPath root bucket p file) = resolve (passthroughPath root bucket q file) ∧
      resolve (deltaPath root bucket p file) = resolve (deltaPath root bucket q file) ∧
      resolve (referencePath root bucket p) = resolve (referencePath root bucket q) := by
  have hdelta : (file ++ ".delta").toList.head? ≠ some '/' := by
    rw [String.toList_append]
    cases hf : file.toList with
    | nil => decide
    | cons c cs =>
      rw [hf] at hfile
      exact hfile
  refine ⟨?_, ?_, ?_⟩
  · unfold passthroughPath
    rw [resolve_inDeltaspace hp hfile, resolve_inDeltaspace hq hfile, hwalk]
  · unfold deltaPath
    rw [resolve_inDeltaspace hp hdelta, resolve_inDeltaspace hq hdelta, hwalk]
  · unfold referencePath
    rw [resolve_inDeltaspace hp (by decide), resolve_inDeltaspace hq (by decide), hwalk]

/-- `a/./f.txt` and `a//f.txt` pass `validate_ingest`, and their passthrough
file, delta file and reference are those of `a/f.txt`, under every root and
bucket. -/
theorem filesystem_key_aliases (root bucket : String) :
    ∀ key ∈ ["a/./f.txt", "a//f.txt"], key ≠ "a/f.txt" ∧ validateIngest (parse key) = .ok () ∧
      resolve (passthroughPath root bucket (parse key).prefixPath (parse key).filename) =
        resolve (passthroughPath root bucket (parse "a/f.txt").prefixPath (parse "a/f.txt").filename) ∧
      resolve (deltaPath root bucket (parse key).prefixPath (parse key).filename) =
        resolve (deltaPath root bucket (parse "a/f.txt").prefixPath (parse "a/f.txt").filename) ∧
      resolve (referencePath root bucket (parse key).prefixPath) =
        resolve (referencePath root bucket (parse "a/f.txt").prefixPath) := by
  have hplain : parse "a/f.txt" = ⟨"a", "f.txt"⟩ := by decide
  intro key hkey
  simp only [List.mem_cons, List.not_mem_nil, or_false] at hkey
  rcases hkey with rfl | rfl
  · have hparse : parse "a/./f.txt" = ⟨"a/.", "f.txt"⟩ := by decide
    -- below the deltaspaces root, `a/.` walks the one component `a`
    have hwalk : ∀ dirs, ("a/.".toList.splitOn '/').foldl resolveStep dirs =
        ("a".toList.splitOn '/').foldl resolveStep dirs := by
      intro dirs
      rw [foldl_resolveStep_of_plain (by decide), foldl_resolveStep_of_plain (by decide)]
      congr 1
    rw [hparse, hplain]
    exact ⟨by decide, by decide, paths_eq_of_walk "f.txt" (by decide) (by decide) (by decide) hwalk⟩
  · have hparse : parse "a//f.txt" = ⟨"a/", "f.txt"⟩ := by decide
    -- and `a/` walks `a` and an empty component
    have hwalk : ∀ dirs, ("a/".toList.splitOn '/').foldl resolveStep dirs =
        ("a".toList.splitOn '/').foldl resolveStep dirs := by
      intro dirs
      rw [foldl_resolveStep_of_plain (by decide), foldl_resolveStep_of_plain (by decide)]
      congr 1
    rw [hparse, hplain]
    exact ⟨by decide, by decide, paths_eq_of_walk "f.txt" (by decide) (by decide) (by decide) hwalk⟩

theorem filesystem_key_aliases_dot_segment :
    "a/./f.txt" ≠ "a/f.txt" ∧ validateIngest (parse "a/./f.txt") = .ok () ∧
      resolve (passthroughPath "/data" "b" (parse "a/./f.txt").prefixPath (parse "a/./f.txt").filename) =
        resolve (passthroughPath "/data" "b" (parse "a/f.txt").prefixPath (parse "a/f.txt").filename) ∧
      resolve (deltaPath "/data" "b" (parse "a/./f.txt").prefixPath (parse "a/./f.txt").filename) =
        resolve (deltaPath "/data" "b" (parse "a/f.txt").prefixPath (parse "a/f.txt").filename) ∧
      resolve (referencePath "/data" "b" (parse "a/./f.txt").prefixPath) =
        resolve (referencePath "/data" "b" (parse "a/f.txt").prefixPath) :=
  filesystem_key_aliases "/data" "b" "a/./f.txt" (by simp)

end DeltaGlider.Filesystem
