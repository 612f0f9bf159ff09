import Mathlib

/-!
# Object metadata and storage errors

`FileMetadata` and `StorageInfo` of `src/types.rs`, `StorageError` of
`src/storage/traits.rs`.  Timestamps are natural numbers (`created_at` is
taken as an argument where the source calls `Utc::now()`); a `HashMap` of
user metadata is its lookup function, so two maps with the same entries are
equal, as Rust's `HashMap` equality has it.
-/

namespace DeltaGlider

/-- `StorageError`; `Io` and `Serialization` carry their message. -/
inductive StorageError where
  | notFound (what : String)
  | alreadyExists (what : String)
  | io (msg : String)
  | diskFull
  | serialization (msg : String)
  | tooLarge (size max : Nat)
  | s3 (msg : String)
  | bucketNotFound (bucket : String)
  | encryption (msg : String)
  | bucketNotEmpty (bucket : String)
  | throttled (msg : String)
  | other (msg : String)
  deriving DecidableEq, Repr

/-- A `HashMap<String, String>` of user metadata, by its lookups. -/
abbrev UserMeta := String → Option String

namespace UserMeta

def empty : UserMeta := fun _ => none

def get (m : UserMeta) (k : String) : Option String := m k

/-- `HashMap::insert`. -/
def insert (m : UserMeta) (k v : String) : UserMeta := Function.update m k (some v)

/-- `HashMap::remove`. -/
def remove (m : UserMeta) (k : String) : UserMeta := Function.update m k none

@[simp] theorem get_insert_self (m : UserMeta) (k v : String) : (m.insert k v).get k = some v := by
  unfold get insert
  simp

@[simp] theorem get_insert_of_ne (m : UserMeta) {k k' : String} (v : String) (h : k' ≠ k) :
    (m.insert k v).get k' = m.get k' := by
  unfold get insert
  simp [h]

@[simp] theorem get_remove_self (m : UserMeta) (k : String) : (m.remove k).get k = none := by
  unfold get remove
  simp

@[simp] theorem get_remove_of_ne (m : UserMeta) {k k' : String} (h : k' ≠ k) :
    (m.remove k).get k' = m.get k' := by
  unfold get remove
  simp [h]

end UserMeta

/-- `StorageInfo`: how an object is stored. -/
inductive StorageInfo where
  | reference (sourceName : String)
  | delta (refPath refSha256 : String) (deltaSize : Nat) (deltaCmd : String)
  | passthrough
  deriving DecidableEq, Repr

/-- `FileMetadata`. -/
structure FileMetadata where
  tool : String
  originalName : String
  fileSha256 : String
  fileSize : Nat
  md5 : String
  multipartEtag : Option String
  createdAt : Int
  contentType : Option String
  userMetadata : UserMeta
  storageInfo : StorageInfo

/-- `DELTAGLIDER_TOOL`: `CARGO_PKG_NAME/CARGO_PKG_VERSION` of `Cargo.toml`. -/
def deltagliderTool : String := "deltaglider_proxy/1.19.0"

namespace FileMetadata

/-- `FileMetadata::new_reference`. -/
def newReference (originalName sourceName sha256 md5 : String) (size : Nat)
    (contentType : Option String) (now : Int) : FileMetadata :=
  { tool := deltagliderTool, originalName, fileSha256 := sha256, fileSize := size, md5,
    multipartEtag := none, createdAt := now, contentType, userMetadata := UserMeta.empty,
    storageInfo := .reference sourceName }

/-- `FileMetadata::new_delta`. -/
def newDelta (originalName sha256 md5 : String) (fileSize : Nat) (refPath refSha256 : String)
    (deltaSize : Nat) (contentType : Option String) (now : Int) : FileMetadata :=
  { tool := deltagliderTool, originalName, fileSha256 := sha256, fileSize, md5,
    multipartEtag := none, createdAt := now, contentType, userMetadata := UserMeta.empty,
    storageInfo := .delta refPath refSha256 deltaSize
      ("xdelta3 -e -9 -s reference.bin " ++ originalName ++ " " ++ originalName ++ ".delta") }

/-- `FileMetadata::new_passthrough`. -/
def newPassthrough (originalName sha256 md5 : String) (size : Nat) (contentType : Option String)
    (now : Int) : FileMetadata :=
  { tool := deltagliderTool, originalName, fileSha256 := sha256, fileSize := size, md5,
    multipartEtag := none, createdAt := now, contentType, userMetadata := UserMeta.empty,
    storageInfo := .passthrough }

/-- `FileMetadata::etag`: the multipart ETag verbatim (quoted), else the
quoted MD5. -/
def etag (m : FileMetadata) : String :=
  match m.multipartEtag with
  | some e => if e.startsWith "\"" && e.endsWith "\"" then e else "\"" ++ e ++ "\""
  | none => "\"" ++ m.md5 ++ "\""

/-- The metadata with the caller's user metadata and multipart ETag set
(`metadata.user_metadata = ..; metadata.multipart_etag = ..;` after a
constructor). -/
def stamp (m : FileMetadata) (userMetadata : UserMeta) (multipartEtag : Option String) :
    FileMetadata :=
  { m with userMetadata := userMetadata, multipartEtag := multipartEtag }

/-- `FileMetadata::fallback`: what a backend reports for an object that
carries no DeltaGlider metadata. -/
def fallback (originalName : String) (size : Nat) (md5 : String) (createdAt : Int)
    (contentType : Option String) (storageInfo : StorageInfo) : FileMetadata :=
  { tool := deltagliderTool, originalName, fileSha256 := "", fileSize := size, md5,
    multipartEtag := none, createdAt, contentType, userMetadata := UserMeta.empty, storageInfo }

def isReference (m : FileMetadata) : Bool :=
  match m.storageInfo with
  | .reference _ => true
  | _ => false

def isDelta (m : FileMetadata) : Bool :=
  match m.storageInfo with
  | .delta .. => true
  | _ => false

end FileMetadata

end DeltaGlider
