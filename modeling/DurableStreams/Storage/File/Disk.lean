import DurableStreams.Lib.Base64Url
import DurableStreams.Storage.Interface

/-!
# Stream directories on disk

What `storage/file.rs` keeps on disk. Every stream has a directory below the storage root, named by
the base64url encoding of the stream name, with the append-only `data.log`, the metadata `meta.json`
and the temporary file a metadata write goes through. A metadata file is represented by the value
that is serialised into it. What happens inside a directory is a list of `DirAction`s, so that a
crash can be placed between or inside them.
-/

namespace DurableStreams.File

open Lib

/-- The persisted metadata of a stream. -/
structure StreamMeta where
  name : String
  config : StreamConfig
  closed : Bool
  createdAt : Timestamp
  lastSeq : Option String
  producers : HashMap ProducerState
  deriving DecidableEq

/-- The files of a stream directory. -/
structure Dir where
  log : Option Bytes
  metaJson : Option StreamMeta
  metaTmp : Option StreamMeta
  deriving DecidableEq

/-- A directory without files. -/
def Dir.empty : Dir := ⟨none, none, none⟩

/-- The content of `data.log`, which opening creates if it is missing. -/
def Dir.logBytes (dir : Dir) : Bytes := dir.log.getD []

/-- The stream directories below the storage root, by name. -/
abbrev Disk := HashMap Dir

/-- The changes the backend makes inside a stream directory. -/
inductive DirAction where
  | openLog
  | appendLog (bytes : Bytes)
  | writeTmp (content : StreamMeta)
  | renameMeta
  deriving DecidableEq

/-- Carry out one change in a directory. -/
def DirAction.apply (dir : Dir) : DirAction → Dir
  | .openLog => { dir with log := some dir.logBytes }
  | .appendLog bytes => { dir with log := some (dir.logBytes ++ bytes) }
  | .writeTmp content => { dir with metaTmp := some content }
  | .renameMeta => { dir with metaJson := dir.metaTmp, metaTmp := none }

/-- Carry out several changes in order. -/
def Dir.run (actions : List DirAction) (dir : Dir) : Dir := actions.foldl DirAction.apply dir

/-- Create a directory unless it is there. The empty name is the storage root itself. -/
def Disk.createDir (dir : String) (disk : Disk) : Disk :=
  if dir = "" ∨ (disk.lookup dir).isSome then disk else disk.insert dir .empty

/-- Carry out changes in a directory that exists. -/
def Disk.within (dir : String) (actions : List DirAction) (disk : Disk) : Disk :=
  match disk.lookup dir with
  | none => disk
  | some found => disk.insert dir (found.run actions)

/-- Changes in one directory leave the others alone. -/
theorem lookup_within (disk : Disk) (dir other : String) (actions : List DirAction) :
    (Disk.within dir actions disk).lookup other =
      if other = dir then (disk.lookup dir).map (Dir.run actions) else disk.lookup other := by
  unfold Disk.within
  cases hlookup : disk.lookup dir with
  | none =>
      dsimp only
      split
      · next heq => rw [heq, hlookup, Option.map_none]
      · rfl
  | some found => exact FiniteMap.lookup_insert_ite _ _ _ _

/-- No changes in a directory change nothing. -/
@[simp] theorem within_nil (dir : String) (disk : Disk) : Disk.within dir [] disk = disk := by
  unfold Disk.within
  cases hlookup : disk.lookup dir with
  | none => rfl
  | some found => exact FiniteMap.insert_lookup hlookup

/-- Creating a directory with a name makes it exist and leaves the others alone. -/
theorem lookup_create_dir (disk : Disk) {dir : String} (hdir : dir ≠ "") (other : String) :
    (Disk.createDir dir disk).lookup other =
      if other = dir then some ((disk.lookup dir).getD .empty) else disk.lookup other := by
  unfold Disk.createDir
  cases hlookup : disk.lookup dir with
  | none =>
      rw [if_neg (by simp [hdir])]
      exact FiniteMap.lookup_insert_ite _ _ _ _
  | some found =>
      rw [if_pos (by simp)]
      split
      · next heq => rw [heq, hlookup, Option.getD_some]
      · rfl

/-! ## Paths -/

/-- How the backend is configured. -/
structure Config where
  limits : Limits
  rootDir : String
  syncOnAppend : Bool

/-- The name of a stream's directory. -/
def encodeName (name : String) : String := String.ofList (base64UrlEncode (strBytes name))

/-- Map a stream name to a directory below the root, rejecting anything that could leave it. -/
def streamDirForName (name : String) : Result String :=
  let encoded := encodeName name
  if ['.', '.'] <:+: encoded.toList ∨ '/' ∈ encoded.toList ∨ '\\' ∈ encoded.toList then
    .error (.storage "encoded stream name contains path traversal characters")
  else if ¬ encoded.toList.all fun character =>
      character.isAlphanum || character == '-' || character == '_' then
    .error (.storage "encoded stream directory contains invalid characters")
  else .ok encoded

/-- Check that a stream directory is a direct child of the root. -/
def validateStreamDir (config : Config) (dir : String) : Result Unit :=
  if dir = "" then
    .error (.storage ("invalid stream path depth: " ++ config.rootDir ++ "/" ++ dir))
  else .ok ()

/-- Different streams have different directories. -/
theorem encode_name_inj {first second : String} (h : encodeName first = encodeName second) :
    first = second :=
  str_bytes_inj (base64_url_encode_inj (String.ofList_inj.mp h))

/-- The directory of a stream with a name has a name. -/
theorem encode_name_ne {name : String} (h : name ≠ "") : encodeName name ≠ "" := by
  intro hempty
  refine h (str_bytes_inj ?_)
  have hnil : base64UrlEncode (strBytes name) = [] := String.ofList_inj.mp hempty
  rw [base64_url_encode_eq_nil.mp hnil]
  rfl

/-- The checks on encoded names never fire. -/
theorem stream_dir_for_name_eq (name : String) : streamDirForName name = .ok (encodeName name) := by
  have hmem {character : Char} (h : character ∈ (encodeName name).toList) :
      character ∈ base64UrlAlphabet := by
    rw [encodeName, String.toList_ofList] at h
    exact mem_base64_url_encode h
  have hsafe : ¬ (['.', '.'] <:+: (encodeName name).toList ∨ '/' ∈ (encodeName name).toList ∨
      '\\' ∈ (encodeName name).toList) := by
    rintro (h | h | h)
    · exact absurd (hmem (h.subset (List.mem_cons_self ..))) (by decide)
    · exact absurd (hmem h) (by decide)
    · exact absurd (hmem h) (by decide)
  have halphabet : ∀ character ∈ base64UrlAlphabet,
      (character.isAlphanum || character == '-' || character == '_') = true :=
    List.all_eq_true.mp (by decide)
  have hall : (encodeName name).toList.all (fun character =>
      character.isAlphanum || character == '-' || character == '_') = true :=
    List.all_eq_true.mpr fun character h => halphabet character (hmem h)
  simp only [streamDirForName, if_neg hsafe, hall, not_true_eq_false, ↓reduceIte]

/-- A named directory passes the depth check. -/
theorem validate_stream_dir_ok (config : Config) {dir : String} (h : dir ≠ "") :
    validateStreamDir config dir = .ok () := if_neg h

end DurableStreams.File
