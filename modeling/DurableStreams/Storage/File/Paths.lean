import DurableStreams.Lib.UnixPath
import DurableStreams.Protocol.Text
import DurableStreams.Storage.File.Disk

/-!
# Paths of stream directories

`Disk` names the directory of a stream by its last component. Here it is the whole path, as
`stream_dir_for_name` and `validate_stream_dir` build and check it, for any root directory. None of
the checks fires, and the paths of different streams differ (`stream_dirs_contained_and_distinct`).
A path is a byte string; `display` is how it is shown in an error.
-/

namespace DurableStreams.File.Paths

open Lib Lib.UnixPath

/-- Map a stream name to a directory below the root. The checks of the encoded name are those of
`File.streamDirForName`. -/
def streamDirForName (rootDir : Bytes) (name : String) : Result Bytes :=
  match File.streamDirForName name with
  | .error error => .error error
  | .ok encoded =>
      let dir := join rootDir (strBytes encoded)
      if ¬ startsWith dir rootDir then
        .error (.storage ("stream directory escapes storage root: " ++ encoded))
      else .ok dir

/-- Check that a directory is a direct child of the root. -/
def validateStreamDir (display : Bytes → String) (rootDir dir : Bytes) : Result Unit :=
  if ¬ startsWith dir rootDir then .error (.storage ("path escapes storage root: " ++ display dir))
  else
    match stripPrefix dir rootDir with
    | none =>
        .error (.storage ("failed to validate storage path " ++ display dir ++ ": prefix not found"))
    | some rel =>
        if rel.length ≠ 1 then .error (.storage ("invalid stream path depth: " ++ display dir))
        else .ok ()

/-- The characters of encoded names. -/
def isSafe (character : Char) : Bool :=
  character.isAlphanum || character == '-' || character == '_'

/-- An encoded name has only such characters. -/
theorem encode_name_safe (name : String) :
    ∀ character ∈ (encodeName name).toList, isSafe character := by
  intro character hmem
  rw [encodeName, String.toList_ofList] at hmem
  have hall : ∀ character ∈ base64UrlAlphabet, isSafe character = true :=
    List.all_eq_true.mp (by decide)
  exact hall character (mem_base64_url_encode hmem)

/-- A text of such characters has no separator and no dot in its bytes. -/
theorem safe_bytes {text : String} (h : ∀ character ∈ text.toList, isSafe character) :
    47 ∉ strBytes text ∧ 46 ∉ strBytes text := by
  constructor
  · intro hmem
    exact absurd (h '/' ((mem_str_bytes (show '/'.toNat < 128 by decide)).mp hmem)) (by decide)
  · intro hmem
    exact absurd (h '.' ((mem_str_bytes (show '.'.toNat < 128 by decide)).mp hmem)) (by decide)

/-- So it is a component of its own, unless it is empty. -/
theorem plain_name {text : String} (h : ∀ character ∈ text.toList, isSafe character)
    (hne : text ≠ "") : PlainName (strBytes text) := by
  obtain ⟨hseparator, hdot⟩ := safe_bytes h
  exact ⟨fun hempty => hne (str_bytes_inj (hempty.trans (by decide))), hseparator, hdot⟩

/-- The directory of a stream with a name. -/
theorem stream_dir_eq (rootDir : Bytes) {name : String} (hname : name ≠ "") :
    streamDirForName rootDir name = .ok (join rootDir (strBytes (encodeName name))) := by
  have hplain := plain_name (encode_name_safe name) (encode_name_ne hname)
  rw [streamDirForName, stream_dir_for_name_eq]
  dsimp only
  rw [if_neg (not_not.mpr (strip_prefix_join rootDir hplain).1)]

/-- A name joined to the root is at the right depth. -/
theorem validate_join (display : Bytes → String) (rootDir : Bytes) {name : Bytes}
    (h : PlainName name) : validateStreamDir display rootDir (join rootDir name) = .ok () := by
  obtain ⟨hstarts, hstrip⟩ := strip_prefix_join rootDir h
  rw [validateStreamDir, if_neg (not_not.mpr hstarts), hstrip]
  rfl

/-- The check of the depth is the one that `Disk` makes on the last component. -/
theorem validate_stream_dir_eq (display : Bytes → String) (rootDir : Bytes) (config : Config)
    {dir : String} (h : ∀ character ∈ dir.toList, isSafe character) (hne : dir ≠ "") :
    validateStreamDir display rootDir (join rootDir (strBytes dir)) =
      File.validateStreamDir config dir := by
  rw [validate_join display rootDir (plain_name h hne), validate_stream_dir_ok config hne]

/-- Stream directories are contained and distinct. Every stream with a name has a directory, which is
a direct child of the root with a name of safe characters, passes the check of its depth, and is not
the directory of another stream. -/
theorem stream_dirs_contained_and_distinct (display : Bytes → String) (rootDir : Bytes)
    {name : String} (hname : name ≠ "") :
    ∃ (dir : Bytes) (encoded : String),
      streamDirForName rootDir name = .ok dir ∧
      components dir = components rootDir ++ [.normal (strBytes encoded)] ∧
      encoded ≠ "" ∧ (∀ character ∈ encoded.toList, isSafe character) ∧
      validateStreamDir display rootDir dir = .ok () ∧
      ∀ other, other ≠ "" → other ≠ name → streamDirForName rootDir other ≠ .ok dir := by
  have hsafe := encode_name_safe name
  have hne := encode_name_ne hname
  have hplain := plain_name hsafe hne
  refine ⟨_, encodeName name, stream_dir_eq rootDir hname, components_join rootDir hplain, hne, hsafe,
    validate_join display rootDir hplain, ?_⟩
  intro other hother hdiffers hsame
  rw [stream_dir_eq rootDir hother] at hsame
  have hplain' := plain_name (encode_name_safe other) (encode_name_ne hother)
  have hbytes := join_inj hplain'.head_ne hplain.head_ne (Except.ok.inj hsame)
  exact hdiffers (encode_name_inj (str_bytes_inj hbytes))

/-- A name that tries to leave the root. -/
theorem traversal_contained :
    ∃ (dir : Bytes) (encoded : String),
      streamDirForName (strBytes "./data//") "../../etc" = .ok dir ∧
      components dir =
        [.curDir, .normal (strBytes "data"), .normal (strBytes encoded)] ∧
      validateStreamDir (fun _ => "") (strBytes "./data//") dir = .ok () := by
  obtain ⟨dir, encoded, hdir, hcomponents, -, -, hvalid, -⟩ :=
    stream_dirs_contained_and_distinct (fun _ => "") (strBytes "./data//")
      (show "../../etc" ≠ "" by decide)
  have hroot : components (strBytes "./data//") = [.curDir, .normal (strBytes "data")] := by
    decide +kernel
  exact ⟨dir, encoded, hdir, by rw [hcomponents, hroot]; rfl, hvalid⟩

end DurableStreams.File.Paths
