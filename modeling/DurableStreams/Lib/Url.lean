import Mathlib.Data.List.Basic
import Mathlib.Data.List.TakeWhile

/-!
# URLs

A URL reference is taken apart as in appendix B of RFC 3986, which splits every byte string into a
scheme, an authority, a path, a query and a fragment. `path_eq_iff` says which URLs have a given path,
and `path_parts_iff` when this is the path a URL was put together with.
-/

namespace DurableStreams.Lib.Url

/-! ## Percent decoding -/

/-- The value of a hexadecimal digit. -/
def hexDigit (byte : UInt8) : Option Nat :=
  if 48 ≤ byte.toNat ∧ byte.toNat ≤ 57 then some (byte.toNat - 48)
  else if 97 ≤ byte.toNat ∧ byte.toNat ≤ 102 then some (byte.toNat - 97 + 10)
  else if 65 ≤ byte.toNat ∧ byte.toNat ≤ 70 then some (byte.toNat - 65 + 10)
  else none

/-- The byte that three bytes stand for, if they are a percent sign and two digits. -/
def escaped (first second third : UInt8) : Option UInt8 :=
  if first = 37 then
    (hexDigit second).bind fun high => (hexDigit third).map fun low => UInt8.ofNat (16 * high + low)
  else none

/-- Decode the escaped bytes. A percent sign without two digits stands for itself. -/
def percentDecode : List UInt8 → List UInt8
  | first :: second :: third :: rest =>
      match escaped first second third with
      | some byte => byte :: percentDecode rest
      | none => first :: percentDecode (second :: third :: rest)
  | bytes => bytes

/-- Decoding makes nothing longer. -/
theorem length_percent_decode_le (bytes : List UInt8) :
    (percentDecode bytes).length ≤ bytes.length := by
  induction bytes using percentDecode.induct with
  | case1 first second third rest byte hescaped ih =>
      rw [percentDecode, hescaped]
      simp only [List.length_cons]
      omega
  | case2 first second third rest hescaped ih =>
      rw [percentDecode, hescaped]
      simp only [List.length_cons] at ih ⊢
      omega
  | case3 bytes hshort =>
      rw [percentDecode]
      exact hshort

/-- Decoding leaves something over. -/
theorem percent_decode_ne_nil {bytes : List UInt8} (h : bytes ≠ []) : percentDecode bytes ≠ [] := by
  induction bytes using percentDecode.induct with
  | case1 first second third rest byte hescaped ih =>
      rw [percentDecode, hescaped]
      exact List.cons_ne_nil _ _
  | case2 first second third rest hescaped ih =>
      rw [percentDecode, hescaped]
      exact List.cons_ne_nil _ _
  | case3 bytes hshort =>
      rw [percentDecode]
      · exact h
      · exact hshort

/-- No percent sign is in front of two digits. -/
def NoEscape (bytes : List UInt8) : Prop :=
  ∀ first second third, [first, second, third] <:+: bytes → escaped first second third = none

/-- Decoding only changes a text with an escaped byte. -/
theorem percent_decode_eq_self_iff {bytes : List UInt8} :
    percentDecode bytes = bytes ↔ NoEscape bytes := by
  induction bytes using percentDecode.induct with
  | case1 first second third rest byte hescaped ih =>
      refine iff_of_false (fun heq => ?_) (fun h => ?_)
      · have hlength := length_percent_decode_le rest
        have hequal := congrArg List.length heq
        rw [percentDecode, hescaped] at hequal
        simp only [List.length_cons] at hequal
        omega
      · have hnone := h first second third ⟨[], rest, rfl⟩
        rw [hescaped] at hnone
        cases hnone
  | case2 first second third rest hescaped ih =>
      rw [percentDecode, hescaped]
      simp only [List.cons.injEq, true_and]
      rw [ih]
      refine ⟨fun h a b c hinfix => ?_, fun h a b c hinfix => h a b c (List.infix_cons hinfix)⟩
      rcases List.infix_cons_iff.mp hinfix with hprefix | hinfix
      · obtain ⟨back, hback⟩ := hprefix
        simp only [List.cons_append, List.nil_append, List.cons.injEq] at hback
        obtain ⟨rfl, rfl, rfl, -⟩ := hback
        exact hescaped
      · exact h a b c hinfix
  | case3 bytes hshort =>
      rw [percentDecode]
      · refine iff_of_true rfl fun a b c hinfix => ?_
        have hlength := hinfix.length_le
        match bytes, hlength, hshort with
        | first :: second :: third :: rest, _, hshort =>
            exact (hshort first second third rest rfl).elim
      · exact hshort

/-! ## The parts of a URL -/

/-- A byte of a path. A question mark or a number sign is not, they begin the query and the
fragment. -/
def inPath (byte : UInt8) : Bool := byte != 63 && byte != 35

/-- A byte of an authority. -/
def inAuthority (byte : UInt8) : Bool := byte != 47 && inPath byte

/-- A byte of a scheme. -/
def inScheme (byte : UInt8) : Bool := byte != 58 && inAuthority byte

/-- What follows the scheme, if there is one. -/
def dropScheme (url : List UInt8) : List UInt8 :=
  if url.takeWhile inScheme ≠ [] ∧ (url.dropWhile inScheme).head? = some 58 then
    (url.dropWhile inScheme).tail
  else url

/-- What follows the authority, if there is one. -/
def dropAuthority (url : List UInt8) : List UInt8 :=
  if url.take 2 = [47, 47] then (url.drop 2).dropWhile inAuthority else url

/-- The path of a URL. -/
def path (url : List UInt8) : List UInt8 := (dropAuthority (dropScheme url)).takeWhile inPath

section Query

variable {byte : UInt8} {front back : List UInt8}

theorem take_while_append_end {keep : UInt8 → Bool} (h : keep byte = false) :
    (front ++ byte :: back).takeWhile keep = front.takeWhile keep := by
  induction front with
  | nil => simp [h]
  | cons first front ih => simp only [List.cons_append, List.takeWhile_cons, ih]

theorem drop_while_append_end {keep : UInt8 → Bool} (h : keep byte = false) :
    (front ++ byte :: back).dropWhile keep = front.dropWhile keep ++ byte :: back := by
  induction front with
  | nil => simp [h]
  | cons first front ih =>
      simp only [List.cons_append, List.dropWhile_cons, ih]
      split <;> simp

/-- A scheme is in front of the query. -/
theorem drop_scheme_append_end (h : inPath byte = false) :
    dropScheme (front ++ byte :: back) = dropScheme front ++ byte :: back := by
  have hends : inScheme byte = false := by simp [inScheme, inAuthority, h]
  have hcolon : byte ≠ 58 := by
    rintro rfl
    exact absurd h (by decide)
  simp only [dropScheme, take_while_append_end hends, drop_while_append_end hends]
  cases front.dropWhile inScheme with
  | nil => simp [hcolon]
  | cons first rest =>
      simp only [List.cons_append, List.head?_cons, List.tail_cons]
      exact (apply_ite (· ++ byte :: back) _ _ _).symm

/-- An authority is in front of the query. -/
theorem drop_authority_append_end (h : inPath byte = false) :
    dropAuthority (front ++ byte :: back) = dropAuthority front ++ byte :: back := by
  have hends : inAuthority byte = false := by simp [inAuthority, h]
  have hslash : byte ≠ 47 := by
    rintro rfl
    exact absurd h (by decide)
  match front with
  | [] => simp [dropAuthority, hslash]
  | [first] => simp [dropAuthority, hslash]
  | first :: second :: front =>
      simp only [dropAuthority, List.cons_append, List.take_succ_cons, List.take_zero,
        List.drop_succ_cons, List.drop_zero, drop_while_append_end hends]
      split <;> rfl

/-- The path only depends on what is in front of the query. -/
theorem path_append_end (h : inPath byte = false) : path (front ++ byte :: back) = path front := by
  rw [path, drop_scheme_append_end h, drop_authority_append_end h, take_while_append_end h, path]

end Query

/-- The path of what is in front of the query. -/
theorem path_take_while (url : List UInt8) : path (url.takeWhile inPath) = path url := by
  rcases hrest : url.dropWhile inPath with _ | ⟨byte, back⟩
  · rw [List.takeWhile_eq_self_iff.mpr (List.dropWhile_eq_nil_iff.mp hrest)]
  · have hbyte : inPath byte = false := by
      have hne : url.dropWhile inPath ≠ [] := by simp [hrest]
      have hhead := List.head_dropWhile_not inPath hne
      simpa [hrest] using hhead
    rw [← path_append_end hbyte, ← hrest, List.takeWhile_append_dropWhile]

/-! ## URLs from parts -/

section Parts

variable {scheme authority rest : List UInt8}

/-- A text without colons and separators. -/
theorem in_scheme_of_in_authority (hcolon : 58 ∉ scheme)
    (h : ∀ byte ∈ scheme, inAuthority byte = true) : ∀ byte ∈ scheme, inScheme byte = true := by
  intro byte hbyte
  have hne : byte ≠ 58 := by
    rintro rfl
    exact hcolon hbyte
  simp [inScheme, hne, h byte hbyte]

/-- A scheme ends at the first colon. -/
theorem drop_scheme_append (hne : scheme ≠ []) (h : ∀ byte ∈ scheme, inScheme byte = true) :
    dropScheme (scheme ++ 58 :: rest) = rest := by
  have hend : inScheme 58 = false := by decide
  rw [dropScheme, take_while_append_end hend, drop_while_append_end hend,
    List.takeWhile_eq_self_iff.mpr h, List.dropWhile_eq_nil_iff.mpr h]
  simp [hne]

/-- A scheme, without delimiters, and an authority without separators. -/
structure Plain (scheme authority : List UInt8) : Prop where
  scheme_ne_nil : scheme ≠ []
  noColon : 58 ∉ scheme
  noSlash : 47 ∉ scheme
  authority_noSlash : 47 ∉ authority

/-- A text without separators. -/
theorem in_authority_of_in_path {bytes : List UInt8} (h : ∀ byte ∈ bytes, inPath byte = true)
    (hslash : 47 ∉ bytes) : ∀ byte ∈ bytes, inAuthority byte = true := by
  intro byte hbyte
  have hne : byte ≠ 47 := by
    rintro rfl
    exact hslash hbyte
  simp [inAuthority, hne, h byte hbyte]

/-- The path of a text without a query. -/
theorem path_of_in_path {url : List UInt8} (h : ∀ byte ∈ url, inPath byte = true) :
    path url = dropAuthority (dropScheme url) := by
  have hscheme : dropScheme url ⊆ url := by
    rw [dropScheme]
    split
    · exact ((List.tail_sublist _).trans (List.dropWhile_sublist _)).subset
    · exact List.Subset.refl _
  have hauthority : dropAuthority (dropScheme url) ⊆ dropScheme url := by
    rw [dropAuthority]
    split
    · exact List.Subset.trans (List.dropWhile_sublist _).subset (List.drop_subset _ _)
    · exact List.Subset.refl _
  exact List.takeWhile_eq_self_iff.mpr fun byte hbyte => h byte (hscheme (hauthority hbyte))

/-- What is in front of the first separator, and what is behind it. -/
theorem append_cons_inj {byte : UInt8} {left right back behind : List UInt8} (hleft : byte ∉ left)
    (hright : byte ∉ right) (h : left ++ byte :: back = right ++ byte :: behind) :
    left = right ∧ back = behind := by
  rcases List.append_eq_append_iff.mp h with ⟨mid, rfl, hmid⟩ | ⟨mid, rfl, hmid⟩ <;>
    cases mid <;> simp_all

/-- What can stand in front of the path of a URL: a scheme with a colon, and an authority behind two
slashes, or only one of them, or nothing. -/
def Front (front : List UInt8) : Prop :=
  ∃ scheme authority, front = scheme ++ authority ∧
    (scheme = [] ∨ ∃ text, scheme = text ++ [58] ∧ text ≠ [] ∧ ∀ byte ∈ text, inScheme byte = true) ∧
    (authority = [] ∨ ∃ text, authority = 47 :: 47 :: text ∧ ∀ byte ∈ text, inAuthority byte = true)

/-- What has a given rest behind its scheme. -/
theorem drop_scheme_eq_iff {url : List UInt8} :
    dropScheme url = 47 :: rest ↔ ∃ front, url = front ++ 47 :: rest ∧ (front = [] ∨
      ∃ text, front = text ++ [58] ∧ text ≠ [] ∧ ∀ byte ∈ text, inScheme byte = true) := by
  constructor
  · intro h
    rw [dropScheme] at h
    split at h
    · next hscheme =>
      obtain ⟨behind, hbehind⟩ := List.head?_eq_some_iff.mp hscheme.2
      rw [hbehind, List.tail_cons] at h
      refine ⟨url.takeWhile inScheme ++ [58], ?_, .inr ⟨_, rfl, hscheme.1, fun _ hbyte =>
        List.mem_takeWhile_imp hbyte⟩⟩
      rw [List.append_assoc, ← h, List.singleton_append, ← hbehind, List.takeWhile_append_dropWhile]
    · exact ⟨[], h, .inl rfl⟩
  · rintro ⟨_, rfl, rfl | ⟨text, rfl, hne, htext⟩⟩
    · have hslash : inScheme 47 = false := by decide
      simp [dropScheme, hslash]
    · rw [List.append_assoc]
      exact drop_scheme_append hne htext

/-- What has a given path behind its authority. -/
theorem drop_authority_eq_iff {url : List UInt8} {second : UInt8} (hsecond : second ≠ 47) :
    dropAuthority url = 47 :: second :: rest ↔ ∃ front, url = front ++ 47 :: second :: rest ∧
      (front = [] ∨ ∃ text, front = 47 :: 47 :: text ∧ ∀ byte ∈ text, inAuthority byte = true) := by
  constructor
  · intro h
    rw [dropAuthority] at h
    split at h
    · next hmark =>
      refine ⟨47 :: 47 :: (url.drop 2).takeWhile inAuthority, ?_, .inr ⟨_, rfl, fun _ hbyte =>
        List.mem_takeWhile_imp hbyte⟩⟩
      conv_lhs => rw [← List.take_append_drop 2 url, hmark,
        ← @List.takeWhile_append_dropWhile _ inAuthority (url.drop 2), h]
      rfl
    · exact ⟨[], h, .inl rfl⟩
  · rintro ⟨_, rfl, rfl | ⟨text, rfl, htext⟩⟩
    · simp [dropAuthority, hsecond]
    · have hslash : inAuthority 47 = false := by decide
      simp [dropAuthority, drop_while_append_end hslash, List.dropWhile_eq_nil_iff.mpr htext]

/-- Which texts without a query have a given path. -/
theorem path_eq_iff {url : List UInt8} {second : UInt8} (h : ∀ byte ∈ url, inPath byte = true)
    (hsecond : second ≠ 47) :
    path url = 47 :: second :: rest ↔ ∃ front, Front front ∧ url = front ++ 47 :: second :: rest := by
  rw [path_of_in_path h, drop_authority_eq_iff hsecond]
  constructor
  · rintro ⟨authority, hbehind, hauthority⟩
    have hslash : ∃ behind, authority ++ 47 :: second :: rest = 47 :: behind := by
      obtain rfl | ⟨text, rfl, -⟩ := hauthority <;> exact ⟨_, rfl⟩
    obtain ⟨behind, heq⟩ := hslash
    obtain ⟨scheme, hurl, hscheme⟩ := drop_scheme_eq_iff.mp (hbehind.trans heq)
    refine ⟨scheme ++ authority, ⟨scheme, authority, rfl, hscheme, hauthority⟩, ?_⟩
    rw [hurl, ← heq, List.append_assoc]
  · rintro ⟨_, ⟨scheme, authority, rfl, hscheme, hauthority⟩, rfl⟩
    refine ⟨authority, ?_, hauthority⟩
    rw [List.append_assoc]
    obtain rfl | ⟨text, rfl, -⟩ := hauthority <;> exact drop_scheme_eq_iff.mpr ⟨scheme, rfl, hscheme⟩

variable (hscheme : ∀ byte ∈ scheme, inPath byte = true)
  (hauthority : ∀ byte ∈ authority, inPath byte = true)

include hscheme hauthority

/-- A URL that was put together from its parts, up to its query. -/
theorem take_while_parts :
    (scheme ++ 58 :: 47 :: 47 :: (authority ++ 47 :: rest)).takeWhile inPath =
      scheme ++ 58 :: 47 :: 47 :: (authority ++ 47 :: rest.takeWhile inPath) := by
  have hcolon : inPath 58 = true := by decide
  have hslash : inPath 47 = true := by decide
  rw [List.takeWhile_append_of_pos hscheme]
  simp only [List.takeWhile_cons, hcolon, hslash, if_true, List.takeWhile_append_of_pos hauthority]

/-- With a plain scheme and authority it has the path that was put in. Otherwise its path has more
separators. -/
theorem path_parts_iff {second : UInt8} {behind : List UInt8} (hsecond : second ≠ 47)
    (hcount : (47 :: second :: behind).count 47 ≤ (47 :: rest.takeWhile inPath).count 47) :
    path (scheme ++ 58 :: 47 :: 47 :: (authority ++ 47 :: rest)) = 47 :: second :: behind ↔
      Plain scheme authority ∧ rest.takeWhile inPath = second :: behind := by
  have hin := take_while_parts hscheme hauthority ▸ fun byte => @List.mem_takeWhile_imp _ inPath
    (scheme ++ 58 :: 47 :: 47 :: (authority ++ 47 :: rest)) byte
  rw [← path_take_while, take_while_parts hscheme hauthority, path_eq_iff hin hsecond]
  constructor
  · rintro ⟨_, ⟨front, marked, rfl, hfront, hmarked⟩, hurl⟩
    have hnone : 47 ∉ front := by
      obtain rfl | ⟨text, rfl, -, htext⟩ := hfront
      · exact List.not_mem_nil
      · intro hmem
        have hbyte := htext 47 (by simpa using hmem)
        exact absurd hbyte (by decide)
    have hslashes := congrArg (List.count 47) hurl
    have hcolon : (58 : UInt8) ≠ 47 := by decide
    simp only [List.count_append, List.count_cons_self, List.count_cons_of_ne hcolon,
      List.count_eq_zero.mpr hnone] at hslashes hcount
    obtain rfl | ⟨text, rfl, htext⟩ := hmarked
    · rw [List.count_nil] at hslashes
      omega
    · have hnoneText : 47 ∉ text := fun hmem => absurd (htext 47 hmem) (by decide)
      simp only [List.count_cons_self, List.count_eq_zero.mpr hnoneText] at hslashes
      have hscheme47 : 47 ∉ scheme := List.count_eq_zero.mp (by omega)
      have hauthority47 : 47 ∉ authority := List.count_eq_zero.mp (by omega)
      -- Both sides are the same up to the first separator, and between the second and the third.
      have hsplit : (scheme ++ [58]) ++ 47 :: 47 :: (authority ++ 47 :: rest.takeWhile inPath) =
          front ++ 47 :: 47 :: (text ++ 47 :: second :: behind) := by simpa using hurl
      have hmark : 47 ∉ scheme ++ [58] := by simp [hscheme47]
      obtain ⟨hsame, hbehind⟩ := append_cons_inj hmark hnone hsplit
      obtain ⟨-, hrest⟩ := append_cons_inj hauthority47 hnoneText (List.cons.inj hbehind).2
      obtain rfl | ⟨other, rfl, hne, hother⟩ := hfront
      · simp at hsame
      · obtain rfl := List.append_cancel_right hsame
        exact ⟨⟨hne, fun hmem => absurd (hother 58 hmem) (by decide), hscheme47, hauthority47⟩,
          hrest⟩
  · rintro ⟨hplain, hrest⟩
    refine ⟨(scheme ++ [58]) ++ 47 :: 47 :: authority, ⟨_, _, rfl, .inr ⟨scheme, rfl,
      hplain.scheme_ne_nil, ?_⟩, .inr ⟨authority, rfl, ?_⟩⟩, by simp [hrest]⟩
    · exact in_scheme_of_in_authority hplain.noColon
        (in_authority_of_in_path hscheme hplain.noSlash)
    · exact in_authority_of_in_path hauthority hplain.authority_noSlash

end Parts

end DurableStreams.Lib.Url
