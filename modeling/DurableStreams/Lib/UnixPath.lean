import Mathlib.Data.List.Basic

/-!
# Unix paths

A path is a byte string. It is compared by its components, which repeated separators and dots inside
it do not count for. Joining a name to a path adds one component, whatever the path looks like
(`components_join`).
-/

namespace DurableStreams.Lib.UnixPath

/-- A component of a path. -/
inductive Component where
  | rootDir
  | curDir
  | parentDir
  | normal (name : List UInt8)
  deriving DecidableEq, Repr

/-- What a path begins with: the root, or a dot for the current directory. -/
def leading : List UInt8 → List Component
  | 47 :: _ => [.rootDir]
  | [46] => [.curDir]
  | 46 :: 47 :: _ => [.curDir]
  | _ => []

/-- The component between two separators, if there is one. -/
def component (piece : List UInt8) : Option Component :=
  if piece = [] then none
  else if piece = [46] then none
  else if piece = [46, 46] then some .parentDir
  else some (.normal piece)

/-- The components of a path. -/
def components (path : List UInt8) : List Component :=
  leading path ++ (path.splitOn 47).filterMap component

/-- Append a path to another one. An absolute path replaces it. -/
def join (path other : List UInt8) : List UInt8 :=
  if other.head? = some 47 then other
  else if path = [] ∨ path.getLast? = some 47 then path ++ other
  else path ++ 47 :: other

/-- Whether a path begins with the components of another one. -/
def startsWith (path base : List UInt8) : Bool := (components base).isPrefixOf (components path)

/-- The components of a path behind those of another one it begins with. -/
def stripPrefix (path base : List UInt8) : Option (List Component) :=
  if startsWith path base then some ((components path).drop (components base).length) else none

variable {path name : List UInt8}

/-- A name that is a component on its own. -/
structure PlainName (name : List UInt8) : Prop where
  ne_nil : name ≠ []
  noSeparator : 47 ∉ name
  noDot : 46 ∉ name

namespace PlainName

variable (h : PlainName name)
include h

theorem component_eq : component name = some (.normal name) := by
  have hdot : name ≠ [46] := fun heq => h.noDot (by rw [heq]; simp)
  have hdots : name ≠ [46, 46] := fun heq => h.noDot (by rw [heq]; simp)
  rw [component, if_neg h.ne_nil, if_neg hdot, if_neg hdots]

theorem leading_eq : leading name = [] := by
  unfold leading
  split
  · exact absurd (List.mem_cons_self ..) h.noSeparator
  · exact absurd (List.mem_cons_self ..) h.noDot
  · exact absurd (List.mem_cons_self ..) h.noDot
  · rfl

theorem head_ne : name.head? ≠ some 47 := fun hhead => h.noSeparator (List.mem_of_head? hhead)

/-- The components behind a separator. -/
theorem split_append (front : List UInt8) :
    ((front ++ 47 :: name).splitOn 47).filterMap component =
      (front.splitOn 47).filterMap component ++ [.normal name] := by
  rw [List.splitOn_append_cons_self, List.splitOn_eq_singleton h.noSeparator, List.filterMap_append,
    List.filterMap_cons, h.component_eq]
  rfl

end PlainName

/-- What a path begins with does not depend on what is behind a separator in it. -/
theorem leading_append (front : List UInt8) (hfront : front ≠ []) (name : List UInt8) :
    leading (front ++ 47 :: name) = leading front := by
  obtain ⟨first, rest, rfl⟩ := List.exists_cons_of_ne_nil hfront
  cases rest with
  | nil =>
      by_cases hroot : first = 47
      · rw [hroot]
        rfl
      by_cases hdot : first = 46
      · rw [hdot]
        rfl
      simp [leading, hroot, hdot]
  | cons second rest =>
      by_cases hroot : first = 47
      · rw [hroot]
        rfl
      by_cases hdot : first = 46
      · by_cases hsecond : second = 47
        · rw [hdot, hsecond]
          rfl
        · simp [leading, hdot, hsecond]
      · simp [leading, hroot, hdot]

/-- Joining a name adds it as a component. -/
theorem components_join (path : List UInt8) (h : PlainName name) :
    components (join path name) = components path ++ [.normal name] := by
  rw [join, if_neg h.head_ne]
  by_cases hempty : path = []
  · rw [if_pos (.inl hempty), hempty, List.nil_append, components, h.leading_eq,
      List.splitOn_eq_singleton h.noSeparator, List.filterMap_cons, h.component_eq]
    rfl
  by_cases hlast : path.getLast? = some 47
  · rw [if_pos (.inr hlast)]
    -- The separator at the end of the path is the one in front of the name.
    obtain ⟨front, rfl⟩ := List.getLast?_eq_some_iff.mp hlast
    have hjoined : front ++ [47] ++ name = front ++ 47 :: name := by simp
    have hpath : front ++ [47] = front ++ 47 :: [] := rfl
    have hsplit : ((front ++ [47]).splitOn 47).filterMap component =
        (front.splitOn 47).filterMap component := by
      rw [hpath, List.splitOn_append_cons_self, List.filterMap_append]
      simp [component]
    rw [hjoined, components, components, h.split_append, hsplit, ← List.append_assoc]
    by_cases hfront : front = []
    · rw [hfront]
      rfl
    · rw [leading_append front hfront, hpath, leading_append front hfront]
  · rw [if_neg (by simp [hempty, hlast]), components, components, h.split_append,
      leading_append path hempty, List.append_assoc]

/-- Different names are joined to different paths. -/
theorem join_inj {first second : List UInt8} (hfirst : first.head? ≠ some 47)
    (hsecond : second.head? ≠ some 47) (h : join path first = join path second) : first = second := by
  rw [join, join, if_neg hfirst, if_neg hsecond] at h
  split at h
  · exact List.append_cancel_left h
  · exact (List.cons.inj (List.append_cancel_left h)).2

/-- A path begins with the path a name was joined to, and the name is what is left. -/
theorem strip_prefix_join (path : List UInt8) (h : PlainName name) :
    startsWith (join path name) path = true ∧
      stripPrefix (join path name) path = some [.normal name] := by
  have hstarts : startsWith (join path name) path = true := by
    rw [startsWith, components_join path h, List.isPrefixOf_iff_prefix]
    exact List.prefix_append ..
  refine ⟨hstarts, ?_⟩
  rw [stripPrefix, if_pos hstarts, components_join path h, List.drop_left]

end DurableStreams.Lib.UnixPath
