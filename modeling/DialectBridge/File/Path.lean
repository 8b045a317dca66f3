import DialectBridge.Text.Search
/-!
# Paths

A path is text: names with slashes between them. Empty names and the name `.` lead nowhere and
are passed over. `ancestors` are the directories from a path upwards; `parent?_length_lt` says
why they come to an end.
-/
namespace DialectBridge.Path

def names (path : Text) : List Text :=
  (Text.splitOn (· == '/') path).filter fun n => n ≠ [] ∧ n ≠ ['.']

def isAbsolute (path : Text) : Bool := path.head? == some '/'

/-- Whether a path begins with the name `.`, which then does count. -/
def startsHere (path : Text) : Bool := path.takeWhile (· != '/') == ['.']

/-- Whether two paths name the same steps. -/
def same (a b : Text) : Bool :=
  isAbsolute a == isAbsolute b && startsHere a == startsHere b && names a == names b

/-- The name at the end of a path, unless this is `..` or there is none. -/
def fileName? (path : Text) : Option Text :=
  match (names path).getLast? with
  | some name => if name = "..".toList then none else some name
  | none => none

/-- What follows the last point in the name at the end of a path. A point in front of the name
does not count. -/
def extension? (path : Text) : Option Text := do
  let name ← fileName? path
  let ending := name.reverse.takeWhile (· != '.')
  if ending.length + 1 < name.length then some ending.reverse else none

def isSqlFile (path : Text) : Bool := (extension? path).any (Text.sameLetters · "sql")

/-- The path of something in a directory. -/
def join (directory path : Text) : Text :=
  if isAbsolute path then path
  else if directory.isEmpty || directory.getLast? == some '/' then directory ++ path
  else directory ++ '/' :: path

/-- A path read from its end, without what leads nowhere there. -/
def bare : Text → Text
  | '/' :: r => if r.isEmpty then ['/'] else bare r
  | '.' :: '/' :: r => bare ('/' :: r)
  | r => r

theorem bare_length_le (r : Text) : (bare r).length ≤ r.length := by
  fun_induction bare r <;> simp_all <;> omega

/-- The directory that a path is in; none at the root and for a path without names. -/
def parent? (path : Text) : Option Text :=
  match bare path.reverse with
  | [] => none
  | '/' :: _ => none
  | c :: r => some (bare ((c :: r).dropWhile (· != '/'))).reverse

theorem parent?_length_lt {path directory : Text} (h : parent? path = some directory) :
    directory.length < path.length := by
  unfold parent? at h
  split at h
  · simp at h
  · simp at h
  · rename_i c r hc hb
    have h1 := bare_length_le path.reverse
    have h2 := bare_length_le ((c :: r).dropWhile (· != '/'))
    have h3 := (List.dropWhile_suffix (l := r) (· != '/')).length_le
    have hne : (c != '/') = true := by
      simp only [bne_iff_ne, ne_eq]
      rintro rfl
      exact hc rfl
    have hd : (c :: r).dropWhile (· != '/') = r.dropWhile (· != '/') :=
      List.dropWhile_cons_of_pos hne
    rw [hd] at h h2
    simp only [Option.some.injEq] at h
    subst h
    rw [hb] at h1
    simp only [List.length_reverse, List.length_cons] at *
    omega

/-- A path and the directories above it, up to the root. -/
def ancestors (path : Text) : List Text :=
  match _h : parent? path with
  | none => [path]
  | some directory => path :: ancestors directory
termination_by path.length
decreasing_by exact parent?_length_lt _h

end DialectBridge.Path
