import DialectBridge.File.Path
import Mathlib.Data.List.Infix
import Mathlib.Tactic.Common
/-!
# The names on a path

What a path names is put together from the names of its parts (`names_append`). So a path in a directory
names one step more than the directory (`names_join`), and the directories from an absolute path upwards are
the initial parts of its names, the longest first (`names_ancestors`).
-/
namespace DialectBridge

namespace Text

theorem consFirst_append (c : Char) {l : List Text} (hl : l ≠ []) (m : List Text) :
    consFirst c (l ++ m) = consFirst c l ++ m := by
  obtain ⟨piece, l, rfl⟩ := List.exists_cons_of_ne_nil hl
  rfl

theorem splitOn_ne_nil (p : Char → Bool) (t : Text) : splitOn p t ≠ [] := by
  cases t with
  | nil => simp [splitOn]
  | cons c t =>
    rw [splitOn]
    split
    · simp
    · cases splitOn p t <;> simp [consFirst]

theorem splitOn_append {p : Char → Bool} {c : Char} (hc : p c = true) (a b : Text) :
    splitOn p (a ++ c :: b) = splitOn p a ++ splitOn p b := by
  induction a with
  | nil => simp [splitOn, hc]
  | cons d a ih =>
    rw [List.cons_append, splitOn, splitOn, ih]
    split
    · rfl
    · exact consFirst_append d (splitOn_ne_nil p a) _

theorem splitOn_of_forall {p : Char → Bool} {t : Text} (ht : ∀ c ∈ t, p c = false) : splitOn p t = [t] := by
  induction t with
  | nil => rfl
  | cons c t ih =>
    rw [splitOn, if_neg (by simp [ht c]), ih fun d hd => ht d (by simp [hd])]
    rfl

end Text

namespace Path
variable {path directory : Text}

theorem names_append (a b : Text) : names (a ++ '/' :: b) = names a ++ names b := by
  simp [names, Text.splitOn_append]

theorem names_of_not_mem {t : Text} (ht : '/' ∉ t) :
    names t = if t = [] ∨ t = ['.'] then [] else [t] := by
  have hsplit : Text.splitOn (· == '/') t = [t] :=
    Text.splitOn_of_forall fun c hc => by
      rw [beq_eq_false_iff_ne]
      rintro rfl
      exact ht hc
  rw [names, hsplit]
  by_cases h : t = [] ∨ t = ['.']
  · rcases h with rfl | rfl <;> rfl
  · simp [not_or.1 h]

@[simp] theorem names_nil : names [] = [] := rfl

theorem names_append_slash (a : Text) : names (a ++ ['/']) = names a := by
  rw [names_append a [], names_nil, List.append_nil]

/-- A path is absolute if the text in front of it is. -/
theorem isAbsolute_append {a : Text} (ha : a ≠ []) (b : Text) : isAbsolute (a ++ b) = isAbsolute a := by
  rw [isAbsolute, isAbsolute, List.head?_append_of_ne_nil _ ha]

/-- A path in a directory either follows on it as it is or has a slash in front. -/
theorem join_eq (hpath : isAbsolute path = false) (directory : Text) :
    join directory path = directory ++ path ∧ (directory = [] ∨ ∃ a, directory = a ++ ['/']) ∨
      join directory path = directory ++ '/' :: path ∧ directory ≠ [] := by
  rw [join, if_neg (by simp [hpath])]
  split_ifs with h
  · refine .inl ⟨rfl, ?_⟩
    rw [Bool.or_eq_true, List.isEmpty_iff, beq_iff_eq, List.getLast?_eq_some_iff] at h
    exact h
  · refine .inr ⟨rfl, ?_⟩
    rintro rfl
    simp at h

theorem names_join (hpath : isAbsolute path = false) (directory : Text) :
    names (join directory path) = names directory ++ names path := by
  rcases join_eq hpath directory with ⟨hjoin, rfl | ⟨a, rfl⟩⟩ | ⟨hjoin, -⟩
  · rw [hjoin]
    rfl
  · rw [hjoin, List.append_assoc, names_append_slash]
    exact names_append a path
  · rw [hjoin, names_append]

theorem isAbsolute_join (hpath : isAbsolute path = false) (directory : Text) :
    isAbsolute (join directory path) = isAbsolute directory := by
  rcases join_eq hpath directory with ⟨hjoin, rfl | ⟨a, rfl⟩⟩ | ⟨hjoin, hne⟩
  · rw [hjoin]
    exact hpath
  · rw [hjoin, isAbsolute_append (by simp)]
  · rw [hjoin, isAbsolute_append hne]

theorem startsHere_append_slash (a b : Text) : startsHere (a ++ '/' :: b) = startsHere a := by
  have htake : (a ++ '/' :: b).takeWhile (· != '/') = a.takeWhile (· != '/') := by
    induction a with
    | nil => rfl
    | cons c a ih => rw [List.cons_append, List.takeWhile_cons, List.takeWhile_cons, ih]
  rw [startsHere, startsHere, htake]

theorem startsHere_join (hpath : isAbsolute path = false) (hstart : startsHere path = false) (directory : Text) :
    startsHere (join directory path) = startsHere directory := by
  rcases join_eq hpath directory with ⟨hjoin, rfl | ⟨a, rfl⟩⟩ | ⟨hjoin, hne⟩
  · rw [hjoin]
    exact hstart
  · rw [hjoin, List.append_assoc, startsHere_append_slash, List.singleton_append, startsHere_append_slash]
  · rw [hjoin, startsHere_append_slash]

/-- The same thing in two directories has the same path if the directories have. -/
theorem same_join (hpath : isAbsolute path = false) (hstart : startsHere path = false) (a b : Text) :
    same (join a path) (join b path) = same a b := by
  have hnames : (names (join a path) == names (join b path)) = (names a == names b) := by
    rw [Bool.eq_iff_iff, beq_iff_eq, beq_iff_eq, names_join hpath, names_join hpath, List.append_left_inj]
  rw [same, same, hnames, isAbsolute_join hpath, isAbsolute_join hpath, startsHere_join hpath hstart,
    startsHere_join hpath hstart]

theorem startsHere_of_isAbsolute (h : isAbsolute path = true) : startsHere path = false := by
  obtain ⟨t, rfl⟩ := List.head?_eq_some_iff.1 (beq_iff_eq.1 h)
  rfl

/-- Absolute paths are the same if they name the same steps. -/
theorem same_iff_of_isAbsolute {a b : Text} (ha : isAbsolute a = true) (hb : isAbsolute b = true) :
    same a b = true ↔ names a = names b := by
  simp [same, ha, hb, startsHere_of_isAbsolute]

/-! ## Upwards -/

theorem names_bare (r : Text) : names (bare r).reverse = names r.reverse := by
  fun_induction bare r with
  | case1 r hr =>
    obtain rfl : r = [] := by simpa using hr
    rfl
  | case2 r hr ih => rw [ih, List.reverse_cons, names_append_slash]
  | case3 r ih =>
    have hpoint : names ['.'] = [] := rfl
    rw [ih, List.reverse_cons, List.reverse_cons, List.reverse_cons, List.append_assoc, List.singleton_append,
      names_append, names_append, hpoint]
    rfl
  | case4 => rfl

theorem isAbsolute_bare (r : Text) : isAbsolute (bare r).reverse = isAbsolute r.reverse := by
  fun_induction bare r with
  | case1 r hr =>
    obtain rfl : r = [] := by simpa using hr
    rfl
  | case2 r hr ih => rw [ih, List.reverse_cons, isAbsolute_append (by simpa using hr)]
  | case3 r ih => rw [ih, List.reverse_cons (a := '.'), isAbsolute_append (by simp)]
  | case4 => rfl

/-- What is read first of a bare path is a name, unless the path is the root. -/
theorem bare_cons {r u : Text} {c : Char} (h : bare r = c :: u) :
    (c = '/' → u = []) ∧ (c = '.' → u.head? ≠ some '/') := by
  fun_induction bare r with
  | case1 r hr => simp_all
  | case2 r hr ih => exact ih h
  | case3 r ih => exact ih h
  | case4 r h1 h2 =>
    subst h
    refine ⟨fun hc => absurd (by rw [hc]) (h1 u), ?_⟩
    rintro rfl hu
    obtain ⟨u, rfl⟩ := List.head?_eq_some_iff.1 hu
    exact h2 u rfl

/-- The directory that an absolute path is in is absolute and names all but the last step. -/
theorem names_parent? (habsolute : isAbsolute path = true) :
    (parent? path = none ∧ names path = []) ∨
      ∃ directory name, parent? path = some directory ∧ isAbsolute directory = true ∧
        names path = names directory ++ [name] := by
  have hnames := names_bare path.reverse
  have hbare := isAbsolute_bare path.reverse
  rw [List.reverse_reverse] at hnames hbare
  rw [habsolute] at hbare
  rw [parent?, ← hnames]
  split
  · rename_i hnil
    simp [hnil, isAbsolute] at hbare
  · rename_i u hroot
    rw [hroot, (bare_cons hroot).1 rfl]
    exact .inl ⟨rfl, rfl⟩
  · rename_i c u hslash hname
    obtain ⟨-, hpoint⟩ := bare_cons hname
    have hc : c ≠ '/' := fun h => hslash (by rw [h])
    rw [hname] at hbare
    rw [hname]
    have hcut := List.takeWhile_append_dropWhile (p := (· != '/')) (l := c :: u)
    have hsegment : ∀ d ∈ (c :: u).takeWhile (· != '/'), d ≠ '/' := fun d hd => by
      simpa using List.all_eq_true.1 List.all_takeWhile d hd
    have hhead := List.head?_dropWhile_not (· != '/') (c :: u)
    generalize (c :: u).takeWhile (· != '/') = segment at *
    generalize (c :: u).dropWhile (· != '/') = rest at *
    have hnot : '/' ∉ segment.reverse := fun hmem => hsegment '/' (by simpa using hmem) rfl
    rw [← hcut, List.reverse_append] at hbare ⊢
    cases rest with
    | nil => exact absurd (List.mem_of_head? (beq_iff_eq.1 hbare)) (by simpa using hnot)
    | cons d v =>
      obtain rfl : d = '/' := by simpa using hhead
      have hname : names segment.reverse = [segment.reverse] := by
        rw [names_of_not_mem hnot, if_neg]
        rintro (hnil | hlone)
        · obtain rfl := List.reverse_eq_nil_iff.1 hnil
          exact hc (List.cons.inj hcut).1.symm
        · obtain rfl : segment = ['.'] := by simpa using hlone
          obtain ⟨rfl, rfl⟩ := List.cons.inj hcut
          exact hpoint rfl rfl
      refine .inr ⟨_, segment.reverse, rfl, ?_, ?_⟩
      · rwa [isAbsolute_append (by simp), ← isAbsolute_bare] at hbare
      · rw [names_bare, List.reverse_cons, names_append_slash, List.append_assoc, List.singleton_append,
          names_append, hname]

theorem names_ancestors (habsolute : isAbsolute path = true) :
    (ancestors path).map names = (names path).inits.reverse ∧ ∀ d ∈ ancestors path, isAbsolute d = true := by
  fun_induction ancestors path with
  | case1 path hparent =>
    rcases names_parent? habsolute with ⟨-, hnames⟩ | ⟨d, name, hd, -, -⟩
    · simp [hnames, habsolute]
    · rw [hparent] at hd
      cases hd
  | case2 path directory hparent ih =>
    rcases names_parent? habsolute with ⟨hnone, -⟩ | ⟨d, name, hd, hdir, hnames⟩
    · rw [hparent] at hnone
      cases hnone
    · rw [hparent] at hd
      cases hd
      obtain ⟨hmap, hall⟩ := ih hdir
      refine ⟨by simp [hmap, hnames, List.inits_append], ?_⟩
      simpa [habsolute] using hall

end Path

end DialectBridge
