import DialectBridge.Text.Basic
/-!
# Letters, parts and pieces of texts

Case here is that of ASCII letters; the other characters are equal to themselves alone.
`has_eq_true_iff` says what it is to stand in a text, and `flatten_splitOn` that splitting
loses nothing but the separators.
-/
namespace DialectBridge.Text

def spaces (n : Nat) : Text := List.replicate n ' '

/-- ASCII letters in upper case; every other character stays. -/
def upper (t : Text) : Text := t.map Char.toUpper

def lower (t : Text) : Text := t.map Char.toLower

/-- Equality up to the case of ASCII letters. -/
def sameLetters (a b : Text) : Bool := lower a == lower b

def has (part : Text) : Text → Bool
  | [] => part.isEmpty
  | c :: t => part.isPrefixOf (c :: t) || has part t

theorem has_eq_true_iff {part t : Text} : has part t = true ↔ part <:+: t := by
  induction t with
  | nil => simp [has]
  | cons c t ih => simp [has, ih, List.infix_cons_iff]

/-- Every occurrence of `part` from the left, none overlapping another, becomes `new`;
`skip` characters of an occurrence are still to be passed. -/
def replaceFrom (part new : Text) : Nat → Text → Text
  | _, [] => []
  | skip + 1, _ :: t => replaceFrom part new skip t
  | 0, c :: t =>
    if part.isPrefixOf (c :: t) then new ++ replaceFrom part new (part.length - 1) t
    else c :: replaceFrom part new 0 t

/-- Every occurrence of the nonempty `part` becomes `new`. -/
def replaceAll (part new t : Text) : Text := replaceFrom part new 0 t

def replaceFirst (part new : Text) : Text → Text
  | [] => []
  | c :: t =>
    if part.isPrefixOf (c :: t) then new ++ (c :: t).drop part.length
    else c :: replaceFirst part new t

/-- `t` without the trailing characters that satisfy `p`. -/
def dropTrailing (p : Char → Bool) (t : Text) : Text := (t.reverse.dropWhile p).reverse

/-- What is dropped at the end satisfies `p`. -/
theorem exists_eq_dropTrailing_append (p : Char → Bool) (t : Text) :
    ∃ tail : Text, t = dropTrailing p t ++ tail ∧ ∀ c ∈ tail, p c = true := by
  refine ⟨(t.reverse.takeWhile p).reverse, ?_, fun c hc => ?_⟩
  · rw [dropTrailing, ← List.reverse_append, List.takeWhile_append_dropWhile,
      List.reverse_reverse]
  · exact List.all_eq_true.1 List.all_takeWhile c (List.mem_reverse.1 hc)

def join (sep : Text) (parts : List Text) : Text := List.intercalate sep parts

theorem join_cons {sep t : Text} {parts : List Text} (h : parts ≠ []) :
    join sep (t :: parts) = t ++ sep ++ join sep parts := by
  obtain ⟨u, parts, rfl⟩ := List.exists_cons_of_ne_nil h
  simp [join, List.intercalate]

/-- Lines, each with its line feed. -/
def unlines (lines : List Text) : Text := lines.flatMap fun l => l ++ ['\n']

/-- `c` in front of the first of some pieces. -/
def consFirst (c : Char) : List Text → List Text
  | [] => [[c]]
  | piece :: more => (c :: piece) :: more

/-- The pieces of `t` between the characters that satisfy `p`. -/
def splitOn (p : Char → Bool) : Text → List Text
  | [] => [[]]
  | c :: t => if p c then [] :: splitOn p t else consFirst c (splitOn p t)

/-- The pieces are the text without the characters that satisfy `p`. -/
theorem flatten_splitOn (p : Char → Bool) (t : Text) :
    (splitOn p t).flatten = t.filter (!p ·) := by
  have hcons : ∀ (c : Char) (pieces : List Text),
      (consFirst c pieces).flatten = c :: pieces.flatten := by
    intro c pieces
    cases pieces <;> simp [consFirst]
  induction t with
  | nil => rfl
  | cons c t ih => by_cases h : p c = true <;> simp [splitOn, h, hcons, ih]

end DialectBridge.Text
