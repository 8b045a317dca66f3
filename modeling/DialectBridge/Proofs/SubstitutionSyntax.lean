import DialectBridge.Substitution
import Mathlib.Tactic.Common
/-!
# The syntax of substitutions

Splitting at the delimiters and joining the pieces with their delimiters escaped undo each other (`join_split`,
`split_join`). So `parse` reads back every substitution in the form in which it is written, and what it accepts has
this form (`parse_written`).
-/
namespace DialectBridge.Substitution

section
variable {d c : Char} {p r f t : Text} {pieces : List Text} {flags result : Flags}

/-! ## Splitting and joining -/

/-- The pieces with the delimiters in them escaped, and a delimiter between neighbours. -/
def join (d : Char) (pieces : List Text) : Text := Text.join [d] (pieces.map (escape d))

@[simp] theorem join_singleton : join d [p] = escape d p := by
  simp [join, Text.join, List.intercalate]

theorem join_cons (h : pieces ≠ []) : join d (p :: pieces) = escape d p ++ d :: join d pieces := by
  rw [join, List.map_cons, Text.join_cons (by simpa using h), List.append_assoc]
  rfl

theorem escape_of_not_mem (h : d ∉ p) : escape d p = p := by
  induction p with
  | nil => rfl
  | cons c p ih =>
    rw [List.mem_cons, not_or] at h
    rw [escape, if_neg (Ne.symm h.1), ih h.2]

theorem escape_append (d : Char) (p r : Text) : escape d (p ++ r) = escape d p ++ escape d r := by
  induction p with
  | nil => rfl
  | cons c p ih => by_cases hc : c = d <;> simp [escape, hc, ih]

theorem split_ne_nil (d : Char) (t : Text) : split d t ≠ [] := by
  have hcons : ∀ (c : Char) (pieces : List Text), Text.consFirst c pieces ≠ [] := by
    intro c pieces
    cases pieces <;> simp [Text.consFirst]
  fun_induction split d t with
  | case1 | case2 | case3 | case5 => simp
  | case4 | case6 => exact hcons _ _

/-- A character in front of the first piece stands in front of all of them. -/
theorem join_consFirst (h : pieces ≠ []) : join d (Text.consFirst c pieces) = escape d [c] ++ join d pieces := by
  obtain ⟨p, pieces, rfl⟩ := List.exists_cons_of_ne_nil h
  have hescape : escape d (c :: p) = escape d [c] ++ escape d p := escape_append d [c] p
  by_cases hnil : pieces = []
  · simp [hnil, Text.consFirst, hescape]
  · rw [Text.consFirst, join_cons hnil, join_cons hnil, hescape, List.append_assoc]

/-- A text is its pieces with their delimiters escaped. -/
theorem join_split (d : Char) (t : Text) : join d (split d t) = t := by
  fun_induction split d t with
  | case1 => rfl
  | case2 => simp [join, escape, Text.join, List.intercalate]
  | case3 c hc => simp [escape, hc]
  | case4 c e t h ih =>
    rw [join_consFirst (split_ne_nil _ _), ih, h.1, h.2]
    simp [escape]
  | case5 e t hnot ih =>
    rw [join_cons (split_ne_nil _ _), ih]
    rfl
  | case6 c e t hnot hc ih =>
    rw [join_consFirst (split_ne_nil _ _), ih]
    simp [escape, hc]

/-- The last piece is read whatever it ends in. -/
theorem split_escape_last (hd : d ≠ '\\') (p : Text) : split d (escape d p) = [p] := by
  induction p with
  | nil => rfl
  | cons c p ih =>
    by_cases hc : c = d
    · rw [escape, if_pos hc, hc, split_escaped, ih]
      rfl
    · rw [escape, if_neg hc, split_cons hc, ih]
      · rfl
      · by_cases hp : p = []
        · exact .inr (by simp [hp, escape])
        · have := head?_escape_append_ne hd hp []
          exact .inr (by rwa [List.append_nil] at this)

/-- Pieces of which only the last one can end in a backslash are read back. -/
theorem split_join (hd : d ≠ '\\') (hne : pieces ≠ []) (hlast : ∀ p ∈ pieces.dropLast, p.getLast? ≠ some '\\') :
    split d (join d pieces) = pieces := by
  induction pieces with
  | nil => exact absurd rfl hne
  | cons p pieces ih =>
    by_cases hnil : pieces = []
    · rw [hnil, join_singleton, split_escape_last hd]
    · rw [List.dropLast_cons_of_ne_nil hnil] at hlast
      rw [join_cons hnil, split_escape hd (hlast p (by simp)), ih hnil fun q hq => hlast q (by simp [hq])]

/-! ## Flags -/

def IsFlags (f : Text) : Prop := ∀ c ∈ f, c = 'g' ∨ c = 'i'

instance (f : Text) : Decidable (IsFlags f) := inferInstanceAs (Decidable (∀ c ∈ f, _))

theorem readFlags_eq_ok : readFlags flags f = .ok result ↔ IsFlags f ∧
    result = ⟨flags.everywhere || f.contains 'g', flags.caseInsensitive || f.contains 'i'⟩ := by
  induction f generalizing flags with
  | nil => simp [readFlags, IsFlags, eq_comm]
  | cons c f ih =>
    rw [readFlags]
    by_cases hg : c = 'g'
    · rw [if_pos hg, ih]
      simp [IsFlags, hg]
    · by_cases hi : c = 'i'
      · rw [if_neg hg, if_pos hi, ih]
        simp [IsFlags, hi]
      · simp [IsFlags, hg, hi]

/-! ## Substitutions as they are written -/

theorem ne_of_isDelimiter (hd : isDelimiter d = true) : d ≠ '\\' ∧ d ≠ 'g' ∧ d ≠ 'i' := by
  refine ⟨?_, ?_, ?_⟩ <;> rintro rfl <;> exact absurd hd (by decide)

theorem not_mem_flags (hd : isDelimiter d = true) (hf : IsFlags f) : d ∉ f := fun hmem =>
  (hf d hmem).elim (ne_of_isDelimiter hd).2.1 (ne_of_isDelimiter hd).2.2

/-- A substitution with its flags `f`, as it is written. Without flags the last delimiter can be left out. -/
inductive Written (d : Char) (p r : Text) : Text → Text → Prop
  | closed (f : Text) : Written d p r f ('s' :: d :: (escape d p ++ d :: (escape d r ++ d :: f)))
  | unclosed : Written d p r [] ('s' :: d :: (escape d p ++ d :: escape d r))

/-- What is written are the pieces that are joined. -/
theorem written_iff (hd : isDelimiter d = true) (hf : IsFlags f) : Written d p r f t ↔
    ∃ pieces, t = 's' :: d :: join d pieces ∧ (pieces = [p, r] ∧ f = [] ∨ pieces = [p, r, f]) := by
  have hescape : escape d f = f := escape_of_not_mem (not_mem_flags hd hf)
  constructor
  · rintro (_ | _)
    · exact ⟨[p, r, f], by simp [join_cons, hescape], .inr rfl⟩
    · exact ⟨[p, r], by simp [join_cons], .inl ⟨rfl, rfl⟩⟩
  · rintro ⟨pieces, rfl, ⟨rfl, rfl⟩ | rfl⟩
    · simpa [join_cons] using Written.unclosed (d := d) (p := p) (r := r)
    · simpa [join_cons, hescape] using Written.closed (d := d) (p := p) (r := r) f

/-- What is made of three parts: the pattern is not empty, and the flags are read. -/
theorem finish_eq_ok (p' r' f : Text) : (if p'.isEmpty = true then .error .emptyPattern else
      match readFlags ⟨false, false⟩ f with
      | .ok fl => .ok (p', r', fl)
      | .error c => .error (.unknownFlag c) : Except SubstitutionFault (Text × Text × Flags)) = .ok (p, r, flags) ↔
    p ≠ [] ∧ p' = p ∧ r' = r ∧ readFlags ⟨false, false⟩ f = .ok flags := by
  cases readFlags ⟨false, false⟩ f <;> by_cases hp : p' = [] <;> simp [hp] <;> grind

/-- The parts of a text behind its delimiter are its two or three pieces. -/
theorem parts_eq_ok {body : Text} (hd : isDelimiter d = true) : parts ('s' :: d :: body) = .ok (p, r, flags) ↔
    p ≠ [] ∧ ∃ f, (split d body = [p, r] ∧ f = [] ∨ split d body = [p, r, f]) ∧
      readFlags ⟨false, false⟩ f = .ok flags := by
  simp only [parts, hd, Bool.not_true, Bool.false_eq_true, if_false]
  rcases split d body with _ | ⟨p', _ | ⟨r', _ | ⟨f, _ | ⟨g, more⟩⟩⟩⟩ <;> dsimp only
  case cons.cons.nil => exact (finish_eq_ok p' r' []).trans (by simp [and_assoc])
  case cons.cons.cons.nil => exact (finish_eq_ok p' r' f).trans (by simp [and_assoc])
  all_goals simp

/-- Nothing else has parts. -/
theorem exists_of_parts_eq_ok (h : parts t = .ok (p, r, flags)) :
    ∃ d body, t = 's' :: d :: body ∧ isDelimiter d = true := by
  unfold parts at h
  split at h
  · simp at h
  · rename_i d body
    by_cases hd : isDelimiter d = true
    · exact ⟨d, body, rfl, hd⟩
    · simp [hd] at h
  · simp at h

end

/-- A substitution whose parts are read back from what is written. -/
structure Script where
  delimiter : Char
  pattern : Text
  replacement : Text
  flags : Text
  isDelimiter : isDelimiter delimiter = true
  pattern_ne_nil : pattern ≠ []
  pattern_last : pattern.getLast? ≠ some '\\'
  replacement_last : replacement.getLast? ≠ some '\\'
  isFlags : IsFlags flags

/-- The substitution that a script stands for, if its pattern is a regular expression. -/
def Script.outcome (s : Script) : Except Error Substitution :=
  match Regex.compile? (s.flags.contains 'i') s.pattern with
  | none => .error (.invalidRegex s.pattern)
  | some regex => .ok ⟨s.pattern, regex, s.replacement, s.flags.contains 'g'⟩

variable {t : Text}

theorem Script.parts_eq (s : Script) (h : Written s.delimiter s.pattern s.replacement s.flags t) :
    parts t = .ok (s.pattern, s.replacement, ⟨s.flags.contains 'g', s.flags.contains 'i'⟩) := by
  obtain ⟨pieces, rfl, hpieces⟩ := (written_iff s.isDelimiter s.isFlags).1 h
  have hread : readFlags ⟨false, false⟩ s.flags = .ok ⟨s.flags.contains 'g', s.flags.contains 'i'⟩ :=
    readFlags_eq_ok.2 ⟨s.isFlags, by simp⟩
  have hsplit : split s.delimiter (join s.delimiter pieces) = pieces := by
    refine split_join (ne_of_isDelimiter s.isDelimiter).1 ?_ ?_
    · rcases hpieces with ⟨rfl, -⟩ | rfl <;> simp
    · rcases hpieces with ⟨rfl, -⟩ | rfl <;> simp [s.pattern_last, s.replacement_last]
  refine (parts_eq_ok s.isDelimiter).2 ⟨s.pattern_ne_nil, s.flags, ?_, hread⟩
  rwa [hsplit]

theorem Script.parse_eq (s : Script) (h : Written s.delimiter s.pattern s.replacement s.flags t) :
    parse t = s.outcome := by
  rw [parse, s.parts_eq h]
  rfl

/-- The parts of a text with the command and a delimiter are the parts that it is written from. -/
theorem exists_written {p r : Text} {flags : Flags} (h : parts t = .ok (p, r, flags)) : ∃ d f, isDelimiter d = true ∧
    IsFlags f ∧ Written d p r f t ∧ flags = ⟨f.contains 'g', f.contains 'i'⟩ := by
  obtain ⟨d, body, rfl, hd⟩ := exists_of_parts_eq_ok h
  obtain ⟨-, f, hsplit, hread⟩ := (parts_eq_ok hd).1 h
  obtain ⟨hf, hflags⟩ := readFlags_eq_ok.1 hread
  exact ⟨d, f, hd, hf, (written_iff hd hf).2 ⟨split d body, by rw [join_split], hsplit⟩, by simpa using hflags⟩

/-- What is written is read back, and what is read has been written so. -/
theorem parse_written :
    (∀ (s : Script) (t : Text), Written s.delimiter s.pattern s.replacement s.flags t → parse t = s.outcome) ∧
    ∀ (t : Text) (sub : Substitution), parse t = .ok sub → ∃ d f, isDelimiter d = true ∧ IsFlags f ∧
      Written d sub.pattern sub.replacement f t ∧ sub.everywhere = f.contains 'g' ∧
        Regex.compile? (f.contains 'i') sub.pattern = some sub.regex := by
  constructor
  · exact fun s t h => s.parse_eq h
  · intro t sub h
    unfold parse at h
    split at h
    · simp at h
    · rename_i p r flags hparts
      obtain ⟨d, f, hd, hf, hwritten, rfl⟩ := exists_written hparts
      split at h
      · simp at h
      · rename_i regex hregex
        obtain rfl := Except.ok.inj h
        exact ⟨d, f, hd, hf, hwritten, rfl, hregex⟩

/-- An escaped delimiter with both flags, and a substitution without its last delimiter. -/
theorem parse_written_bar : parse "s|a\\|b|c|gi" =
      Script.outcome ⟨'|', "a|b", "c", "gi", by decide, by decide, by decide, by decide, by decide⟩ ∧
    ∃ sub, parse "s/a/b" = .ok sub ∧ ∃ d f, isDelimiter d = true ∧ Written d sub.pattern sub.replacement f "s/a/b" := by
  refine ⟨parse_written.1 _ _ (.closed "gi".toList), ?_⟩
  obtain ⟨sub, hsub⟩ : ∃ sub, parse "s/a/b" = .ok sub := ⟨_, rfl⟩
  obtain ⟨d, f, hd, -, hwritten, -⟩ := parse_written.2 _ sub hsub
  exact ⟨sub, hsub, d, f, hd, hwritten⟩

end DialectBridge.Substitution
