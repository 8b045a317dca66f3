import DialectBridge.Proofs.Finding
/-!
# Words and signs

A text is cut into its words, as long as they are, and the single characters between them:
`pieces`. Its tokens are the pieces that are not white space. Both are made of those of the parts
of the text wherever it is not cut inside a word (`pieces_append`, `tokens_append`), and a keyword
that a pattern finds is one token (`Matches.pieces_eq`).
-/
namespace DialectBridge
open Pattern

/-- Whether no word goes on from the end of `a` into `b`. -/
def Apart (a b : Text) : Prop := endsInWord a = true → beginsInWord b = false

theorem Apart.of_ends {a : Text} (h : endsInWord a = false) (b : Text) : Apart a b := by
  simp [Apart, h]

theorem Apart.of_begins {b : Text} (h : beginsInWord b = false) (a : Text) : Apart a b :=
  fun _ => h

theorem Apart.endsInWord_eq_false {a b : Text} (h : Apart a b) (hb : beginsInWord b = true) :
    endsInWord a = false := by
  by_contra hend
  rw [h (by simpa using hend)] at hb
  cases hb

@[simp] theorem apart_nil_left (b : Text) : Apart [] b := .of_ends rfl b

@[simp] theorem apart_nil_right (a : Text) : Apart a [] := .of_begins rfl a

/-- Puts a character in front of some pieces. -/
def attach (c : Char) : List Text → List Text
  | [] => [[c]]
  | p :: ps => if Unicode.isWordChar c && beginsInWord p then (c :: p) :: ps else [c] :: p :: ps

/-- The words of a text and the single characters between them. -/
def pieces (t : Text) : List Text := t.foldr attach []

@[simp] theorem pieces_nil : pieces [] = [] := rfl

theorem pieces_cons (c : Char) (t : Text) : pieces (c :: t) = attach c (pieces t) := rfl

theorem flatten_attach (c : Char) (ps : List Text) : (attach c ps).flatten = c :: ps.flatten := by
  cases ps with
  | nil => rfl
  | cons p ps => rw [attach]; split <;> rfl

@[simp] theorem flatten_pieces (t : Text) : (pieces t).flatten = t := by
  induction t with
  | nil => rfl
  | cons c t ih => rw [pieces_cons, flatten_attach, ih]

theorem attach_ne_nil (c : Char) (ps : List Text) : attach c ps ≠ [] := by
  cases ps with
  | nil => simp [attach]
  | cons p ps => rw [attach]; split <;> simp

theorem attach_append {ps : List Text} (h : ps ≠ []) (c : Char) (qs : List Text) :
    attach c (ps ++ qs) = attach c ps ++ qs := by
  cases ps with
  | nil => exact absurd rfl h
  | cons p ps => rw [List.cons_append, attach, attach]; split <;> rfl

/-- The first character begins the first piece. -/
theorem exists_pieces_cons (c : Char) (t : Text) : ∃ p ps, pieces (c :: t) = (c :: p) :: ps := by
  rw [pieces_cons]
  cases pieces t with
  | nil => exact ⟨[], [], rfl⟩
  | cons q qs =>
    rw [attach]
    split
    · exact ⟨q, qs, rfl⟩
    · exact ⟨[], q :: qs, rfl⟩

theorem pieces_ne_nil {t : Text} (h : t ≠ []) : pieces t ≠ [] := by
  cases t with
  | nil => exact absurd rfl h
  | cons c t => exact attach_ne_nil c _

theorem ne_nil_of_mem_pieces {p t : Text} (h : p ∈ pieces t) : p ≠ [] := by
  induction t generalizing p with
  | nil => simp at h
  | cons c t ih =>
    rw [pieces_cons] at h
    cases hp : pieces t with
    | nil => simp_all [attach]
    | cons q qs =>
      rw [hp, attach] at h
      split at h
      · rcases List.mem_cons.1 h with rfl | h
        · simp
        · exact ih (by simp [hp, h])
      · rcases List.mem_cons.1 h with rfl | h
        · simp
        · exact ih (by simpa [hp] using h)

/-- A text begins as its first piece does. -/
theorem beginsInWord_of_pieces {t p : Text} {ps : List Text} (h : pieces t = p :: ps) :
    beginsInWord t = beginsInWord p := by
  have hp : p ≠ [] := ne_nil_of_mem_pieces (t := t) (by simp [h])
  rw [← flatten_pieces t, h, List.flatten_cons, beginsInWord_append hp]

/-- A text that is not cut inside a word has the pieces of its parts. -/
theorem pieces_append {a b : Text} (h : Apart a b) : pieces (a ++ b) = pieces a ++ pieces b := by
  induction a with
  | nil => rfl
  | cons c a ih =>
    by_cases ha : a = []
    · subst ha
      rw [List.singleton_append, pieces_cons, pieces_cons, pieces_nil]
      cases hb : pieces b with
      | nil => rfl
      | cons p ps =>
        have hbegin := beginsInWord_of_pieces hb
        by_cases hc : Unicode.isWordChar c = true
        · rw [h (by simpa using hc)] at hbegin
          simp [attach, ← hbegin]
        · simp [attach, hc]
    · have h' : Apart a b := by
        intro hend
        refine h ?_
        rw [← List.singleton_append, endsInWord_append ha]
        exact hend
      rw [List.cons_append, pieces_cons, pieces_cons, ih h', attach_append (pieces_ne_nil ha)]

/-- A word is one piece. -/
theorem pieces_word {w : Text} (hne : w ≠ []) (hw : ∀ c ∈ w, Unicode.isWordChar c = true) :
    pieces w = [w] := by
  induction w with
  | nil => exact absurd rfl hne
  | cons c w ih =>
    cases w with
    | nil => rfl
    | cons d w =>
      rw [pieces_cons, ih (by simp) fun c hc => hw c (by simp [hc]), attach]
      simp [hw c (by simp), hw d (by simp)]

theorem pieces_cons_of_not_word {c : Char} (hc : Unicode.isWordChar c = false) (t : Text) :
    pieces (c :: t) = [c] :: pieces t := by
  rw [← List.singleton_append, pieces_append (.of_ends (by simpa using hc) t)]
  rfl

/-- The pieces of a text can be divided between two texts. -/
theorem pieces_eq_append {t : Text} {ps qs : List Text} (h : pieces t = ps ++ qs) :
    pieces ps.flatten = ps ∧ pieces qs.flatten = qs ∧ Apart ps.flatten qs.flatten := by
  induction t generalizing ps with
  | nil =>
    obtain ⟨rfl, rfl⟩ : ps = [] ∧ qs = [] := by simpa using h
    simp
  | cons c t ih =>
    cases ps with
    | nil =>
      refine ⟨rfl, ?_, apart_nil_left _⟩
      rw [List.nil_append] at h
      rw [← h, flatten_pieces]
    | cons p ps =>
      rw [pieces_cons] at h
      cases ht : pieces t with
      | nil =>
        rw [ht] at h
        obtain ⟨rfl, rfl, rfl⟩ : p = [c] ∧ ps = [] ∧ qs = [] := by simpa [attach, eq_comm] using h
        simp [pieces_cons, attach]
      | cons r rs =>
        have hr : r ≠ [] := ne_nil_of_mem_pieces (t := t) (by simp [ht])
        rw [ht, attach] at h
        split_ifs at h with hword
        · -- the character goes on in the first piece of the rest
          obtain ⟨rfl, rfl⟩ : c :: r = p ∧ rs = ps ++ qs := by simpa using h
          obtain ⟨h1, h2, h3⟩ := @ih (r :: ps) (by simp [ht])
          refine ⟨?_, h2, fun hend => h3 ?_⟩
          · rw [List.flatten_cons, List.cons_append, ← List.flatten_cons, pieces_cons, h1, attach,
              if_pos hword]
          · rw [List.flatten_cons, List.cons_append, ← List.singleton_append,
              endsInWord_append (by simp [hr])] at hend
            exact hend
        · obtain ⟨rfl, hrs⟩ : [c] = p ∧ r :: rs = ps ++ qs := by simpa using h
          obtain ⟨h1, h2, h3⟩ := @ih ps (by rw [ht, hrs])
          have hc : Apart [c] (ps.flatten ++ qs.flatten) := by
            intro hend
            rw [← List.flatten_append, ← hrs, ← ht, flatten_pieces, beginsInWord_of_pieces ht]
            simpa [(show Unicode.isWordChar c = true from hend)] using hword
          refine ⟨?_, h2, ?_⟩
          · by_cases hps : ps.flatten = []
            · rw [hps, pieces_nil] at h1
              simp [← h1, pieces_cons, attach]
            · have hc' : Apart [c] ps.flatten := by
                intro hend
                rw [← beginsInWord_append hps]
                exact hc hend
              rw [List.flatten_cons, pieces_append hc', h1]
              rfl
          · by_cases hps : ps.flatten = []
            · simpa [hps] using hc
            · intro hend
              rw [List.flatten_cons, endsInWord_append hps] at hend
              exact h3 hend

/-! ## Tokens -/

def isBlankText (t : Text) : Bool := t.all Unicode.isBlank

/-- The words of a text and its other characters, without the white space. -/
def tokens (t : Text) : List Text := (pieces t).filter (!isBlankText ·)

@[simp] theorem tokens_nil : tokens [] = [] := rfl

theorem tokens_append {a b : Text} (h : Apart a b) : tokens (a ++ b) = tokens a ++ tokens b := by
  rw [tokens, pieces_append h, List.filter_append]
  rfl

theorem isWordChar_of_isBlank {c : Char} (h : Unicode.isBlank c = true) :
    Unicode.isWordChar c = false := by
  have key : ∀ n ∈ Unicode.blankRanges.flatMap fun s => List.range' s.1 (s.2 + 1 - s.1),
      Unicode.wordRanges.has n = false := by decide +kernel
  have hsorted : Unicode.Ranges.Sorted Unicode.blankRanges := by
    unfold Unicode.Ranges.Sorted
    decide
  obtain ⟨s, hs, h1, h2⟩ := (Unicode.Ranges.has_eq_true_iff hsorted).1 h
  exact key c.toNat (List.mem_flatMap.2 ⟨s, hs, List.mem_range'_1.2 ⟨h1, by omega⟩⟩)

theorem beginsInWord_signs {s t : Text} (hs : ∀ c ∈ s, Unicode.isWordChar c = false) (ht : beginsInWord t = false) :
    beginsInWord (s ++ t) = false := by
  cases s with
  | nil => exact ht
  | cons c s => exact hs c (by simp)

theorem endsInWord_signs {s : Text} (hne : s ≠ []) (hs : ∀ c ∈ s, Unicode.isWordChar c = false) (u : Text) :
    endsInWord (u ++ s) = false := by
  rw [endsInWord_append hne, ← List.dropLast_concat_getLast hne, endsInWord_append (by simp),
    endsInWord_singleton]
  exact hs _ (List.getLast_mem hne)

theorem apart_signs {s : Text} (hs : ∀ c ∈ s, Unicode.isWordChar c = false) (t : Text) : Apart s t := by
  by_cases hne : s = []
  · rw [hne]
    exact apart_nil_left t
  · exact .of_ends (endsInWord_signs hne hs []) t

theorem beginsInWord_blanks {b : Text} (h : ∀ c ∈ b, Unicode.isBlank c = true) {t : Text}
    (ht : beginsInWord t = false) : beginsInWord (b ++ t) = false :=
  beginsInWord_signs (fun c hc => isWordChar_of_isBlank (h c hc)) ht

theorem beginsInWord_of_blanks {b : Text} (hb : ∀ c ∈ b, Unicode.isBlank c = true) : beginsInWord b = false := by
  simpa using beginsInWord_blanks hb (t := []) rfl

theorem beginsInWord_blanks_append {b : Text} (hb : b ≠ [] ∧ ∀ c ∈ b, Unicode.isBlank c = true) (t : Text) :
    beginsInWord (b ++ t) = false := by
  rw [beginsInWord_append hb.1, beginsInWord_of_blanks hb.2]

theorem eq_nil_of_blanks {b t : Text} (hb : ∀ c ∈ b, Unicode.isBlank c = true)
    (h : ∀ c ∈ (b ++ t).head?, Unicode.isBlank c = false) : b = [] := by
  cases b with
  | nil => rfl
  | cons c b =>
    have hc := h c rfl
    rw [hb c (by simp)] at hc
    exact absurd hc (by decide)

theorem endsInWord_blanks {b : Text} (hne : b ≠ []) (hb : ∀ c ∈ b, Unicode.isBlank c = true)
    (u : Text) : endsInWord (u ++ b) = false :=
  endsInWord_signs hne (fun c hc => isWordChar_of_isBlank (hb c hc)) u

theorem isBlank_of_isWordChar {c : Char} (h : Unicode.isWordChar c = true) : Unicode.isBlank c = false := by
  by_contra hblank
  rw [isWordChar_of_isBlank (by simpa using hblank)] at h
  cases h

/-- A word is no white space. -/
theorem isBlank_of_word {w : Text} (hw : w ≠ [] ∧ ∀ c ∈ w, Unicode.isWordChar c = true) (t : Text) :
    ∀ c ∈ (w ++ t).head?, Unicode.isBlank c = false := by
  intro c hc
  obtain ⟨d, w, rfl⟩ := List.exists_cons_of_ne_nil hw.1
  obtain rfl : d = c := by simpa using hc
  exact isBlank_of_isWordChar (hw.2 d (by simp))

theorem eq_nil_of_blanks_append {b s t : Text} {c : Char} (hb : ∀ c ∈ b, Unicode.isBlank c = true)
    (hc : Unicode.isBlank c = false) (h : b ++ s = c :: t) : b = [] :=
  eq_nil_of_blanks hb (t := s) (by rw [h]; simpa using hc)

/-- What goes on as long as it can is told apart from what follows. -/
theorem takeWhile_append {p : Char → Bool} {a b : Text} (ha : ∀ c ∈ a, p c = true) (hb : ∀ c ∈ b.head?, p c = false) :
    (a ++ b).takeWhile p = a := by
  rw [List.takeWhile_append_of_pos ha]
  cases b with
  | nil => simp
  | cons c b => rw [List.takeWhile_cons_of_neg (by simpa using hb c rfl), List.append_nil]

theorem dropWhile_append {p : Char → Bool} {a b : Text} (ha : ∀ c ∈ a, p c = true) (hb : ∀ c ∈ b.head?, p c = false) :
    (a ++ b).dropWhile p = b := by
  have hsplit := List.takeWhile_append_dropWhile (p := p) (l := a ++ b)
  rw [takeWhile_append ha hb] at hsplit
  exact List.append_cancel_left hsplit

theorem append_inj_of_all {p : Char → Bool} {a a' b b' : Text} (ha : ∀ c ∈ a, p c = true) (ha' : ∀ c ∈ a', p c = true)
    (hb : ∀ c ∈ b.head?, p c = false) (hb' : ∀ c ∈ b'.head?, p c = false) (h : a ++ b = a' ++ b') :
    a = a' ∧ b = b' := by
  obtain rfl : a = a' := by rw [← takeWhile_append ha hb, h, takeWhile_append ha' hb']
  exact ⟨rfl, List.append_cancel_left h⟩

theorem head?_of_not_begins {t : Text} (ht : beginsInWord t = false) : ∀ c ∈ t.head?, Unicode.isWordChar c = false := by
  intro c hc
  obtain ⟨t, rfl⟩ := List.head?_eq_some_iff.1 hc
  exact ht

/-- Words that are followed by no word are told apart. -/
theorem word_inj {w w' t t' : Text} (hw : ∀ c ∈ w, Unicode.isWordChar c = true)
    (hw' : ∀ c ∈ w', Unicode.isWordChar c = true) (ht : beginsInWord t = false) (ht' : beginsInWord t' = false)
    (h : w ++ t = w' ++ t') : w = w' ∧ t = t' :=
  append_inj_of_all hw hw' (head?_of_not_begins ht) (head?_of_not_begins ht') h

theorem takeWhile_ne_nil_of_beginsInWord {t : Text} (ht : beginsInWord t = true) :
    t.takeWhile Unicode.isWordChar ≠ [] := by
  cases t with
  | nil => cases ht
  | cons c t => simpa [List.takeWhile_cons] using ht

theorem beginsInWord_dropWhile (t : Text) : beginsInWord (t.dropWhile Unicode.isWordChar) = false := by
  have hhead := List.head?_dropWhile_not Unicode.isWordChar t
  cases hdrop : t.dropWhile Unicode.isWordChar with
  | nil => rfl
  | cons d y => simpa [hdrop, beginsInWord_cons] using hhead

/-- A text that begins in a word has the word in front. -/
theorem exists_first_word {t : Text} (ht : beginsInWord t = true) : ∃ w y, t = w ++ y ∧ w ≠ [] ∧
    (∀ c ∈ w, Unicode.isWordChar c = true) ∧ beginsInWord y = false :=
  ⟨t.takeWhile Unicode.isWordChar, t.dropWhile Unicode.isWordChar, List.takeWhile_append_dropWhile.symm,
    takeWhile_ne_nil_of_beginsInWord ht, fun c hc => List.all_eq_true.1 List.all_takeWhile c hc,
    beginsInWord_dropWhile t⟩

/-- Every decimal digit is a word character. -/
theorem isWordChar_of_isDigit {c : Char} (h : Unicode.isDigit c = true) :
    Unicode.isWordChar c = true := by
  have key : Unicode.digitRanges.all (fun s => Unicode.wordRanges.any fun r =>
      Nat.ble r.1 s.1 && Nat.ble s.2 r.2) = true := by decide +kernel
  have hdigit : Unicode.Ranges.Sorted Unicode.digitRanges := by
    unfold Unicode.Ranges.Sorted
    decide
  have hword : Unicode.wordRanges.IsChain fun r s => r.1 ≤ s.1 := by decide +kernel
  obtain ⟨s, hs, h1, h2⟩ := (Unicode.Ranges.has_eq_true_iff hdigit).1 h
  obtain ⟨r, hr, hrs⟩ := List.any_eq_true.1 (List.all_eq_true.1 key s hs)
  simp only [Bool.and_eq_true, Nat.ble_eq] at hrs
  exact (Unicode.Ranges.has_eq_true_iff (List.isChain_iff_pairwise.1 hword)).2
    ⟨r, hr, by omega, by omega⟩

/-- A text without words is cut into its characters. -/
theorem pieces_of_no_words {t : Text} (h : ∀ c ∈ t, Unicode.isWordChar c = false) :
    pieces t = t.map fun c => [c] := by
  induction t with
  | nil => rfl
  | cons c t ih =>
    rw [pieces_cons_of_not_word (h c (by simp)), ih fun c hc => h c (by simp [hc])]
    rfl

theorem pieces_blanks {t : Text} (h : ∀ c ∈ t, Unicode.isBlank c = true) :
    pieces t = t.map fun c => [c] := pieces_of_no_words fun c hc => isWordChar_of_isBlank (h c hc)

/-- White space has no tokens. -/
theorem tokens_blanks {t : Text} (h : ∀ c ∈ t, Unicode.isBlank c = true) : tokens t = [] := by
  rw [tokens, pieces_blanks h, List.filter_eq_nil_iff]
  intro p hp
  obtain ⟨c, hc, rfl⟩ := List.mem_map.1 hp
  simp [isBlankText, h c hc]

theorem tokens_blanks_append {b : Text} (hb : ∀ c ∈ b, Unicode.isBlank c = true) (t : Text) :
    tokens (b ++ t) = tokens t := by
  by_cases hne : b = []
  · rw [hne, List.nil_append]
  · have hend : endsInWord b = false := endsInWord_blanks hne hb []
    rw [tokens_append (.of_ends hend t), tokens_blanks hb, List.nil_append]

/-- A text without tokens is white space. -/
theorem isBlank_of_tokens_eq_nil {t : Text} (h : tokens t = []) :
    ∀ c ∈ t, Unicode.isBlank c = true := by
  intro c hc
  rw [← flatten_pieces t, List.mem_flatten] at hc
  obtain ⟨p, hp, hcp⟩ := hc
  have hblank := List.filter_eq_nil_iff.1 h p hp
  rw [Bool.not_eq_true, Bool.not_eq_false'] at hblank
  exact List.all_eq_true.1 hblank c hcp

/-- The first character that is not white space begins the first token. -/
theorem exists_tokens_cons {c : Char} (hc : Unicode.isBlank c = false) (t : Text) :
    ∃ p ps, tokens (c :: t) = (c :: p) :: ps := by
  obtain ⟨p, ps, hp⟩ := exists_pieces_cons c t
  refine ⟨p, ps.filter (!isBlankText ·), ?_⟩
  rw [tokens, hp, List.filter_cons_of_pos]
  simp [isBlankText, hc]

theorem tokens_word {w : Text} (hne : w ≠ []) (hw : ∀ c ∈ w, Unicode.isWordChar c = true) :
    tokens w = [w] := by
  have hblank : isBlankText w = false := by
    cases w with
    | nil => exact absurd rfl hne
    | cons c w =>
      cases hc : Unicode.isBlank c with
      | false => simp [isBlankText, hc]
      | true => simp [isWordChar_of_isBlank hc] at hw
  rw [tokens, pieces_word hne hw]
  simp [hblank]

/-! ## Words that patterns take -/

/-- Whether a pattern takes whole words only. -/
def TakesWords (p : Pattern) : Prop :=
  ∀ u w v, Matches p u w v → w ≠ [] ∧ (∀ c ∈ w, Unicode.isWordChar c = true) ∧
    endsInWord u = false ∧ beginsInWord v = false

theorem takesWords_keyword {t : Text} (ht : isName t = true) : TakesWords (keyword t) := by
  intro u w v h
  obtain ⟨hw, hu, hv⟩ := (matches_keyword ht).1 h
  exact ⟨hw.ne_nil ht, hw.isWordChar ht, hu, hv⟩

namespace TakesWords
variable {p : Pattern}

theorem consuming (hp : TakesWords p) : p.Consuming := fun u w v h => (hp u w v h).1

theorem isolated (hp : TakesWords p) : p.Isolated := by
  intro u a b v ha hb h w v' _ h'
  obtain ⟨-, hword, -, -⟩ := hp _ _ _ h
  obtain ⟨-, -, hend, -⟩ := hp _ _ _ h'
  rw [endsInWord_append ha] at hend
  cases hr : a.reverse with
  | nil => exact ha (List.reverse_eq_nil_iff.1 hr)
  | cons c r =>
    have hmem : c ∈ a := List.mem_reverse.1 (by simp [hr])
    have hc := hword c (by simp [hmem])
    rw [endsInWord, hr] at hend
    exact Bool.false_ne_true (hend.symm.trans hc)

/-- A word that is taken is a piece of the text. -/
theorem pieces_eq (hp : TakesWords p) {u w v : Text} (h : Matches p u w v) :
    pieces (u ++ (w ++ v)) = pieces u ++ w :: pieces v := by
  obtain ⟨hne, hw, hu, hv⟩ := hp u w v h
  rw [pieces_append (.of_ends hu _), pieces_append (.of_begins hv _), pieces_word hne hw]
  rfl

theorem mem_findAll_iff (hp : TakesWords p) {t : Text} {m : Match} :
    m ∈ p.findAll t ↔ ∃ u x, t = u ++ x ∧ p.matchAt? (Cursor.between u x) = some m :=
  Pattern.mem_findAll_iff hp.consuming hp.isolated

end TakesWords

theorem TakesWords.unique {p : Pattern} (hp : TakesWords p) {u w v w' v' : Text}
    (h : Matches p u w v) (h' : Matches p u w' v') (hwv : w ++ v = w' ++ v') : w = w' ∧ v = v' := by
  have h1 := hp.pieces_eq h
  rw [hwv, hp.pieces_eq h', List.append_cancel_left_eq, List.cons.injEq] at h1
  obtain ⟨rfl, -⟩ := h1
  exact ⟨rfl, List.append_cancel_left hwv⟩

/-- The words that a pattern takes are what it finds. -/
theorem TakesWords.exists_mem_findAll {p : Pattern} (hp : TakesWords p) {u w v : Text}
    (h : Matches p u w v) :
    ∃ m ∈ p.findAll (u ++ (w ++ v)), m.first = Cursor.between u (w ++ v) ∧
      m.start = Text.width u ∧ m.stop = Text.width (u ++ w) := by
  obtain ⟨g, g', hw⟩ := h
  obtain ⟨m, hm⟩ := Option.isSome_iff_exists.1
    (isSome_matchAt?_iff.2 ⟨w, v, g, g', rfl, hw⟩ :
      (p.matchAt? (Cursor.between u (w ++ v))).isSome = true)
  obtain ⟨w', v', hwv, hfirst, hlast, hw'⟩ := matchAt?_eq_some hm
  obtain ⟨rfl, rfl⟩ := hp.unique ⟨g, g', hw⟩ ⟨_, _, hw'⟩ hwv
  refine ⟨m, hp.mem_findAll_iff.2 ⟨u, _, rfl, hm⟩, hfirst, ?_, ?_⟩
  · simp [Match.start, hfirst]
  · simp [Match.stop, hlast]

/-- A token stands in the text, and on its two sides the other tokens. -/
theorem exists_of_tokens_eq {t : Text} {ps qs : List Text} {s : Text}
    (h : tokens t = ps ++ s :: qs) :
    ∃ u v, t = u ++ (s ++ v) ∧ tokens u = ps ∧ tokens v = qs ∧ Apart u (s ++ v) ∧ Apart s v := by
  obtain ⟨as, bs, hp, hps, hbs⟩ := List.filter_eq_append_iff.1 h
  obtain ⟨cs, ds, rfl, hcs, -, hqs⟩ := List.filter_eq_cons_iff.1 hbs
  have hp' : pieces t = (as ++ cs) ++ s :: ds := by simpa using hp
  obtain ⟨h1, h2, h3⟩ := pieces_eq_append hp'
  obtain ⟨h4, h5, h6⟩ := pieces_eq_append (show pieces (s :: ds).flatten = [s] ++ ds from h2)
  refine ⟨(as ++ cs).flatten, ds.flatten, ?_, ?_, ?_, h3, by simpa using h6⟩
  · rw [← List.flatten_cons, ← List.flatten_append, ← hp', flatten_pieces]
  · rw [tokens, h1, List.filter_append, hps, List.filter_eq_nil_iff.2 hcs, List.append_nil]
  · rw [tokens, h5, hqs]

end DialectBridge
