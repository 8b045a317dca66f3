import DialectBridge.Proofs.ZeroOffsets
/-!
# Row limits there and back

A query is put together from parts without the keywords of queries (`Fragment`). Its limit becomes a `TOP`, and the `TOP`
this limit again, whether there are other conditions or not; the `FETCH` clause of an ordered query gets an `OFFSET`
and loses it again (`rowLimits_roundTrip`).
-/
namespace DialectBridge
open Pattern Cursor LexState ToTsql ToOracle

/-! ## Code without quotes -/

/-- Whether `c` is shown by the mask wherever no quote and no comment is open: it begins neither. -/
def isShown (c : Char) : Bool := !(['\'', '"', '-', '/'].contains c)

section
variable {t : Text}

theorem ofCode_of_isShown {c : Char} (h : isShown c = true) : ofCode c = code ∧ ∀ t, beginsComment c t = false := by
  simp only [isShown, List.contains_cons, List.contains_nil, Bool.or_false, Bool.not_eq_true', Bool.or_eq_false_iff,
    beq_eq_false_iff_ne, ne_eq] at h
  exact ⟨by simp [ofCode, h], fun t => by simp [beginsComment, h]⟩

theorem after_of_all_isShown (h : ∀ c ∈ t, isShown c = true) : code.after t = code := by
  induction t with
  | nil => rfl
  | cons c t ih =>
    rw [after_cons, step, (ofCode_of_isShown (h c (by simp))).1]
    exact ih fun d hd => h d (List.mem_cons_of_mem c hd)

theorem mask_of_all_isShown (h : ∀ c ∈ t, isShown c = true) : mask t = t := by
  rw [← maskFrom_code]
  induction t with
  | nil => rfl
  | cons c t ih =>
    obtain ⟨hstep, hcomment⟩ := ofCode_of_isShown (h c (by simp))
    have hhides : code.hides c t = false := hcomment t
    rw [maskFrom_cons, glance, hhides, step, hstep, ih fun d hd => h d (List.mem_cons_of_mem c hd)]
    rfl

end

/-- A text of code that closes its parentheses and has neither some names nor a `TOP`. -/
structure Exposed (names : List String) (t : Text) : Prop where
  shown : ∀ c ∈ t, isShown c = true
  nested : ∀ d, nest d t = some d
  spares : Spares names t
  topless : ∀ p ∈ pieces t, isTopWord p = false

section
variable {names names' : List String} {a b t : Text}

theorem Exposed.mask_eq (h : Exposed names t) : mask t = t := mask_of_all_isShown h.shown

theorem Exposed.after_eq (h : Exposed names t) : code.after t = code := after_of_all_isShown h.shown

theorem Exposed.mono (h : Exposed names t) (hsub : names' ⊆ names) : Exposed names' t :=
  ⟨h.shown, h.nested, h.spares.mono hsub, h.topless⟩

theorem Exposed.append (ha : Exposed names a) (hb : Exposed names b) (h : Apart a b) : Exposed names (a ++ b) where
  shown := List.forall_mem_append.2 ⟨ha.shown, hb.shown⟩
  nested d := by rw [nest_append, ha.nested, Option.bind_some, hb.nested]
  spares := spares_append ha.spares hb.spares h
  topless := by
    rw [pieces_append h]
    exact List.forall_mem_append.2 ⟨ha.topless, hb.topless⟩

/-- A text of code without parentheses that has neither some names nor a `TOP`. -/
def Neutral (names : List String) (t : Text) : Prop :=
  (∀ c ∈ t, isShown c = true) ∧ ('(' ∉ t ∧ ')' ∉ t) ∧ Spares names t ∧ ∀ p ∈ pieces t, isTopWord p = false

instance : Decidable (Neutral names t) := inferInstanceAs (Decidable (_ ∧ _))

theorem exposed_of_neutral (h : Neutral names t) : Exposed names t :=
  ⟨h.1, nest_of_not_mem h.2.1.1 h.2.1.2, h.2.2.1, h.2.2.2⟩

theorem Exposed.topWords_eq (h : Exposed names t) : topWords t = 0 := by
  rw [topWords, h.mask_eq]
  refine List.countP_eq_zero.2 fun p hp => ?_
  rw [h.topless p (tokens_subset_pieces _ hp)]
  exact Bool.false_ne_true

theorem Exposed.spares_top (h : Exposed names t) : Spares ("TOP" :: names) t := by
  intro p hp n hn hspelled
  rcases List.mem_cons.1 hn with rfl | hn
  · have htop := isTopWord_append hspelled (List.forall_mem_nil _)
    rw [List.append_nil, h.topless p hp] at htop
    cases htop
  · exact h.spares p hp n hn hspelled

theorem isShown_of_isPlain {c : Char} (h : isPlain c = true) : isShown c = true := by
  simp only [isPlain, Bool.and_eq_true, bne_iff_ne, ne_eq] at h
  simp [isShown, h]

theorem exposed_ofNat (hnames : ∀ n ∈ names, beginsInLetters n.toList = true) (n : Nat) : Exposed names (Text.ofNat n) where
  shown c hc := isShown_of_isPlain (isPlain_of_isWordChar (isWordChar_of_mem_ofNat c hc))
  nested := nest_of_isWordChar_or_isBlank fun c hc => .inl (isWordChar_of_mem_ofNat c hc)
  spares := spares_digits hnames fun _ hc => Text.isDigit_of_mem_ofNat hc
  topless := by
    rw [pieces_ofNat]
    simpa using isTopWord_of_mem_filterTokens (isNumeral_ofNat n) (p := Text.ofNat n) (by simp [filterTokens, limitTokens])

end

/-! ## Parts of a query -/

def keywords : List String := ["SELECT", "DISTINCT", "ALL", "FROM", "WHERE", "AND", "OR", "ROWNUM", "GROUP", "ORDER",
  "HAVING", "UNION", "INTERSECT", "EXCEPT", "MINUS", "OFFSET", "FETCH", "PERCENT", "WITH"]

/-- Whether `c` is one of the characters that a part of a query can have. -/
def isFragmentChar (c : Char) : Bool := c.isAlphanum || ['_', ',', '.', '*', '=', '(', ')', ' '].contains c

/-- A list of columns, a table, a condition or a sort key: text without keywords, and without a word that begins with
`TOP`. -/
structure Fragment (t : Text) : Prop where
  ne_nil : t ≠ []
  chars : ∀ c ∈ t, isFragmentChar c = true
  first : t.head? ≠ some ' '
  last : t.getLast? ≠ some ' '
  nested : WellNested t
  spares : Spares keywords t
  topless : ∀ p ∈ pieces t, ¬ Spelled "TOP".toList (p.take 3)

instance (t : Text) : Decidable (Fragment t) :=
  decidable_of_iff (t ≠ [] ∧ (∀ c ∈ t, isFragmentChar c = true) ∧ t.head? ≠ some ' ' ∧ t.getLast? ≠ some ' ' ∧ WellNested t ∧
      Spares keywords t ∧ ∀ p ∈ pieces t, ¬ Spelled "TOP".toList (p.take 3))
    ⟨fun ⟨h1, h2, h3, h4, h5, h6, h7⟩ => ⟨h1, h2, h3, h4, h5, h6, h7⟩,
      fun h => ⟨h.ne_nil, h.chars, h.first, h.last, h.nested, h.spares, h.topless⟩⟩

section
variable {t : Text}

theorem isFragmentChar_cases {c : Char} (h : isFragmentChar c = true) :
    isShown c = true ∧ (c ≠ ' ' → Unicode.isBlank c = false ∧ isBlockEnd c = false) ∧ c ≠ '\n' := by
  rw [isFragmentChar, Bool.or_eq_true] at h
  rcases h with h | h
  · have hword : Unicode.isWordChar c = true :=
      isWordChar_of_mem_caseVariants (by rw [h, Bool.true_or]) (Unicode.self_mem_caseVariants c)
    have hend : isBlockEnd c = false := by
      by_contra hend
      rw [isWordChar_of_isBlockEnd (by simpa using hend)] at hword
      cases hword
    refine ⟨isShown_of_isPlain (isPlain_of_isWordChar hword), fun _ => ⟨isBlank_of_isWordChar hword, hend⟩, ?_⟩
    rintro rfl
    exact absurd hword (by decide)
  · have hsigns : ∀ c ∈ ['_', ',', '.', '*', '=', '(', ')', ' '], isShown c = true ∧
        (c ≠ ' ' → Unicode.isBlank c = false ∧ isBlockEnd c = false) ∧ c ≠ '\n' := by decide
    exact hsigns c (by simpa using h)

theorem Fragment.exposed (h : Fragment t) : Exposed keywords t where
  shown c hc := (isFragmentChar_cases (h.chars c hc)).1
  nested d := by simpa using nest_add (wellNested_iff.1 h.nested) d
  spares := h.spares
  topless p hp := by rw [isTopWord, decide_eq_false (h.topless p hp), Bool.false_and]

theorem Fragment.isBlank_head (h : Fragment t) (x : Text) : ∀ c ∈ (t ++ x).head?, Unicode.isBlank c = false := by
  intro c hc
  rw [List.head?_append_of_ne_nil _ h.ne_nil] at hc
  refine ((isFragmentChar_cases (h.chars c (List.mem_of_head? hc))).2.1 ?_).1
  rintro rfl
  exact h.first hc

theorem Fragment.isBlockEnd_last (h : Fragment t) (x : Text) :
    ∀ c ∈ (x ++ t).getLast?, Unicode.isBlank c = false ∧ isBlockEnd c = false := by
  intro c hc
  rw [List.getLast?_append_of_ne_nil _ h.ne_nil] at hc
  refine (isFragmentChar_cases (h.chars c (List.mem_of_getLast? hc))).2.1 ?_
  rintro rfl
  exact h.last hc

theorem Fragment.oneLine (h : Fragment t) : '\n' ∉ t := fun hmem => (isFragmentChar_cases (h.chars _ hmem)).2.2 rfl

end

/-! ## Queries -/

def sourceText (columns table : Text) : Text := columns ++ (tableHead ++ table)

/-- Conditions, if there are some, behind `s`. -/
def conditionsText (s : Text) : Option Text → Text
  | none => []
  | some conditions => s ++ conditions

/-- A query with a limit for its rows, in front of other conditions if there are some. -/
def rownumQuery (columns table : Text) (n : Nat) (conditions : Option Text) : Text :=
  listHead ++ (sourceText columns table ++ (limitHead ++ (Text.ofNat n ++ conditionsText " AND ".toList conditions)))

def topQuery (columns table : Text) (n : Nat) (conditions : Option Text) : Text :=
  headWord ++ (topText n ++ ' ' :: (sourceText columns table ++ conditionsText whereHead conditions))

def orderedQuery (columns table keys : Text) : Text :=
  listHead ++ (sourceText columns table ++ (" ORDER BY ".toList ++ (keys ++ [' '])))

example : rownumQuery "a, b" "t" 10 none = "SELECT a, b FROM t WHERE ROWNUM <= 10".toList := by decide

example : topQuery "a, b" "t" 10 (some "f(x) = 1") = "SELECT TOP 10 a, b FROM t WHERE f(x) = 1".toList := by decide

example : orderedQuery "a, b" "t" "c" ++ rowClause "FIRST" (Text.ofNat 10) =
    "SELECT a, b FROM t ORDER BY c FETCH FIRST 10 ROWS ONLY".toList := by decide

section
variable {columns table keys condition : Text} {conditions : Option Text} {n : Nat}

/-- The names that neither the columns nor the table with the word between them have. -/
def sourceNames : List String := keywords.erase "FROM"

theorem exposed_sourceText (hcolumns : Fragment columns) (htable : Fragment table) :
    Exposed sourceNames (sourceText columns table) := by
  have hhead : Exposed sourceNames tableHead := exposed_of_neutral (by decide)
  have hsub : sourceNames ⊆ keywords := List.erase_subset
  refine (hcolumns.exposed.mono hsub).append (hhead.append (htable.exposed.mono hsub) (.of_ends (by decide) _)) (.of_begins ?_ _)
  rw [beginsInWord_append (by decide)]
  decide

theorem exposed_space (names : List String) (hnames : Spares names [' ']) {t : Text} (h : Exposed names t) : Exposed names (' ' :: t) := by
  have hspace : Exposed names [' '] := exposed_of_neutral ⟨by decide, by decide, hnames, by decide⟩
  exact hspace.append h (.of_ends (by decide) _)

/-! ## A `ROWNUM` that becomes a `TOP` -/

theorem bounded_rownumQuery (n : Nat) {rest : Text} (hcolumns : Fragment columns) (htable : Fragment table)
    (hbegins : beginsInWord rest = false) (hrest : Spares ["ROWNUM"] (mask rest)) :
    Bounded (headWord ++ ' ' :: sourceText columns table) (Text.ofNat n) rest
      (listHead ++ (sourceText columns table ++ (limitHead ++ (Text.ofNat n ++ rest)))) := by
  have hfront : Exposed ["ROWNUM"] (headWord ++ ' ' :: sourceText columns table) := by
    have hhead : Exposed ["ROWNUM"] listHead := exposed_of_neutral (by decide)
    exact hhead.append ((exposed_sourceText hcolumns htable).mono (by decide)) (.of_ends (by decide) _)
  have hlast := htable.isBlockEnd_last (headWord ++ ' ' :: (columns ++ tableHead))
  have hsplit : headWord ++ ' ' :: (columns ++ tableHead) ++ table = headWord ++ ' ' :: sourceText columns table := by
    rw [sourceText, List.append_assoc, List.cons_append, List.append_assoc]
  rw [hsplit] at hlast
  exact {
    live := by rw [hfront.after_eq]; rfl
    last := by
      rw [hfront.mask_eq]
      intro c hc
      rw [(hlast c hc).1]
      exact Bool.false_ne_true
    nested := by rw [hfront.mask_eq, hfront.nested]
    before := by rw [hfront.mask_eq]; exact hfront.spares
    digits := fun _ hc => Text.isDigit_of_mem_ofNat hc
    filled := .inl Nat.toDigits_ne_nil
    begins := hbegins
    behind := hrest
    split := rfl }

/-- The limit of a query becomes a `TOP`. -/
theorem gives_rownumLimit (hcolumns : Fragment columns) (htable : Fragment table) (hconditions : ∀ c ∈ conditions, Fragment c)
    (hn : n < Nat.pow 2 64) :
    Gives (rownumLimit (rownumQuery columns table n conditions)) (topQuery columns table n conditions) := by
  have hsource : Exposed sourceNames (' ' :: sourceText columns table) :=
    exposed_space _ (by decide) (exposed_sourceText hcolumns htable)
  have hspares := hsource.spares_top
  rw [← hsource.mask_eq] at hspares
  cases conditions with
  | none =>
    have hbounded := bounded_rownumQuery n hcolumns htable beginsInWord_nil (by rw [mask_nil]; decide)
    have hlimit := hbounded.rownumLimit_sole hn rfl (hspares.mono (by decide))
    rw [rownumQuery, topQuery]
    simp only [conditionsText, List.append_nil] at hlimit ⊢
    rw [hlimit]
    exact gives_pure _
  | some condition =>
    have hcondition : Exposed keywords (' ' :: condition) := exposed_space _ (by decide) (hconditions condition rfl).exposed
    have hjoined := hcondition.spares_top
    have hrest : mask (andTail ++ ' ' :: condition) = andTail ++ ' ' :: condition := by
      rw [mask_plain_append (by decide), hcondition.mask_eq]
    have hbegins : beginsInWord (andTail ++ ' ' :: condition) = false := rfl
    have hbounded := bounded_rownumQuery n hcolumns htable hbegins (by
      rw [hrest]
      exact spares_append (by decide) (hcondition.spares.mono (by decide)) (.of_begins rfl _))
    rw [← hcondition.mask_eq] at hjoined
    have hlimit := hbounded.rownumLimit_first hn rfl rfl (hspares.mono (by decide)) (hjoined.mono (by decide))
      (by rw [hcondition.mask_eq, hcondition.nested])
    rw [rownumQuery, topQuery]
    exact hlimit ▸ gives_pure _

/-! ## A `TOP` that becomes a `ROWNUM` -/

/-- The query with its limit has no `TOP`. -/
theorem topWords_rownumQuery (hcolumns : Fragment columns) (htable : Fragment table)
    (hconditions : ∀ c ∈ conditions, Fragment c) : topWords (rownumQuery columns table n conditions) = 0 := by
  have hneutral : ∀ t ∈ [listHead, limitHead, " AND ".toList], Neutral [] t := by decide
  have hliteral : ∀ t ∈ [listHead, limitHead, " AND ".toList], Exposed [] t := fun t ht => exposed_of_neutral (hneutral t ht)
  have hend : Exposed [] (Text.ofNat n ++ conditionsText " AND ".toList conditions) := by
    have hnumber : Exposed [] (Text.ofNat n) := exposed_ofNat (by simp) n
    cases conditions with
    | none => rwa [conditionsText, List.append_nil]
    | some condition =>
      refine hnumber.append ((hliteral _ (by simp)).append ((hconditions condition rfl).exposed.mono (by simp))
        (.of_ends (by decide) _)) (.of_begins ?_ _)
      rw [conditionsText, beginsInWord_append (by decide)]
      decide
  have hsource : Exposed [] (sourceText columns table) := (exposed_sourceText hcolumns htable).mono (by simp)
  refine ((hliteral _ (by simp)).append (hsource.append
    ((hliteral _ (by simp)).append hend (.of_ends (by decide) _)) (.of_begins ?_ _)) (.of_ends (by decide) _)).topWords_eq
  rw [beginsInWord_append (by decide)]
  decide

/-- The `TOP` of a query becomes its limit. -/
theorem gives_topToRownum_topQuery (hcolumns : Fragment columns) (htable : Fragment table)
    (hconditions : ∀ c ∈ conditions, Fragment c) :
    Gives (topToRownum (topQuery columns table n conditions)) (rownumQuery columns table n conditions) := by
  have hsource := exposed_sourceText hcolumns htable
  have hlast := htable.isBlockEnd_last (columns ++ tableHead)
  rw [List.append_assoc, ← sourceText] at hlast
  have hfirst : ∀ x, ∀ e ∈ (sourceText columns table ++ x).head?, Unicode.isBlank e = false := fun x => by
    rw [sourceText, List.append_assoc]
    exact hcolumns.isBlank_head _
  have hfree := topWords_rownumQuery (n := n) hcolumns htable hconditions
  rw [rownumQuery] at hfree ⊢
  rw [topQuery]
  cases conditions with
  | none =>
    have hline : '\n' ∉ sourceText columns table := by
      simp only [sourceText, List.mem_append, not_or]
      exact ⟨hcolumns.oneLine, by decide, htable.oneLine⟩
    have hunlimited : Unlimited (sourceText columns table) :=
      ⟨by rw [hsource.after_eq]; rfl, by rw [hsource.mask_eq, hsource.nested],
        by rw [hsource.mask_eq]; simpa using hfirst [], fun e he => (hlast e he).2, hline,
        by rw [hsource.mask_eq]; exact hsource.spares.mono (by decide)⟩
    simp only [conditionsText, List.append_nil] at hfree ⊢
    exact gives_topToRownum hunlimited.first (hunlimited.spares.mono (by decide)) (hunlimited.addRownumFilter?_eq _) hfree
  | some condition =>
    have hcondition := (hconditions condition rfl).exposed
    have hconditioned : Conditioned (sourceText columns table) condition :=
      ⟨by rw [hsource.after_eq]; rfl, by rw [hsource.mask_eq, hsource.nested],
        by rw [hsource.mask_eq]; exact hsource.spares.mono (by decide), by rw [hcondition.mask_eq, hcondition.nested],
        by rw [hcondition.mask_eq]; exact hcondition.spares.mono (by decide), (hconditions condition rfl).ne_nil,
        fun e he => ((hconditions condition rfl).isBlockEnd_last [] e he).2⟩
    simp only [conditionsText] at hfree ⊢
    have hwhole : mask (sourceText columns table ++ (whereHead ++ condition)) =
        sourceText columns table ++ (whereHead ++ condition) := by
      rw [mask_plain_between hconditioned.live (by decide) (by decide), hsource.mask_eq, hcondition.mask_eq]
    refine gives_topToRownum (by rw [hwhole]; exact hfirst _) ?_ (hconditioned.addRownumFilter?_eq _) hfree
    rw [hwhole]
    refine spares_append (hsource.spares.mono (by decide)) ?_ (.of_begins ?_ _)
    · exact spares_append (by decide) (hcondition.spares.mono (by decide)) (.of_ends (by decide) _)
    · rw [beginsInWord_append (by decide)]
      decide

/-! ## A `FETCH` clause and its `OFFSET` -/

theorem exposed_orderedQuery (hcolumns : Fragment columns) (htable : Fragment table) (hkeys : Fragment keys) :
    Exposed ["FETCH", "OFFSET"] (orderedQuery columns table keys) := by
  have hneutral : ∀ t ∈ [listHead, " ORDER BY ".toList, [' ']], Neutral ["FETCH", "OFFSET"] t := by decide
  have hliteral : ∀ t ∈ [listHead, " ORDER BY ".toList, [' ']], Exposed ["FETCH", "OFFSET"] t := fun t ht =>
    exposed_of_neutral (hneutral t ht)
  have hend : Exposed ["FETCH", "OFFSET"] (keys ++ [' ']) :=
    (hkeys.exposed.mono (by decide)).append (hliteral _ (by simp)) (.of_begins rfl _)
  refine (hliteral _ (by simp)).append (((exposed_sourceText hcolumns htable).mono (by decide)).append
    ((hliteral _ (by simp)).append hend (.of_ends (by decide) _)) (.of_begins ?_ _)) (.of_ends (by decide) _)
  rw [beginsInWord_append (by decide)]
  decide

/-- What ends in an `OFFSET` clause has the word. -/
theorem isOffsetClause_of_spares {ps : List Text} (h : ∀ p ∈ ps, ¬ Spelled "OFFSET".toList p) :
    isOffsetClause ps = false := by
  unfold isOffsetClause
  split
  · rename_i r n o rest
    rw [decide_eq_false (h o (by simp)), Bool.and_false]
  · rfl

/-- The clause gets an `OFFSET` that leaves no rows out, and loses it again. -/
theorem gives_fetchFirst_orderedQuery (hcolumns : Fragment columns) (htable : Fragment table) (hkeys : Fragment keys)
    (hn : n < Nat.pow 2 64) :
    Gives (fetchFirst (orderedQuery columns table keys ++ rowClause "FIRST".toList (Text.ofNat n)))
        (orderedQuery columns table keys ++ offsetText n) ∧
      Gives (offsetFetch (orderedQuery columns table keys ++ offsetText n))
        (orderedQuery columns table keys ++ rowClause "FIRST".toList (Text.ofNat n)) := by
  have hexposed := exposed_orderedQuery hcolumns htable hkeys
  have hleft : endsInWord (orderedQuery columns table keys) = false := by
    have hsplit : orderedQuery columns table keys =
        listHead ++ (sourceText columns table ++ (" ORDER BY ".toList ++ keys)) ++ [' '] := by
      simp only [orderedQuery, List.append_assoc]
    rw [hsplit]
    exact endsInWord_blanks (by simp) (by decide) _
  have hlive : (code.after (orderedQuery columns table keys)).live = true := by
    rw [hexposed.after_eq]
    rfl
  have hfront : FetchFront (orderedQuery columns table keys) := by
    refine ⟨hlive, hleft, limitless_of_not fun p hp => ?_⟩
    rw [hexposed.mask_eq] at hp
    exact decide_eq_false (hexposed.spares p (tokens_subset_pieces _ hp) "FETCH" (by simp))
  have hcount : isRowCount ["FIRST".toList, Text.ofNat n, "ROWS".toList] = true := by
    rw [isRowCount, isNumber_ofNat]
    decide
  have hopen : isOffsetClause (tokens (mask (orderedQuery columns table keys))).reverse = false := by
    rw [hexposed.mask_eq]
    exact isOffsetClause_of_spares fun p hp =>
      hexposed.spares p (tokens_subset_pieces _ (List.mem_reverse.1 hp)) "OFFSET" (by simp)
  have hdepth : depth (listHead ++ sourceText columns table) = 0 := by
    refine (wellNested_iff.2 ?_).2
    rw [nest_append, (by decide : nest 0 listHead = some 0), Option.bind_some, (exposed_sourceText hcolumns htable).nested]
  have horder : zeroMatches orderBy (mask (orderedQuery columns table keys)) ≠ [] := by
    rw [hexposed.mask_eq, orderedQuery, ← List.append_assoc]
    exact zeroMatches_orderBy_ne_nil hdepth _
  exact ⟨hfront.fetchFirst_moved hcount hopen (Text.readNat?_ofNat hn) (by rw [hexposed.mask_eq, hexposed.nested]) horder,
    gives_offsetFetch_offsetText hlive hexposed.mask_eq hleft (hexposed.spares.mono (by simp)) n⟩

/-! ## There and back -/

/-- A limit becomes a `TOP` and comes back, with other conditions or without, and the `FETCH` clause of an ordered query
gets an `OFFSET` and loses it again. -/
theorem rowLimits_roundTrip (hcolumns : Fragment columns) (htable : Fragment table) (hkeys : Fragment keys)
    (hconditions : ∀ c ∈ conditions, Fragment c) (hn : n < Nat.pow 2 64) :
    Gives (rownumLimit (rownumQuery columns table n conditions)) (topQuery columns table n conditions) ∧
      Gives (topToRownum (topQuery columns table n conditions)) (rownumQuery columns table n conditions) ∧
      Gives (fetchFirst (orderedQuery columns table keys ++ rowClause "FIRST".toList (Text.ofNat n)))
        (orderedQuery columns table keys ++ offsetText n) ∧
      Gives (offsetFetch (orderedQuery columns table keys ++ offsetText n))
        (orderedQuery columns table keys ++ rowClause "FIRST".toList (Text.ofNat n)) :=
  ⟨gives_rownumLimit hcolumns htable hconditions hn, gives_topToRownum_topQuery hcolumns htable hconditions,
    gives_fetchFirst_orderedQuery hcolumns htable hkeys hn⟩

/-- Calls among the columns and in the condition, and a word that only ends like one of the keywords. -/
theorem rowLimits_roundTrip_calls :
    Fragment "a.id, NVL(b, 0)" ∧ Fragment "s.reorder" ∧ Fragment "COUNT(*)" ∧ Fragment "f(a, (b)) = 1" ∧ 10 < Nat.pow 2 64 ∧
      Gives (rownumLimit (rownumQuery "a.id, NVL(b, 0)" "s.reorder" 10 (some "f(a, (b)) = 1")))
        (topQuery "a.id, NVL(b, 0)" "s.reorder" 10 (some "f(a, (b)) = 1")) ∧
      Gives (topToRownum (topQuery "a.id, NVL(b, 0)" "s.reorder" 10 (some "f(a, (b)) = 1")))
        (rownumQuery "a.id, NVL(b, 0)" "s.reorder" 10 (some "f(a, (b)) = 1")) ∧
      Gives (fetchFirst (orderedQuery "a.id, NVL(b, 0)" "s.reorder" "COUNT(*)" ++ rowClause "FIRST" (Text.ofNat 10)))
        (orderedQuery "a.id, NVL(b, 0)" "s.reorder" "COUNT(*)" ++ offsetText 10) ∧
      Gives (offsetFetch (orderedQuery "a.id, NVL(b, 0)" "s.reorder" "COUNT(*)" ++ offsetText 10))
        (orderedQuery "a.id, NVL(b, 0)" "s.reorder" "COUNT(*)" ++ rowClause "FIRST" (Text.ofNat 10)) := by
  have hcolumns : Fragment "a.id, NVL(b, 0)" := by decide +kernel
  have htable : Fragment "s.reorder" := by decide +kernel
  have hkeys : Fragment "COUNT(*)" := by decide +kernel
  have hcondition : Fragment "f(a, (b)) = 1" := by decide +kernel
  have hn : 10 < Nat.pow 2 64 := by decide
  exact ⟨hcolumns, htable, hkeys, hcondition, hn,
    rowLimits_roundTrip hcolumns htable hkeys (fun _ hc => Option.some.inj hc ▸ hcondition) hn⟩

end

end DialectBridge
