import DialectBridge.Proofs.LimitCount
/-!
# Row limits put into a query

What the four ways to add `ROWNUM <= n` to a block do to the tokens of the query: in front of its
conditions (`limitAdded_and`), in front of conditions that go into parentheses (`enclose_of_live`,
`enclose_of_not_live`), before a clause (`limitAdded_before`) and at its end (`limitAdded_atEnd`,
`countLimits_atEnd_of_not_live`).
-/
namespace DialectBridge.ToOracle
open Pattern LexState

/-- One more limit is asked for, and the parentheses are as they were. -/
structure LimitAdded (n : Text) (ts ts' : List Text) : Prop where
  count : countLimits n (surface 0 ts') = countLimits n (surface 0 ts) + 1
  nest : ∀ d, nest d ts'.flatten = nest d ts.flatten

theorem IsLimit.limitAdded {n : Text} {l x r : List Text} (hx : IsLimit n x)
    (hl : walk 0 l = some 0)
    (hlr : EndsNoLimit (surface 0 l) ∨ ContinuesNoLimit n (surface 0 r)) :
    LimitAdded n (l ++ r) (l ++ (x ++ r)) := by
  refine ⟨countLimits_insert hx hl hlr, fun d => ?_⟩
  simp only [List.flatten_append, nest_append d l.flatten, nest_append_of_neutral hx.nest]

/-! ## The texts -/

def limitText (n : Text) : Text := "ROWNUM <= ".toList ++ n

/-- What goes in front of conditions. -/
def andText (n : Text) : Text := ' ' :: (limitText n ++ " AND".toList)

/-- What goes in front of conditions in parentheses. -/
def openText (n : Text) : Text := andText n ++ " (".toList

/-- What goes where there are no conditions. -/
def whereText (n : Text) : Text := "WHERE ".toList ++ limitText n

theorem andText_eq (n : Text) : " ROWNUM <= ".toList ++ n ++ " AND".toList = andText n := by
  have hblank : " ROWNUM <= ".toList = ' ' :: "ROWNUM <= ".toList := by decide
  unfold andText limitText
  rw [hblank, List.cons_append, List.cons_append]

theorem openText_eq (n : Text) : " ROWNUM <= ".toList ++ n ++ " AND (".toList = openText n := by
  have hopen : " AND (".toList = " AND".toList ++ " (".toList := by decide
  unfold openText
  rw [hopen, ← List.append_assoc, andText_eq]

theorem whereText_eq (n : Text) : "WHERE ROWNUM <= ".toList ++ n = whereText n := by
  have hwhere : "WHERE ROWNUM <= ".toList = "WHERE ".toList ++ "ROWNUM <= ".toList := by decide
  unfold whereText limitText
  rw [hwhere, List.append_assoc]

section
variable {n : Text} (hn : IsNumeral n)
include hn

theorem tokens_limitText_append {t : Text} (ht : beginsInWord t = false) :
    tokens (limitText n ++ t) = limitTokens n ++ tokens t := by
  have hrownum : tokens "ROWNUM <= ".toList = ["ROWNUM".toList, ['<'], ['=']] := by decide
  have hend : endsInWord "ROWNUM <= ".toList = false := by decide
  have hnumber : tokens (n ++ t) = n :: tokens t := by
    rw [tokens_append (.of_begins ht n), tokens_word hn.1 hn.isWordChar, List.singleton_append]
  unfold limitText
  rw [List.append_assoc, tokens_append (.of_ends hend _), hrownum, hnumber]
  simp only [limitTokens, List.cons_append, List.nil_append]

theorem tokens_andText : tokens (andText n) = limitTokens n ++ ["AND".toList] := by
  have hspace : tokens [' '] = [] := by decide
  have hand : tokens " AND".toList = ["AND".toList] := by decide
  unfold andText
  rw [← List.singleton_append, tokens_append (.of_ends rfl _), hspace, List.nil_append,
    tokens_limitText_append hn (by decide), hand]

theorem tokens_openText : tokens (openText n) = limitTokens n ++ ["AND".toList] ++ [['(']] := by
  have hopen : tokens " (".toList = [['(']] := by decide
  unfold openText
  rw [tokens_append (.of_begins (by decide) _), tokens_andText hn, hopen]

theorem tokens_whereText : tokens (whereText n) = "WHERE".toList :: limitTokens n := by
  have hwhere : tokens "WHERE ".toList = ["WHERE".toList] := by decide
  have hend : endsInWord "WHERE ".toList = false := by decide
  have hlimit := tokens_limitText_append hn (t := []) rfl
  rw [List.append_nil, tokens_nil, List.append_nil] at hlimit
  unfold whereText
  rw [tokens_append (.of_ends hend _), hwhere, hlimit, List.singleton_append]

theorem isPlain_of_mem_limitText : ∀ c ∈ limitText n, isPlain c = true := by
  intro c hc
  rcases List.mem_append.1 hc with hc | hc
  · exact List.all_eq_true.1 (by decide : "ROWNUM <= ".toList.all isPlain = true) c hc
  · exact isPlain_of_isWordChar (hn.isWordChar c hc)

theorem isPlain_of_mem_andText : ∀ c ∈ andText n, isPlain c = true := by
  intro c hc
  rcases List.mem_cons.1 hc with rfl | hc
  · decide
  rcases List.mem_append.1 hc with hc | hc
  · exact isPlain_of_mem_limitText hn c hc
  · exact List.all_eq_true.1 (by decide : " AND".toList.all isPlain = true) c hc

theorem isPlain_of_mem_openText : ∀ c ∈ openText n, isPlain c = true := by
  intro c hc
  rcases List.mem_append.1 hc with hc | hc
  · exact isPlain_of_mem_andText hn c hc
  · exact List.all_eq_true.1 (by decide : " (".toList.all isPlain = true) c hc

theorem isPlain_of_mem_whereText : ∀ c ∈ whereText n, isPlain c = true := by
  intro c hc
  rcases List.mem_append.1 hc with hc | hc
  · exact List.all_eq_true.1 (by decide : "WHERE ".toList.all isPlain = true) c hc
  · exact isPlain_of_mem_limitText hn c hc

end

/-- No line feed is put in with the condition. -/
theorem not_mem_whereText {n : Text} (hn : IsNumeral n) : '\n' ∉ whereText n := by
  intro h
  rcases List.mem_append.1 h with h | h
  · exact absurd h (by decide)
  rcases List.mem_append.1 h with h | h
  · exact absurd h (by decide)
  · exact absurd (hn.isWordChar _ h) (by decide)

theorem openText_ne_nil (n : Text) : openText n ≠ [] := List.cons_ne_nil _ _

theorem whereText_ne_nil (n : Text) : whereText n ≠ [] :=
  List.append_ne_nil_of_left_ne_nil (by decide) _

/-- The tokens of plain text between two others. -/
theorem tokens_mask_between {a x b : Text} (ha : (code.after a).live = true)
    (hx : ∀ c ∈ x, isPlain c = true) (hne : x ≠ []) (h1 : Apart (mask a) x)
    (h2 : Apart x (mask b)) :
    tokens (mask (a ++ (x ++ b))) = tokens (mask a) ++ (tokens x ++ tokens (mask b)) := by
  have h1' : Apart (mask a) (x ++ mask b) := by
    intro hend
    rw [beginsInWord_append hne]
    exact h1 hend
  rw [mask_plain_between ha hx hne, tokens_append h1', tokens_append h2]

/-- White space in front of a text does not matter. -/
theorem tokens_mask_blanks_append {b : Text} (hb : ∀ c ∈ b, Unicode.isBlank c = true) (t : Text) :
    tokens (mask (b ++ t)) = tokens (mask t) := by
  rw [mask_plain_append fun c hc => isPlain_of_isBlank (hb c hc), tokens_blanks_append hb]

theorem tokens_cons_close (t : Text) : tokens (mask (')' :: t)) = [')'] :: tokens (mask t) := by
  have hclose : tokens [')'] = [[')']] := by decide
  rw [mask_cons_of_isPlain (by decide), ← List.singleton_append, tokens_append (.of_ends rfl _),
    hclose, List.singleton_append]

/-- What ends a block is shown as white space and semicolons. -/
theorem isBlockEnd_of_mem_maskFrom {s : LexState} {t : Text} (h : ∀ e ∈ t, isBlockEnd e = true) :
    ∀ e ∈ maskFrom s t, isBlockEnd e = true := by
  induction t generalizing s with
  | nil => simp
  | cons c t ih =>
    intro e he
    rw [maskFrom_cons] at he
    rcases List.mem_append.1 he with he | he
    · rw [glance] at he
      split_ifs at he
      · have := isBlank_of_mem_spaces e he
        simp [isBlockEnd, this]
      · obtain rfl := List.mem_singleton.1 he
        exact h e (by simp)
    · exact ih (fun d hd => h d (by simp [hd])) e he

theorem beginsInWord_append_blockEnds {t u : Text} (ht : ∀ e ∈ t, isBlockEnd e = true)
    (hu : beginsInWord u = false) : beginsInWord (t ++ u) = false := by
  cases t with
  | nil => exact hu
  | cons e t => exact isWordChar_of_isBlockEnd (ht e (by simp))

/-! ## In front of conditions -/

section
variable {n : Text} (hn : IsNumeral n)
include hn

theorem tokens_mask_and {p r : Text} (hp : code.after p = code) (hr : beginsInWord r = false) :
    tokens (mask (p ++ r)) = tokens (mask p) ++ tokens (mask r) ∧
      tokens (mask (p ++ (andText n ++ r))) =
        tokens (mask p) ++ ((limitTokens n ++ ["AND".toList]) ++ tokens (mask r)) := by
  have hbegin : beginsInWord (mask r) = false := by rw [beginsInWord_mask, hr]
  refine ⟨tokens_mask_append (by rw [hp]; exact joins_code r) (.of_begins hbegin _), ?_⟩
  rw [tokens_mask_between (by rw [hp]; rfl) (isPlain_of_mem_andText hn) (List.cons_ne_nil _ _)
    (.of_begins rfl _) (.of_begins hbegin _), tokens_andText hn]

theorem limitAdded_and {p r : Text} (hp : code.after p = code)
    (hwalk : walk 0 (tokens (mask p)) = some 0) (hend : EndsNoLimit (surface 0 (tokens (mask p))))
    (hr : beginsInWord r = false) :
    LimitAdded n (tokens (mask (p ++ r))) (tokens (mask (p ++ (andText n ++ r)))) := by
  obtain ⟨hold, hnew⟩ := tokens_mask_and hn hp hr
  rw [hold, hnew]
  exact (isLimit_and hn).limitAdded hwalk (.inl hend)

/-- The tokens of conditions in parentheses. -/
theorem tokens_mask_open {p t : Text} (hp : code.after p = code) :
    tokens (mask (p ++ (openText n ++ t))) =
      tokens (mask p) ++ ((limitTokens n ++ ["AND".toList]) ++ (['('] :: tokens (mask t))) := by
  have hend : endsInWord (openText n) = false := by
    unfold openText
    rw [endsInWord_append (by simp)]
    decide
  rw [tokens_mask_between (by rw [hp]; rfl) (isPlain_of_mem_openText hn) (openText_ne_nil n)
    (.of_begins rfl _) (.of_ends hend _), tokens_openText hn, List.append_assoc _ [['(']],
    List.singleton_append]

variable {p kept rest : Text}

/-- The tokens of conditions in code that go into parentheses. -/
theorem tokens_mask_enclosed (hp : code.after p = code) (hlive : (code.after kept).live = true)
    (hbegin : beginsInWord (kept ++ rest) = false)
    (hplain : ∀ e ∈ rest.head?, isPlain e = true) (hapart : Apart (mask kept) (mask rest)) :
    tokens (mask (p ++ (kept ++ rest))) =
        tokens (mask p) ++ (tokens (mask kept) ++ tokens (mask rest)) ∧
      tokens (mask (p ++ (openText n ++ (Text.trimStart kept ++ ')' :: rest)))) =
        tokens (mask p) ++ ((limitTokens n ++ ["AND".toList]) ++
          (['('] :: (tokens (mask kept) ++ [')'] :: tokens (mask rest)))) := by
  obtain ⟨b, hb, hblank, hcode⟩ := exists_trimStart kept
  have htrim : tokens (mask (Text.trimStart kept)) = tokens (mask kept) := by
    conv_rhs => rw [hb]
    rw [tokens_mask_blanks_append hblank]
  have hlive' : (code.after (Text.trimStart kept)).live = true := by
    rw [hb, after_append, hcode] at hlive
    exact hlive
  constructor
  · rw [tokens_mask_append (by rw [hp]; exact joins_code _)
      (.of_begins (by rw [beginsInWord_mask, hbegin]) _),
      tokens_mask_append (joins_of_head?_isPlain hlive hplain) hapart]
  · rw [tokens_mask_open hn hp, tokens_mask_append (joins_of_live hlive' (by decide))
      (.of_begins (by rw [beginsInWord_mask]; rfl) _), htrim, tokens_cons_close]

/-- Conditions in code go into parentheses. -/
theorem enclose_of_live (hp : code.after p = code) (hlive : (code.after kept).live = true)
    (hwalk : walk 0 (tokens (mask p)) = some 0) (hend : EndsNoLimit (surface 0 (tokens (mask p))))
    (hkept : walk 0 (tokens (mask kept)) = some 0) (hbegin : beginsInWord (kept ++ rest) = false)
    (hplain : ∀ e ∈ rest.head?, isPlain e = true) (hapart : Apart (mask kept) (mask rest))
    (hrest : ContinuesNoLimit n (surface 0 (tokens (mask rest)))) :
    countLimits n (surface 0 (tokens (mask (p ++ (openText n ++
        (Text.trimStart kept ++ ')' :: rest)))))) + countLimits n (surface 0 (tokens (mask kept))) =
      countLimits n (surface 0 (tokens (mask (p ++ (kept ++ rest))))) + 1 ∧
    ∀ d, nest d (tokens (mask (p ++ (openText n ++
        (Text.trimStart kept ++ ')' :: rest))))).flatten =
      nest d (tokens (mask (p ++ (kept ++ rest)))).flatten := by
  obtain ⟨hold, hnew⟩ := tokens_mask_enclosed hn hp hlive hbegin hplain hapart
  rw [hold, hnew]
  refine ⟨countLimits_enclose (isLimit_and hn) hwalk hkept hend hrest, fun d => ?_⟩
  have hneutral : ∀ i, nest i (tokens (mask kept)).flatten = some i := by
    intro i
    have hsub : tokens (mask kept) ⊆ pieces (mask kept) := tokens_subset_pieces _
    simpa using nest_add (nest_of_walk hsub hkept) i
  exact nest_enclose (isLimit_and hn) hneutral d

/-- The tokens of conditions that go into parentheses behind a comment or an open quote: the
closing one is not shown. -/
theorem tokens_mask_unclosed (hp : code.after p = code) (hlive : (code.after kept).live = false)
    (hbegin : beginsInWord (kept ++ rest) = false) (hplain : ∀ e ∈ rest.head?, isPlain e = true)
    (hword : beginsInWord rest = false) :
    ∃ ts e, (e = [] ∨ ∃ q : Quote, e = [[q.char]]) ∧
      tokens (mask (p ++ (kept ++ rest))) = tokens (mask p) ++ (ts ++ e) ∧
      tokens (mask (p ++ (openText n ++ (Text.trimStart kept ++ ')' :: rest)))) =
        tokens (mask p) ++ ((limitTokens n ++ ["AND".toList]) ++ (['('] :: ts)) := by
  obtain ⟨b, hb, hblank, hcode⟩ := exists_trimStart kept
  have hdead : (code.after (Text.trimStart kept)).live = false := by
    rw [hb, after_append, hcode] at hlive
    exact hlive
  obtain ⟨e, he, hquote⟩ := tokens_mask_dull (x := [')']) (b := rest) hdead
    (fun c hc => by
      obtain rfl := List.mem_singleton.1 hc
      exact isDull_of_ne (by decide) (by decide) _)
    (by simp) hplain hword
  refine ⟨_, e, hquote, ?_, tokens_mask_open hn hp⟩
  rw [tokens_mask_append (by rw [hp]; exact joins_code _)
    (.of_begins (by rw [beginsInWord_mask, hbegin]) _)]
  have htrim : tokens (mask (Text.trimStart kept ++ rest)) = tokens (mask (kept ++ rest)) := by
    conv_rhs => rw [hb]
    rw [List.append_assoc, tokens_mask_blanks_append hblank]
  rw [← htrim, he]
  rfl

/-- Behind a comment or an open quote the parenthesis is not closed. -/
theorem enclose_of_not_live (hp : code.after p = code) (hlive : (code.after kept).live = false)
    (hbegin : beginsInWord (kept ++ rest) = false) (hplain : ∀ e ∈ rest.head?, isPlain e = true)
    (hword : beginsInWord rest = false) {d k : Nat}
    (hnest : nest d (tokens (mask (p ++ (kept ++ rest)))).flatten = some k) :
    nest d (tokens (mask (p ++ (openText n ++
      (Text.trimStart kept ++ ')' :: rest))))).flatten = some (k + 1) := by
  obtain ⟨ts, e, hquote, hold, hnew⟩ := tokens_mask_unclosed hn hp hlive hbegin hplain hword
  have hunclosed := nest_unclosed (isLimit_and hn) (hold ▸ hnest)
  rw [hnew]
  rw [← List.cons_append, ← List.append_assoc, ← List.append_assoc, nest_hidden hquote,
    List.append_assoc] at hunclosed
  exact hunclosed

/-! ## Where there are no conditions -/

/-- The tokens of a new condition in front of a clause, with the white space and the comments
before it. -/
theorem tokens_mask_before {p s s' r : Text} (hp : (code.after p).live = true)
    (hword : endsInWord (mask p) = false) (hs : ∀ c ∈ s, Unicode.isBlank c = true)
    (hs' : ∀ c ∈ mask s', Unicode.isBlank c = true) (hne : s' ≠ [])
    (hjoins : (code.after s').joins r = true) (hplain : ∀ e ∈ r.head?, isPlain e = true) :
    tokens (mask (p ++ r)) = tokens (mask p) ++ tokens (mask r) ∧
      tokens (mask (p ++ (s ++ (whereText n ++ (s' ++ r))))) =
        tokens (mask p) ++ (("WHERE".toList :: limitTokens n) ++ tokens (mask r)) := by
  have hmask : mask s' ≠ [] := mask_ne_nil hne
  have hbegin : beginsInWord (mask (s' ++ r)) = false := by
    rw [mask_append hjoins, beginsInWord_blanks_append ⟨hmask, hs'⟩]
  have hspace : tokens (mask (s' ++ r)) = tokens (mask r) := by
    rw [tokens_mask_append hjoins (.of_ends (endsInWord_blanks hmask hs' []) _), tokens_blanks hs',
      List.nil_append]
  have hx : ∀ c ∈ s ++ whereText n, isPlain c = true := by
    intro c hc
    rcases List.mem_append.1 hc with hc | hc
    · exact isPlain_of_isBlank (hs c hc)
    · exact isPlain_of_mem_whereText hn c hc
  have htokens : tokens (s ++ whereText n) = "WHERE".toList :: limitTokens n := by
    have := tokens_mask_blanks_append hs (whereText n)
    rwa [mask_of_all_isPlain hx, mask_of_all_isPlain (isPlain_of_mem_whereText hn),
      tokens_whereText hn] at this
  refine ⟨tokens_mask_append (joins_of_head?_isPlain hp hplain) (.of_ends hword _), ?_⟩
  rw [← List.append_assoc s, tokens_mask_between hp hx
    (List.append_ne_nil_of_right_ne_nil s (whereText_ne_nil n)) (.of_ends hword _)
    (.of_begins hbegin _), htokens, hspace]

/-- The new condition in front of a clause. -/
theorem limitAdded_before {p s s' r : Text} (hp : (code.after p).live = true)
    (hwalk : walk 0 (tokens (mask p)) = some 0) (hword : endsInWord (mask p) = false)
    (hs : ∀ c ∈ s, Unicode.isBlank c = true) (hs' : ∀ c ∈ mask s', Unicode.isBlank c = true)
    (hne : s' ≠ []) (hjoins : (code.after s').joins r = true)
    (hplain : ∀ e ∈ r.head?, isPlain e = true)
    (hr : ContinuesNoLimit n (surface 0 (tokens (mask r)))) :
    LimitAdded n (tokens (mask (p ++ r))) (tokens (mask (p ++ (s ++ (whereText n ++ (s' ++ r)))))) := by
  obtain ⟨hold, hnew⟩ := tokens_mask_before hn hp hword hs hs' hne hjoins hplain
  rw [hold, hnew]
  exact (isLimit_where hn).limitAdded hwalk (.inr hr)

variable {content tail d sep : Text}

omit hn in
/-- What ends a block is followed by nothing, or by the parenthesis that closes a block around
it. -/
theorem isPlain_of_head?_blockEnds (htail : ∀ e ∈ tail, isBlockEnd e = true)
    (hd : ∀ e ∈ d.head?, e = ')') : ∀ e ∈ (tail ++ d).head?, isPlain e = true := by
  intro e he
  cases tail with
  | nil =>
    rw [hd e he]
    decide
  | cons c tail =>
    obtain rfl : c = e := Option.some.inj he
    exact isPlain_of_isBlockEnd (htail c (by simp))

omit hn in
theorem beginsInWord_closed (hd : ∀ e ∈ d.head?, e = ')') : beginsInWord d = false := by
  cases d with
  | nil => rfl
  | cons e d =>
    rw [hd e rfl]
    rfl

omit hn in
theorem surface_closed (hd : ∀ e ∈ d.head?, e = ')') : surface 0 (tokens (mask d)) = [] := by
  cases d with
  | nil => rw [mask_nil]; rfl
  | cons e d =>
    rw [hd e rfl, tokens_cons_close]
    rfl

/-- The tokens of a new condition at the end of a block. -/
theorem tokens_mask_atEnd (hpass : (code.after content).live = true ∨ code.after content = line)
    (hsep : (code.after content).joins sep = true) (hblank : ∀ c ∈ sep, Unicode.isBlank c = true)
    (hne : sep ≠ []) (htail : ∀ e ∈ tail, isBlockEnd e = true) (hd : ∀ e ∈ d.head?, e = ')')
    (hclose : d ≠ [] → (code.after (content ++ tail)).live = true) :
    (∃ e, (∀ p ∈ e, p = [';']) ∧
      tokens (mask (content ++ (tail ++ d))) = tokens (mask content) ++ (e ++ tokens (mask d))) ∧
    tokens (mask (content ++ (sep ++ (whereText n ++ (tail ++ d))))) =
      tokens (mask content) ++
        (("WHERE".toList :: limitTokens n) ++ (tokens tail ++ tokens (mask d))) := by
  have hplain : ∀ e ∈ tail, isPlain e = true := fun e he => isPlain_of_isBlockEnd (htail e he)
  have hdplain : ∀ e ∈ d.head?, isPlain e = true := fun e he => hd e he ▸ by decide
  have hdword : beginsInWord (mask d) = false := by
    rw [beginsInWord_mask, beginsInWord_closed hd]
  constructor
  · have hpass' : (code.after content).joins (tail ++ d) = true ∨ code.after content = line :=
      hpass.imp (fun h => joins_of_head?_isPlain h (isPlain_of_head?_blockEnds htail hd)) id
    have hjoins : ((code.after content).after tail).joins d = true := by
      by_cases hnil : d = []
      · rw [hnil]
        exact joins_nil _
      · rw [← after_append]
        exact joins_of_head?_isPlain (hclose hnil) hdplain
    have hends := isBlockEnd_of_mem_maskFrom (s := code.after content) htail
    refine ⟨tokens (maskFrom (code.after content) tail),
      fun p hp => eq_semicolon_of_mem_tokens hends hp, ?_⟩
    rw [mask_append_maskFrom hpass', maskFrom_append hjoins, maskFrom_code,
      tokens_append (.of_begins (beginsInWord_append_blockEnds hends hdword) _),
      tokens_append (.of_begins hdword _)]
  · have hsep' : ∀ c ∈ sep, isPlain c = true := fun c hc => isPlain_of_isBlank (hblank c hc)
    have hcode : code.after (content ++ sep) = code := by
      rw [after_append, after_of_joins hsep hne]
      exact after_of_all_isPlain rfl hsep' hne
    have hblankBegin : beginsInWord sep = false := beginsInWord_of_blanks hblank
    have hmask : mask (content ++ sep) = mask content ++ sep := by
      rw [mask_append hsep, mask_of_all_isPlain hsep']
    have htail' : mask (tail ++ d) = tail ++ mask d := mask_plain_append hplain d
    have hbegin : beginsInWord (mask (tail ++ d)) = false := by
      rw [htail']
      exact beginsInWord_append_blockEnds htail hdword
    rw [← List.append_assoc, tokens_mask_between (by rw [hcode]; rfl) (isPlain_of_mem_whereText hn)
      (whereText_ne_nil n)
      (.of_ends (by rw [hmask, endsInWord_blanks hne hblank]) _)
      (.of_begins hbegin _), hmask, tokens_append (.of_begins hblankBegin _),
      tokens_blanks hblank, List.append_nil, tokens_whereText hn, htail',
      tokens_append (.of_begins hdword _)]

/-- The new condition at the end of a block. -/
theorem limitAdded_atEnd (hpass : (code.after content).live = true ∨ code.after content = line)
    (hsep : (code.after content).joins sep = true) (hblank : ∀ c ∈ sep, Unicode.isBlank c = true)
    (hne : sep ≠ []) (hwalk : walk 0 (tokens (mask content)) = some 0)
    (htail : ∀ e ∈ tail, isBlockEnd e = true) (hd : ∀ e ∈ d.head?, e = ')')
    (hclose : d ≠ [] → (code.after (content ++ tail)).live = true) :
    LimitAdded n (tokens (mask (content ++ (tail ++ d))))
      (tokens (mask (content ++ (sep ++ (whereText n ++ (tail ++ d)))))) := by
  obtain ⟨⟨e, he, hold⟩, hnew⟩ := tokens_mask_atEnd hn hpass hsep hblank hne htail hd hclose
  have hrest : surface 0 (tokens (mask d)) = [] := surface_closed hd
  have he' : ∀ p ∈ tokens tail, p = [';'] := fun p hp => eq_semicolon_of_mem_tokens htail hp
  have hcontinues : ContinuesNoLimit n (surface 0 (tokens tail ++ tokens (mask d))) := by
    have := surface_semicolons (l := []) he' rfl hrest
    rw [List.nil_append] at this
    rw [this]
    exact continuesNoLimit_semicolons hn he'
  rw [hold, hnew]
  refine ⟨?_, fun i => ?_⟩
  · rw [countLimits_insert (isLimit_where hn) hwalk (.inr hcontinues),
      countLimits_semicolons hn he' hwalk hrest, countLimits_semicolons hn he hwalk hrest]
  · simp only [nest_flatten_append i]
    congr 1
    funext j
    have hwhere := (isLimit_where hn).nest j
    rw [nest_flatten_append, nest_flatten_append, hwhere, nest_semicolons he, Option.bind_some,
      Option.bind_some, nest_flatten_append, nest_semicolons he', Option.bind_some]

/-- The tokens of a new condition behind a comment or an open quote: it is not shown. -/
theorem tokens_mask_atEnd_of_not_live (h : (code.after content).live = false)
    (hsep : ∀ c ∈ sep, isDull (code.after content) c = true)
    (htail : ∀ e ∈ tail, isBlockEnd e = true) (hd : ∀ e ∈ d.head?, e = ')') :
    ∃ e, (e = [] ∨ ∃ q : Quote, e = [[q.char]]) ∧
      tokens (mask (content ++ (tail ++ d))) =
        tokens (mask (content ++ (sep ++ (whereText n ++ (tail ++ d))))) ++ e := by
  have hdull : ∀ c ∈ sep ++ whereText n, isDull (code.after content) c = true := by
    intro c hc
    rcases List.mem_append.1 hc with hc | hc
    · exact hsep c hc
    · refine isDull_of_ne (isPlain_of_mem_whereText hn c hc) ?_ _
      rintro rfl
      exact absurd hc (not_mem_whereText hn)
  have hword : beginsInWord (tail ++ d) = false :=
    beginsInWord_append_blockEnds htail (beginsInWord_closed hd)
  obtain ⟨e, he, hquote⟩ := tokens_mask_dull h hdull
    (List.append_ne_nil_of_right_ne_nil sep (whereText_ne_nil n))
    (isPlain_of_head?_blockEnds htail hd) hword
  exact ⟨e, hquote, by rw [he, List.append_assoc]⟩

/-- Behind a comment or an open quote the new condition is not seen. -/
theorem countLimits_atEnd_of_not_live (h : (code.after content).live = false)
    (hsep : ∀ c ∈ sep, isDull (code.after content) c = true)
    (htail : ∀ e ∈ tail, isBlockEnd e = true) (hd : ∀ e ∈ d.head?, e = ')') :
    countLimits n (surface 0 (tokens (mask (content ++ (sep ++ (whereText n ++ (tail ++ d))))))) =
      countLimits n (surface 0 (tokens (mask (content ++ (tail ++ d))))) := by
  obtain ⟨e, hquote, he⟩ := tokens_mask_atEnd_of_not_live hn h hsep htail hd
  rw [he, countLimits_hidden hn hquote]

end

end DialectBridge.ToOracle
