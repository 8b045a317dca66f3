import DialectBridge.Proofs.Captures
import DialectBridge.Proofs.MaskedTokens
import DialectBridge.Proofs.Nesting
import DialectBridge.Proofs.Phrases
/-!
# Queries without their `TOP`

`dropTop?` takes the `TOP` clause out of a heading. What stands behind it is lexed in the new query
as it was in the old one, and the parentheses are as well-nested as before
(`exists_of_dropTop?`).
-/
namespace DialectBridge.ToOracle
open Pattern LexState Cursor

def topNumber : Pattern :=
  edge ++ "SELECT" ++ opt (.group 1 (blanks1 ++ oneOf ["DISTINCT", "ALL"])) ++ blanks1 ++ "TOP" ++
    blanks ++
    oneOf [sym '(' ++ blanks ++ .group 2 digits1 ++ blanks ++ sym ')', .group 3 digits1]

def IsNumeral (n : Text) : Prop := n ≠ [] ∧ ∀ c ∈ n, CharSet.digit.contains c = true

/-- The word between `SELECT` and `TOP`, with the blanks before it. -/
def IsQuantifier (o : Text) : Prop :=
  ∃ b k, o = b ++ k ∧ (b ≠ [] ∧ ∀ c ∈ b, Unicode.isBlank c = true) ∧
    (Spelled "DISTINCT".toList k ∨ Spelled "ALL".toList k)

theorem takes_quantifier {u w v : Text} {g : Groups}
    (h : Takes (opt (.group 1 (blanks1 ++ oneOf ["DISTINCT", "ALL"]))) u w v [] g) :
    (w = [] ∧ g = []) ∨
      (IsQuantifier w ∧ g = [(1, between u (w ++ v), between (u ++ w) v)]) := by
  rcases h with ⟨m, h, rfl⟩ | ⟨rfl, rfl⟩
  · obtain ⟨b, k, m', rfl, hb, hk⟩ := h
    obtain ⟨hblank, rfl⟩ := takes_blanks1 hb
    have hg : m = [] := hk.groups_eq (by decide)
    have hword : Spelled "DISTINCT".toList k ∨ Spelled "ALL".toList k := by
      rcases hk with hk | hk
      · exact .inl (takes_word hk).1
      · exact .inr (takes_word hk).1
    exact .inr ⟨⟨b, k, rfl, hblank, hword⟩, by rw [hg]⟩
  · exact .inl ⟨rfl, rfl⟩

def IsCount (k n : Text) : Prop :=
  IsNumeral n ∧ (k = n ∨ ∃ b b', k = '(' :: (b ++ (n ++ (b' ++ [')']))) ∧
    (∀ c ∈ b, Unicode.isBlank c = true) ∧ ∀ c ∈ b', Unicode.isBlank c = true)

theorem takes_count {u w v : Text} {g g' : Groups}
    (h : Takes (oneOf [sym '(' ++ blanks ++ .group 2 digits1 ++ blanks ++ sym ')',
      .group 3 digits1]) u w v g g') :
    ∃ n i c d, IsCount w n ∧ g' = (i, c, d) :: g ∧ (i = 2 ∨ i = 3) ∧ c.upTo d = n := by
  rcases h with h | ⟨m, h, rfl⟩
  · obtain ⟨x, z, g₁, rfl, h, hz⟩ := h
    obtain ⟨x, b', g₂, rfl, h, hb'⟩ := h
    obtain ⟨x, n, g₃, rfl, h, m, hn, rfl⟩ := h
    obtain ⟨y, b, g₄, rfl, hy, hb⟩ := h
    obtain ⟨rfl, rfl⟩ := takes_sym hy
    obtain ⟨rfl, rfl⟩ := takes_sym hz
    obtain ⟨hblank, rfl⟩ := takes_blanks hb
    obtain ⟨hblank', rfl⟩ := takes_blanks hb'
    obtain ⟨hnumeral, rfl⟩ := takes_digits1 hn
    refine ⟨n, 2, _, _, ⟨hnumeral, .inr ⟨b, b', by simp, hblank, hblank'⟩⟩, rfl, .inl rfl, ?_⟩
    exact upTo_between _ _ _
  · obtain ⟨hnumeral, rfl⟩ := takes_digits1 h
    exact ⟨w, 3, _, _, ⟨hnumeral, .inl rfl⟩, rfl, .inr rfl, upTo_between _ _ _⟩

theorem IsNumeral.isWordChar {n : Text} (h : IsNumeral n) :
    ∀ c ∈ n, Unicode.isWordChar c = true := fun c hc => isWordChar_of_isDigit (h.2 c hc)

/-- Whether a word is `TOP` alone or with the digits of its number right behind it, as in `TOP5`. -/
def isTopWord (w : Text) : Bool :=
  decide (Spelled "TOP".toList (w.take 3)) && (w.drop 3).all CharSet.digit.contains

/-- The number of words in the code of a query that are a `TOP`, or one with its number. -/
def topWords (sql : Text) : Nat := (tokens (mask sql)).countP isTopWord

theorem isTopWord_append {t n : Text} (ht : Spelled "TOP".toList t)
    (hn : ∀ c ∈ n, CharSet.digit.contains c = true) : isTopWord (t ++ n) = true := by
  have hlength : t.length = 3 := (List.Forall₂.length_eq ht).symm
  rw [isTopWord, ← hlength, List.take_left, List.drop_left, Bool.and_eq_true, decide_eq_true_eq,
    List.all_eq_true]
  exact ⟨ht, hn⟩

theorem isTopWord_cons_eq_false {c : Char} (h : c ∉ Unicode.caseVariants 'T') (w : Text) :
    isTopWord (c :: w) = false := by
  have hnot : ¬ Spelled "TOP".toList ((c :: w).take 3) := by
    intro hs
    have hs : Spelled ('T' :: "OP".toList) (c :: w.take 2) := hs
    cases hs with
    | cons hc _ => exact h hc
  rw [isTopWord, decide_eq_false hnot, Bool.false_and]

/-- The `TOP` of a clause, alone or with its number, is a word. -/
theorem IsCount.exists_topWord {b₁ t b₂ k n : Text} (h : IsCount k n)
    (hb₁ : ∀ c ∈ b₁, Unicode.isBlank c = true) (ht : Spelled "TOP".toList t)
    (hb₂ : ∀ c ∈ b₂, Unicode.isBlank c = true) :
    ∃ w ∈ tokens (b₁ ++ t ++ b₂ ++ k), isTopWord w = true := by
  have hname : isName "TOP".toList = true := by decide
  have htop : isTopWord t = true := by
    have := isTopWord_append ht (List.forall_mem_nil _)
    rwa [List.append_nil] at this
  rw [List.append_assoc, List.append_assoc, tokens_blanks_append hb₁]
  by_cases hapart : beginsInWord (b₂ ++ k) = false
  · refine ⟨t, ?_, htop⟩
    rw [tokens_append (.of_begins hapart t), tokens_word (ht.ne_nil hname) (ht.isWordChar hname)]
    exact List.mem_append_left _ (List.mem_singleton.2 rfl)
  · -- the number goes on in the word
    obtain rfl : b₂ = [] := by
      cases b₂ with
      | nil => rfl
      | cons c b₂ => exact absurd (isWordChar_of_isBlank (hb₂ c (by simp))) hapart
    obtain ⟨hn, rfl | ⟨b, b', rfl, -⟩⟩ := h
    · refine ⟨t ++ k, ?_, isTopWord_append ht hn.2⟩
      rw [List.nil_append, tokens_word (by simp [ht.ne_nil hname]) ?_]
      · exact List.mem_singleton.2 rfl
      · intro c hc
        rcases List.mem_append.1 hc with hc | hc
        · exact ht.isWordChar hname c hc
        · exact hn.isWordChar c hc
    · exact absurd rfl hapart

/-- What stands between the quantifier and the end of a `TOP` clause. -/
structure IsTopTail (r : Text) : Prop where
  begins : beginsInWord r = false
  last : ∃ y z, r = y ++ [z] ∧ isFirm z = true
  nest : ∀ d, nest d r = some d
  word : ∃ w ∈ tokens r, isTopWord w = true

theorem IsCount.isTopTail {b₁ t b₂ k n : Text} (h : IsCount k n)
    (hb₁ : b₁ ≠ [] ∧ ∀ c ∈ b₁, Unicode.isBlank c = true) (ht : Spelled "TOP".toList t)
    (hb₂ : ∀ c ∈ b₂, Unicode.isBlank c = true) : IsTopTail (b₁ ++ t ++ b₂ ++ k) := by
  have hbegins : beginsInWord (b₁ ++ t ++ b₂ ++ k) = false := by
    rw [List.append_assoc, List.append_assoc, beginsInWord_blanks_append hb₁]
  have hb : ∀ c ∈ b₁ ++ t ++ b₂, Unicode.isWordChar c = true ∨ Unicode.isBlank c = true := by
    intro c hc
    rcases List.mem_append.1 hc with hc | hc
    · rcases List.mem_append.1 hc with hc | hc
      · exact .inr (hb₁.2 c hc)
      · exact .inl (ht.isWordChar (by decide) c hc)
    · exact .inr (hb₂ c hc)
  have hword := h.exists_topWord hb₁.2 ht hb₂
  generalize b₁ ++ t ++ b₂ = b at hbegins hb hword ⊢
  obtain ⟨hn, rfl | ⟨b₁, b₂, rfl, hb₁, hb₂⟩⟩ := h
  · refine ⟨hbegins, ⟨b ++ k.dropLast, k.getLast hn.1, ?_, ?_⟩, ?_, hword⟩
    · rw [List.append_assoc, List.dropLast_concat_getLast]
    · exact isFirm_of_isWordChar (hn.isWordChar _ (List.getLast_mem hn.1))
    · refine nest_of_isWordChar_or_isBlank fun c hc => ?_
      rcases List.mem_append.1 hc with hc | hc
      · exact hb c hc
      · exact .inl (hn.isWordChar c hc)
  · refine ⟨hbegins, ⟨b ++ '(' :: (b₁ ++ (n ++ b₂)), ')', by simp, by decide⟩, ?_, hword⟩
    intro d
    have hinner : DialectBridge.nest (d + 1) (b₁ ++ (n ++ b₂)) = some (d + 1) := by
      refine nest_of_isWordChar_or_isBlank (fun c hc => ?_) _
      rcases List.mem_append.1 hc with hc | hc
      · exact .inr (hb₁ c hc)
      · rcases List.mem_append.1 hc with hc | hc
        · exact .inl (hn.isWordChar c hc)
        · exact .inr (hb₂ c hc)
    rw [nest_append, nest_of_isWordChar_or_isBlank hb]
    have hsplit : b₁ ++ (n ++ (b₂ ++ [')'])) = (b₁ ++ (n ++ b₂)) ++ [')'] := by simp
    rw [hsplit, Option.bind_some, DialectBridge.nest, if_pos rfl, nest_append, hinner]
    rfl

/-- `TOP` with the number `n`, and the white space before it. -/
def IsTopPhrase (n r : Text) : Prop :=
  ∃ b₁ t b₂ k, r = b₁ ++ t ++ b₂ ++ k ∧ (b₁ ≠ [] ∧ ∀ c ∈ b₁, Unicode.isBlank c = true) ∧
    Spelled "TOP".toList t ∧ (∀ c ∈ b₂, Unicode.isBlank c = true) ∧ IsCount k n

theorem IsTopPhrase.isTopTail {n r : Text} (h : IsTopPhrase n r) : IsTopTail r := by
  obtain ⟨b₁, t, b₂, k, rfl, hb₁, ht, hb₂, hcount⟩ := h
  exact hcount.isTopTail hb₁ ht hb₂

theorem IsTopPhrase.isNumeral {n r : Text} (h : IsTopPhrase n r) : IsNumeral n := by
  obtain ⟨b₁, t, b₂, k, -, -, -, -, hcount⟩ := h
  exact hcount.1

/-- The parts of a `TOP` clause: `SELECT`, its quantifier, `TOP` with the number, blanks. -/
theorem exists_topParts {u x : Text} {m : Match} (h : topClause.matchAt? (between u x) = some m) :
    ∃ n s o r b v, (m.group? 2).or (m.group? 3) = some n ∧
      x = s ++ (o ++ (r ++ (b ++ v))) ∧ endsInWord u = false ∧ Spelled "SELECT".toList s ∧
      (o = [] ∧ m.groupSpan? 1 = none ∨ IsQuantifier o ∧
        m.groupSpan? 1 = some ⟨Text.width (u ++ s), Text.width (u ++ s ++ o)⟩) ∧
      IsTopPhrase n r ∧ b ≠ [] ∧ (∀ c ∈ b, Unicode.isBlank c = true) ∧
      (∀ c ∈ v.head?, Unicode.isBlank c = false) ∧ m.start = Text.width u ∧
      m.stop = Text.width (u ++ (s ++ (o ++ (r ++ b)))) := by
  have htop : topClause = topNumber ++ many1 (one .blank) := rfl
  rw [htop] at h
  obtain ⟨w, b, v, rfl, hw, hb, hblank, hv, hfirst, hlast⟩ := exists_of_matchAt?_many1 h
  obtain ⟨w, k, g₁, rfl, hw, hk⟩ := hw
  obtain ⟨w, b₂, g₂, rfl, hw, hb₂⟩ := hw
  obtain ⟨w, t, g₃, rfl, hw, ht⟩ := hw
  obtain ⟨w, b₁, g₄, rfl, hw, hb₁⟩ := hw
  obtain ⟨w, o, g₅, rfl, hw, ho⟩ := hw
  obtain ⟨e, s, g₆, rfl, he, hs⟩ := hw
  obtain ⟨⟨rfl, hedge⟩, rfl⟩ := takes_edge he
  obtain ⟨hselect, rfl⟩ := takes_word hs
  obtain ⟨hblank₁, rfl⟩ := takes_blanks1 hb₁
  obtain ⟨htop, rfl⟩ := takes_word ht
  obtain ⟨hblank₂, rfl⟩ := takes_blanks hb₂
  obtain ⟨n, i, c, d, hcount, hgroups, hi, htext⟩ := takes_count hk
  have hname : isName "SELECT".toList = true := by decide
  have hname' : isName "TOP".toList = true := by decide
  have hu : endsInWord u = false := by
    have hbegin := hselect.beginsInWord hname
    simp only [hbegin] at hedge
    simpa using hedge
  have hspan : o = [] ∧ m.groupSpan? 1 = none ∨ IsQuantifier o ∧
      m.groupSpan? 1 = some ⟨Text.width (u ++ s), Text.width (u ++ s ++ o)⟩ := by
    rcases takes_quantifier ho with ⟨rfl, rfl⟩ | ⟨hq, rfl⟩
    · refine .inl ⟨rfl, ?_⟩
      rcases hi with rfl | rfl <;> simp [Match.groupSpan?, hgroups, List.lookup_cons]
    · refine .inr ⟨hq, ?_⟩
      rcases hi with rfl | rfl <;> simp [Match.groupSpan?, hgroups, List.lookup_cons]
  have hnumber : (m.group? 2).or (m.group? 3) = some n := by
    rcases takes_quantifier ho with ⟨rfl, rfl⟩ | ⟨hq, rfl⟩ <;>
    · rcases hi with rfl | rfl <;> simp [Match.group?, hgroups, List.lookup_cons, htext]
  exact ⟨n, s, o, b₁ ++ t ++ b₂ ++ k, b, v, hnumber, by simp, hu, hselect, hspan,
    ⟨b₁, t, b₂, k, rfl, hblank₁, htop, hblank₂, hcount⟩, hb, hblank, hv, by simp [Match.start, hfirst],
    by simp [Match.stop, hlast]⟩

/-! ## The query without it -/

/-- The query `q ++ c` is `sql` without the `TOP n` of the match `m`; its select list is `c`. -/
structure TopDropped (sql : Text) (m : Match) (n q c : Text) : Prop where
  drop : dropTop? sql m = some (q ++ c, Text.width q)
  number : IsNumeral n
  behind : code.after q = code
  blank : ∃ q', q = q' ++ [' '] ∧ endsInWord (mask q') = true ∧ code.after q' = code
  rest : Text.from? (mask sql) m.stop = some (mask c)
  nested : WellNested (mask sql) → WellNested (mask (q ++ c))
  fewer : topWords (q ++ c) < topWords sql

theorem exists_splice?_of_dropTop? {sql : Text} {m : Match} {r : Text × Nat}
    (h : dropTop? sql m = some r) :
    ∃ head out, Text.splice? sql m.start m.stop head = some out := by
  simp only [dropTop?, Option.bind_eq_bind, Option.bind_eq_some_iff] at h
  obtain ⟨keyword, -, h⟩ := h
  split at h <;>
  · simp only [Option.bind_eq_some_iff] at h
    obtain ⟨distinct, -, out, hout, -⟩ := h
    exact ⟨_, out, hout⟩

/-- The first six bytes of `SELECT` are a word. -/
theorem exists_keyword {s : Text} (h : Spelled "SELECT".toList s) :
    ∃ k s', s = k ++ s' ∧ Text.width k = 6 ∧ ∃ c k', k = c :: k' ∧ c ∈ Unicode.caseVariants 'S' := by
  have hs : Spelled ['S', 'E', 'L', 'E', 'C', 'T'] s := h
  have key : ['E', 'L', 'C', 'T'].all (fun d => (Unicode.caseVariants d).all (·.utf8Size == 1)) =
      true := by decide
  have hone : ∀ {d c : Char}, d ∈ ['E', 'L', 'C', 'T'] → c ∈ Unicode.caseVariants d →
      c.utf8Size = 1 := by
    intro d c hd hc
    simpa using List.all_eq_true.1 (List.all_eq_true.1 key d hd) c hc
  have keyS : (Unicode.caseVariants 'S').all
      (fun c => c.utf8Size == 1 || c.utf8Size == 2) = true := by decide
  cases hs with | cons h1 hs => cases hs with | cons h2 hs => cases hs with | cons h3 hs =>
  cases hs with | cons h4 hs => cases hs with | cons h5 hs => cases hs with | cons h6 hs =>
  cases hs
  rename_i c1 c2 c3 c4 c5 c6
  have e2 := hone (by decide) h2
  have e3 := hone (by decide) h3
  have e4 := hone (by decide) h4
  have e5 := hone (by decide) h5
  have e6 := hone (by decide) h6
  have e1 := List.all_eq_true.1 keyS _ h1
  simp only [Bool.or_eq_true, beq_iff_eq] at e1
  rcases e1 with e1 | e1
  · exact ⟨[c1, c2, c3, c4, c5, c6], [], rfl, by simp [e1, e2, e3, e4, e5, e6], c1, _, rfl, h1⟩
  · exact ⟨[c1, c2, c3, c4, c5], [c6], rfl, by simp [e1, e2, e3, e4, e5], c1, _, rfl, h1⟩

/-- Without its `TOP` the query has one `TOP` less, at least. -/
theorem countP_isTopWord_dropped {u k s o r b v : Text} (hu : endsInWord u = false)
    (hk : k ≠ [] ∧ ∀ c ∈ k, Unicode.isWordChar c = true) (htop : isTopWord k = false)
    (hs : s ≠ [] ∧ ∀ c ∈ s, Unicode.isWordChar c = true) (ho : beginsInWord o = false)
    (hr : IsTopTail r) (hb : b ≠ [] ∧ ∀ c ∈ b, Unicode.isBlank c = true) :
    (tokens (u ++ (k ++ o) ++ [' '] ++ v)).countP isTopWord <
      (tokens (u ++ (s ++ (o ++ (r ++ (b ++ v)))))).countP isTopWord := by
  have hbv : beginsInWord (b ++ v) = false := beginsInWord_blanks_append hb v
  have hrv : beginsInWord (r ++ (b ++ v)) = false := by
    obtain ⟨y, z, rfl, -⟩ := hr.last
    rw [beginsInWord_append (by simp), hr.begins]
  have hov : ∀ {x : Text}, beginsInWord x = false → beginsInWord (o ++ x) = false := by
    intro x hx
    cases o with
    | nil => exact hx
    | cons c o => exact ho
  have hold : tokens (u ++ (s ++ (o ++ (r ++ (b ++ v))))) =
      tokens u ++ ([s] ++ (tokens o ++ (tokens r ++ tokens v))) := by
    rw [tokens_append (.of_ends hu _), tokens_append (.of_begins (hov hrv) _),
      tokens_append (.of_begins hrv _), tokens_append (.of_begins hbv _),
      tokens_blanks_append hb.2, tokens_word hs.1 hs.2]
  have hspace : beginsInWord ([' '] ++ v) = false := (by decide : Unicode.isWordChar ' ' = false)
  have hblank : ∀ c ∈ [' '], Unicode.isBlank c = true := by decide
  have hnew : tokens (u ++ (k ++ o) ++ [' '] ++ v) = tokens u ++ ([k] ++ (tokens o ++ tokens v)) := by
    simp only [List.append_assoc]
    rw [tokens_append (.of_ends hu _), tokens_append (.of_begins (hov hspace) _),
      tokens_append (.of_begins hspace _), tokens_blanks_append hblank, tokens_word hk.1 hk.2]
  have hmore : 0 < (tokens r).countP isTopWord := List.countP_pos_iff.2 hr.word
  have hnone : [k].countP isTopWord = 0 := by simp [htop]
  rw [hold, hnew]
  simp only [List.countP_append, hnone]
  omega

/-- The quantifier can be cut off in the query. -/
theorem exists_cut_quantifier {y o v : Text} (h : mask y = o ++ v) (ho : o = [] ∨ IsQuantifier o) :
    ∃ d y', y = d ++ y' ∧ mask d = o ∧ mask y' = v ∧ code.after d = code := by
  rcases ho with rfl | ⟨b, k, rfl, -, hk⟩
  · exact ⟨[], y, rfl, mask_nil, h, rfl⟩
  · have hword : k ≠ [] ∧ ∀ c ∈ k, Unicode.isWordChar c = true := by
      rcases hk with hk | hk
      · exact ⟨hk.ne_nil (by decide), hk.isWordChar (by decide)⟩
      · exact ⟨hk.ne_nil (by decide), hk.isWordChar (by decide)⟩
    rw [List.append_assoc] at h
    obtain ⟨e, y', rfl, he, hy', hlive, hcode⟩ := exists_cut_word hword.1 hword.2 h
    have hplain : ∀ c ∈ k, isPlain c = true := fun c hc => isPlain_of_isWordChar (hword.2 c hc)
    refine ⟨e ++ k, y', by simp, ?_, hy', hcode⟩
    rw [mask_append (joins_of_head?_isPlain hlive fun c hc => hplain c (List.mem_of_head? hc)), he,
      mask_of_all_isPlain hplain]

theorem dropTop?_eq {a k s' d f b c : Text} {m : Match} (hstart : m.start = Text.width a)
    (hk : Text.width k = 6)
    (hspan : d = [] ∧ m.groupSpan? 1 = none ∨ m.groupSpan? 1 =
      some ⟨Text.width (a ++ (k ++ s')), Text.width (a ++ (k ++ s') ++ d)⟩)
    (hstop : m.stop = Text.width (a ++ (k ++ s' ++ (d ++ (f ++ b))))) :
    dropTop? (a ++ (k ++ s' ++ (d ++ (f ++ (b ++ c))))) m =
      some (a ++ (k ++ d) ++ [' '] ++ c, Text.width (a ++ (k ++ d) ++ [' '])) := by
  have hkeyword : Text.slice? (a ++ (k ++ s' ++ (d ++ (f ++ (b ++ c))))) m.start (m.start + 6) =
      some k := by
    have := Text.slice?_append a k (s' ++ (d ++ (f ++ (b ++ c))))
    rw [hstart, ← hk]
    simpa using this
  have hsplice : Text.splice? (a ++ (k ++ s' ++ (d ++ (f ++ (b ++ c))))) m.start m.stop
      (k ++ d ++ " ".toList) = some (a ++ (k ++ d) ++ [' '] ++ c) := by
    have := Text.splice?_append a (k ++ s' ++ (d ++ (f ++ b))) c (k ++ d ++ " ".toList)
    rw [hstart, hstop, Text.width_append a]
    simpa using this
  rw [dropTop?, hkeyword]
  rcases hspan with ⟨rfl, hnone⟩ | hsome
  · rw [hnone]
    simp only [Option.bind_eq_bind, Option.bind_some, hsplice]
    simp [hstart]
  · have hdistinct : Text.slice? (a ++ (k ++ s' ++ (d ++ (f ++ (b ++ c)))))
        (Text.width (a ++ (k ++ s'))) (Text.width (a ++ (k ++ s') ++ d)) = some d := by
      have := Text.slice?_append (a ++ (k ++ s')) d (f ++ (b ++ c))
      rw [Text.width_append (a ++ (k ++ s')) d]
      simpa using this
    rw [hsome]
    simp only [Option.bind_eq_bind, Option.bind_some, hdistinct, hsplice]
    simp [hstart]

/-- A query cut at a `TOP n` in its code: the keyword `k ++ s`, of which `k` is kept, its quantifier `d`, `TOP` with
the number `f`, the white space `b` behind it, and the select list `c`. -/
structure TopCut (sql : Text) (m : Match) (n a k s d f b c : Text) : Prop where
  split : sql = a ++ (k ++ s ++ (d ++ (f ++ (b ++ c))))
  keyword : Spelled "SELECT".toList (k ++ s)
  width : Text.width k = 6
  first : ∃ e k', k = e :: k' ∧ e ∈ Unicode.caseVariants 'S'
  number : (m.group? 2).or (m.group? 3) = some n
  quantifier : d = [] ∧ m.groupSpan? 1 = none ∨ IsQuantifier (mask d) ∧
    m.groupSpan? 1 = some ⟨Text.width (a ++ (k ++ s)), Text.width (a ++ (k ++ s) ++ d)⟩
  phrase : IsTopPhrase n (mask f)
  blank : mask b ≠ [] ∧ ∀ e ∈ mask b, Unicode.isBlank e = true
  live : (code.after a).live = true
  left : endsInWord (mask a) = false
  inner : code.after d = code
  behind : code.after f = code
  joins : (code.after b).joins c = true
  start : m.start = Text.width a
  stop : m.stop = Text.width (a ++ (k ++ s ++ (d ++ (f ++ b))))

theorem exists_topCut {sql : Text} {m : Match} (hm : m ∈ topClause.findAll (mask sql)) :
    ∃ n a k s d f b c, TopCut sql m n a k s d f b c := by
  obtain ⟨u, x, hmask, hat⟩ := exists_of_mem_findAll hm
  obtain ⟨n, s, o, r, b, v, hnumber, rfl, hu, hselect, hspan, hphrase, hb, hblank, hv, hstart, hstop⟩ :=
    exists_topParts hat
  have hname : isName "SELECT".toList = true := by decide
  obtain ⟨a, y, rfl, rfl, hy, hlive, -⟩ := exists_cut_word (hselect.ne_nil hname) (hselect.isWordChar hname) hmask
  obtain ⟨d, y, rfl, rfl, hy', hd⟩ := exists_cut_quantifier hy (hspan.imp And.left And.left)
  obtain ⟨y₀, z, rfl, hfirm⟩ := hphrase.isTopTail.last
  obtain ⟨f, t, rfl, hf, ht, -, hf'⟩ := exists_cut_after hfirm hy'
  rw [← hf] at hphrase hstop
  obtain ⟨b', c, rfl, rfl, rfl, hj⟩ := exists_cut_blanks ht hblank hv
  obtain ⟨k, s', rfl, hk, hktop⟩ := exists_keyword hselect
  refine ⟨n, a, k, s', d, f, b', c, rfl, hselect, hk, hktop, hnumber, ?_, hphrase, ⟨hb, hblank⟩, hlive, hu, hd, hf', hj,
    by rw [hstart, width_mask], ?_⟩
  · rcases hspan with ⟨hnil, hnone⟩ | ⟨hq, hsome⟩
    · exact .inl ⟨by_contra fun hne => mask_ne_nil hne hnil, hnone⟩
    · exact .inr ⟨hq, by simpa only [Text.width_append, width_mask] using hsome⟩
  · simpa only [Text.width_append, width_mask] using hstop

namespace TopCut
variable {sql n a k s d f b c : Text} {m : Match} (h : TopCut sql m n a k s d f b c)
include h

theorem quantifier_mask : mask d = [] ∨ IsQuantifier (mask d) :=
  h.quantifier.imp (fun hd => by rw [hd.1, mask_nil]) And.left

theorem keyword_ne_nil : k ≠ [] := by
  obtain ⟨e, k', rfl, -⟩ := h.first
  exact List.cons_ne_nil e k'

theorem keyword_word : ∀ e ∈ k ++ s, Unicode.isWordChar e = true := h.keyword.isWordChar (by decide)

theorem kept_word : ∀ e ∈ k, Unicode.isWordChar e = true := fun e he => h.keyword_word e (List.mem_append_left s he)

/-- The heading with its quantifier and without its `TOP`. -/
theorem heading : mask (a ++ (k ++ d)) = mask a ++ (k ++ mask d) ∧ code.after (a ++ (k ++ d)) = code := by
  have hplain : ∀ e ∈ k, isPlain e = true := fun e he => isPlain_of_isWordChar (h.kept_word e he)
  refine ⟨mask_plain_between h.live hplain h.keyword_ne_nil, ?_⟩
  rw [after_append, after_append, after_of_all_isPlain h.live hplain h.keyword_ne_nil, h.inner]

theorem after_heading : code.after (a ++ (k ++ d) ++ [' ']) = code := by
  rw [after_append, h.heading.2]
  rfl

theorem mask_eq : mask sql = mask a ++ (k ++ s ++ (mask d ++ (mask f ++ (mask b ++ mask c)))) := by
  have hplain : ∀ e ∈ k ++ s, isPlain e = true := fun e he => isPlain_of_isWordChar (h.keyword_word e he)
  rw [h.split, mask_plain_between h.live hplain (by simp [h.keyword_ne_nil]),
    mask_append (by rw [h.inner]; exact joins_code _), mask_append (by rw [h.behind]; exact joins_code _),
    mask_append h.joins]

theorem mask_dropped : mask (a ++ (k ++ d) ++ [' '] ++ c) = mask a ++ (k ++ mask d) ++ [' '] ++ mask c := by
  have hspace : mask [' '] = [' '] := mask_of_all_isPlain (by decide)
  rw [mask_append (by rw [h.after_heading]; exact joins_code c), mask_append (by rw [h.heading.2]; rfl), h.heading.1,
    hspace]

theorem endsInWord_heading : endsInWord (mask (a ++ (k ++ d))) = true := by
  rw [h.heading.1]
  rcases h.quantifier_mask with hd | ⟨bl, w, hd, -, hw⟩
  · rw [hd, List.append_nil, endsInWord_append h.keyword_ne_nil]
    exact endsInWord_of_all h.keyword_ne_nil h.kept_word
  · have hend : w ≠ [] ∧ endsInWord w = true := by
      rcases hw with hw | hw
      · exact ⟨hw.ne_nil (by decide), by simpa using hw.endsInWord (by decide) []⟩
      · exact ⟨hw.ne_nil (by decide), by simpa using hw.endsInWord (by decide) []⟩
    have hsplit : mask a ++ (k ++ (bl ++ w)) = (mask a ++ (k ++ bl)) ++ w := by simp
    rw [hd, hsplit, endsInWord_append hend.1, hend.2]

/-- What stands in front of the select list has all its parentheses closed where it had them before. -/
theorem wellNested_dropped (hnested : WellNested (mask sql)) : WellNested (mask (a ++ (k ++ d) ++ [' '] ++ c)) := by
  have hquantifier : ∀ i, nest i (mask d) = some i := by
    refine nest_of_isWordChar_or_isBlank fun e he => ?_
    rcases h.quantifier_mask with hd | ⟨bl, w, hd, hbl, hw⟩ <;> rw [hd] at he
    · simp at he
    · rcases List.mem_append.1 he with he | he
      · exact .inr (hbl.2 e he)
      · rcases hw with hw | hw
        · exact .inl (hw.isWordChar (by decide) e he)
        · exact .inl (hw.isWordChar (by decide) e he)
  have hselect : ∀ i, nest i (k ++ s) = some i :=
    nest_of_isWordChar_or_isBlank fun e he => .inl (h.keyword_word e he)
  have hk : ∀ i, nest i k = some i := nest_of_isWordChar_or_isBlank fun e he => .inl (h.kept_word e he)
  have hblanks : ∀ i, nest i (mask b) = some i := nest_of_isWordChar_or_isBlank fun e he => .inr (h.blank.2 e he)
  have hspace : ∀ i, nest i [' '] = some i := fun _ => rfl
  rw [wellNested_iff] at hnested ⊢
  rw [h.mask_eq, nest_append] at hnested
  obtain ⟨i, hi, hnested⟩ := Option.bind_eq_some_iff.1 hnested
  rw [nest_append_of_neutral hselect, nest_append_of_neutral hquantifier,
    nest_append_of_neutral h.phrase.isTopTail.nest, nest_append_of_neutral hblanks] at hnested
  rw [h.mask_dropped, List.append_assoc, List.append_assoc, List.append_assoc, nest_append, hi, Option.bind_some,
    nest_append_of_neutral hk, nest_append_of_neutral hquantifier, nest_append_of_neutral hspace]
  exact hnested

theorem topWords_dropped_lt : topWords (a ++ (k ++ d) ++ [' '] ++ c) < topWords sql := by
  have htop : isTopWord k = false := by
    have key : (Unicode.caseVariants 'S').all (fun e => !(Unicode.caseVariants 'T').contains e) = true := by decide
    obtain ⟨e, k', rfl, he⟩ := h.first
    refine isTopWord_cons_eq_false ?_ k'
    simpa using List.all_eq_true.1 key e he
  have hbegin : beginsInWord (mask d) = false := by
    rcases h.quantifier_mask with hd | ⟨bl, w, hd, hbl, -⟩ <;> rw [hd]
    · rfl
    · rw [beginsInWord_append hbl.1, ← List.append_nil bl]
      exact beginsInWord_blanks hbl.2 rfl
  rw [topWords, topWords, h.mask_dropped, h.mask_eq]
  exact countP_isTopWord_dropped h.left ⟨h.keyword_ne_nil, h.kept_word⟩ htop
    ⟨by simp [h.keyword_ne_nil], h.keyword_word⟩ hbegin h.phrase.isTopTail h.blank

theorem dropped : TopDropped sql m n (a ++ (k ++ d) ++ [' ']) c where
  drop := by
    rw [h.split]
    exact dropTop?_eq h.start h.width (h.quantifier.imp_right And.right) h.stop
  number := h.phrase.isNumeral
  behind := h.after_heading
  blank := ⟨_, rfl, h.endsInWord_heading, h.heading.2⟩
  rest := by
    have hsplit := Text.from?_append (mask a ++ (k ++ s ++ (mask d ++ (mask f ++ mask b)))) (mask c)
    rw [h.mask_eq, h.stop]
    simpa only [List.append_assoc, Text.width_append, width_mask] using hsplit
  nested := h.wellNested_dropped
  fewer := h.topWords_dropped_lt

end TopCut

/-- `dropTop?` takes a `TOP` clause out of the query. -/
theorem exists_topDropped {sql : Text} {m : Match} (hm : m ∈ topClause.findAll (mask sql)) :
    ∃ n q c, (m.group? 2).or (m.group? 3) = some n ∧ TopDropped sql m n q c := by
  obtain ⟨n, a, k, s, d, f, b, c, h⟩ := exists_topCut hm
  exact ⟨n, _, c, h.number, h.dropped⟩

/-! ## One step -/

/-- The `TOP` clause that is moved next. -/
def nextTop? (sql : Text) : Option Match :=
  ((topClause.findAll (mask sql)).filter fun m => !topModifier.occursIn m.last.right).head?

theorem mem_of_nextTop? {sql : Text} {m : Match} (h : nextTop? sql = some m) :
    m ∈ topClause.findAll (mask sql) :=
  (List.mem_filter.1 (List.mem_of_head? h)).1

theorem topStep_of_none {sql : Text} (h : nextTop? sql = none) : topStep sql = pure none := by
  rw [nextTop?, List.head?_eq_none_iff] at h
  rw [topStep, h]
  rfl

theorem topStep_of_some {sql n : Text} {m : Match} (h : nextTop? sql = some m)
    (hn : (m.group? 2).or (m.group? 3) = some n) : topStep sql = some <$> moveTop sql m n := by
  obtain ⟨ms, hms⟩ := List.head?_eq_some_iff.1 h
  rw [topStep, hms, List.findSomeM?, hn]
  simp

theorem exists_run_moveTop {sql n q c out : Text} {m : Match} (h : TopDropped sql m n q c)
    (hadd : addRownumFilter? (q ++ c) (Text.width q) n = some out) (raised : List Warning) :
    ∃ raised', (moveTop sql m n).run raised = some (out, raised') := by
  obtain ⟨after, hscope, -, -⟩ := scope_spec 0 (mask c)
  have hmask : mask (q ++ c) = mask q ++ scope 0 (mask c) ++ after := by
    rw [mask_append (by rw [h.behind]; exact joins_code c), List.append_assoc, ← hscope]
  obtain ⟨orders, horders⟩ : ∃ orders, depthZeroMatches? (mask (q ++ c)) (Text.width q)
      (scopeEnd (mask (q ++ c)) (Text.width q)) orderOrGroup = some orders := by
    have hstop := scopeEnd_append (mask q) (mask c)
    have hfind := depthZeroMatches?_append (mask q) (scope 0 (mask c)) after orderOrGroup
    rw [← hmask, ← hstop, width_mask, ← mask_append (by rw [h.behind]; exact joins_code c)] at hfind
    exact ⟨_, hfind⟩
  unfold moveTop warnOnce
  generalize (⟨Category.rowLimit, _⟩ : Warning) = w
  simp only [Editing.run_lift_bind, h.drop, Option.bind_some, horders]
  split_ifs
  · simp only [StateT.run_bind, StateT.run_modify, Option.bind_eq_bind, Option.pure_def,
      Option.bind_some, Editing.run_lift, hadd]
    exact ⟨_, rfl⟩
  · rw [Editing.run_lift, hadd]
    exact ⟨_, rfl⟩

theorem exists_run_topStep {sql n q c out : Text} {m : Match} (hnext : nextTop? sql = some m)
    (hn : (m.group? 2).or (m.group? 3) = some n) (h : TopDropped sql m n q c)
    (hadd : addRownumFilter? (q ++ c) (Text.width q) n = some out) (raised : List Warning) :
    ∃ raised', (topStep sql).run raised = some (some out, raised') := by
  obtain ⟨raised', hrun⟩ := exists_run_moveTop h hadd raised
  exact ⟨raised', by rw [topStep_of_some hnext hn, StateT.run_map, hrun]; rfl⟩

end DialectBridge.ToOracle
