import DialectBridge.Proofs.TopInsertion
import DialectBridge.Proofs.TidyQueries
/-!
# The only `ROWNUM` of a query

If the only `ROWNUM` of a query is that of a limit `WHERE ROWNUM <= n`, every test that is found is this one
(`Bounded.of_takes`), whether it has no other conditions (`Bounded.exists_soleMatch`) or is the first of them
(`Bounded.exists_firstMatch`).
-/
namespace DialectBridge
open Pattern Cursor LexState

/-! ## The first match -/

/-- A match in front of which no other begins is the first. -/
theorem exists_findAll_cons {p : Pattern} {u x : Text} {m : Match} (hp : p.Consuming)
    (hm : p.matchAt? (between u x) = some m)
    (hfirst : ∀ u' w v, u ++ x = u' ++ (w ++ v) → Matches p u' w v → Text.width u ≤ Text.width u') :
    ∃ ms, p.findAll (u ++ x) = m :: ms := by
  have hstart : m.start = Text.width u := by
    obtain ⟨w, v, rfl, hfirst, -, -⟩ := matchAt?_eq_some hm
    rw [Match.start, hfirst, offset_between]
  have hle : ∀ m' ∈ p.findAll (u ++ x), m.start ≤ m'.start ∧ m'.start < m'.stop := by
    intro m' hm'
    obtain ⟨u', x', hsplit, hat⟩ := exists_of_mem_findAll hm'
    have hwidth := hp.width_ne_zero hat
    obtain ⟨w, v, rfl, hfirst', -, htakes⟩ := matchAt?_eq_some hat
    have hbegin := hfirst u' w v hsplit ⟨_, _, htakes⟩
    rw [Match.width] at hwidth
    refine ⟨?_, by omega⟩
    rw [hstart, Match.start, hfirst', offset_between]
    exact hbegin
  have hmem : m ∈ p.findAll (u ++ x) := by
    refine (mem_findAll_or_exists hp hm).resolve_right ?_
    rintro ⟨m', hm', hlt, -⟩
    have := (hle m' hm').1
    omega
  obtain ⟨l, ms, hsplit⟩ := List.append_of_mem hmem
  have hpairwise := pairwise_findAll p (u ++ x)
  cases l with
  | nil => exact ⟨ms, hsplit⟩
  | cons m' l =>
    rw [hsplit] at hpairwise hle
    have hstop : m'.stop ≤ m.start := List.rel_of_pairwise_cons hpairwise (by simp)
    have := hle m' (by simp)
    omega

namespace ToTsql

/-! ## Where lists are cut -/

theorem append_inj_of_getLast? {α : Type} {p : α → Prop} {x y b c : List α} (h : x ++ b = y ++ c)
    (hb : ∀ a ∈ b, p a) (hc : ∀ a ∈ c, p a) (hx : ∀ a ∈ x.getLast?, ¬ p a) (hy : ∀ a ∈ y.getLast?, ¬ p a) :
    x = y ∧ b = c := by
  have hnil : ∀ {x k b : List α}, (∀ a ∈ k ++ b, p a) → (∀ a ∈ (x ++ k).getLast?, ¬ p a) → k = [] := by
    intro x k b hk hlast
    by_contra hne
    obtain ⟨k, a, rfl⟩ := (List.eq_nil_or_concat k).resolve_left hne
    simp only [List.concat_eq_append] at hk hlast
    exact hlast a (by simp) (hk a (by simp))
  rcases List.append_eq_append_iff.1 h with ⟨k, rfl, rfl⟩ | ⟨k, rfl, rfl⟩
  · obtain rfl := hnil hb hy
    simp
  · obtain rfl := hnil hc hx
    simp

theorem isWordChar_of_getLast? {x : Text} (h : endsInWord x = false) :
    ∀ c ∈ x.getLast?, ¬ Unicode.isWordChar c = true := by
  intro c hc
  obtain ⟨x, rfl⟩ := List.getLast?_eq_some_iff.1 hc
  rw [endsInWord_append (by simp), endsInWord_singleton] at h
  simp [h]

theorem isBlank_of_getLast? {x : Text} (h : endsInWord x = true) : ∀ c ∈ x.getLast?, ¬ Unicode.isBlank c = true := by
  intro c hc hblank
  obtain ⟨x, rfl⟩ := List.getLast?_eq_some_iff.1 hc
  rw [endsInWord_append (by simp), endsInWord_singleton, isWordChar_of_isBlank hblank] at h
  cases h

/-! ## The only word of its name -/

section
variable {name r r' l l' z z' : Text}

theorem pieces_name (hname : isName name = true) (hr : Spelled name r) (hl : endsInWord l = false)
    (hz : beginsInWord z = false) : pieces (l ++ (r ++ z)) = pieces l ++ r :: pieces z := by
  rw [pieces_append (.of_ends hl _), pieces_append (.of_begins hz r),
    pieces_word (hr.ne_nil hname) (hr.isWordChar hname)]
  rfl

/-- A word is found where it is the only one of its name. -/
theorem name_inj (hname : isName name = true) (hr : Spelled name r) (hr' : Spelled name r')
    (hl : endsInWord l = false) (hz : beginsInWord z = false) (hl' : endsInWord l' = false) (hz' : beginsInWord z' = false)
    (hbefore : ∀ p ∈ pieces l', ¬ Spelled name p) (hbehind : ∀ p ∈ pieces z', ¬ Spelled name p)
    (h : l ++ (r ++ z) = l' ++ (r' ++ z')) : l = l' ∧ z = z' := by
  have heq := congrArg pieces h
  rw [pieces_name hname hr hl hz, pieces_name hname hr' hl' hz'] at heq
  obtain ⟨hl, -, hz⟩ := (List.append_cons_inj_of_notMem (fun hmem => hbefore _ hmem hr)
    fun hmem => hbehind _ hmem hr).1 heq.symm
  rw [← flatten_pieces l, ← hl, ← flatten_pieces z, ← hz, flatten_pieces, flatten_pieces]
  exact ⟨rfl, rfl⟩

end

/-! ## The limit -/

/-- The limit up to its `ROWNUM`. -/
def whereHead : Text := " WHERE "

def rownumWord : Text := "ROWNUM"

def boundHead : Text := " <= "

theorem limitHead_eq : limitHead = whereHead ++ (rownumWord ++ boundHead) := by decide

theorem whereHead_eq : whereHead = [' '] ++ "WHERE".toList ++ [' '] := by decide

theorem spelled_rownumWord : Spelled "ROWNUM".toList rownumWord := spelled_self _

theorem endsInWord_whereHead (a : Text) : endsInWord (a ++ whereHead) = false := by
  rw [endsInWord_append (by decide)]
  decide

theorem beginsInWord_boundHead (b : Text) : beginsInWord (boundHead ++ b) = false := by
  rw [beginsInWord_append (by decide)]
  decide

/-- The only `ROWNUM` of the query is that of a limit for its rows, behind the text `front` and in front of `rest`. -/
structure Bounded (front number rest sql : Text) : Prop where
  live : (code.after front).live = true
  last : ∀ c ∈ (mask front).getLast?, ¬ Unicode.isBlank c = true
  nested : nest 0 (mask front) = some 0
  before : Spares ["ROWNUM"] (mask front)
  digits : IsDigits number
  filled : number ≠ [] ∨ rest = []
  begins : beginsInWord rest = false
  behind : Spares ["ROWNUM"] (mask rest)
  split : sql = front ++ (limitHead ++ (number ++ rest))

section
variable {front number rest sql : Text}

theorem isPlain_limit (h : IsDigits number) : ∀ c ∈ limitHead ++ number, isPlain c = true := fun c hc => by
  rcases List.mem_append.1 hc with hc | hc
  · exact (by decide : ∀ c ∈ limitHead, isPlain c = true) c hc
  · exact isPlain_of_isWordChar (isWordChar_of_asciiDigit (h c hc))

theorem Bounded.mask_eq_append (h : Bounded front number rest sql) :
    mask sql = mask front ++ (limitHead ++ (number ++ mask rest)) := by
  have hne : limitHead ++ number ≠ [] := List.append_ne_nil_of_left_ne_nil (by decide) number
  have hmask := mask_plain_between (b := rest) h.live (isPlain_limit h.digits) hne
  rwa [List.append_assoc, ← h.split, List.append_assoc] at hmask

theorem Bounded.mask_eq (h : Bounded front number rest sql) :
    mask sql = mask front ++ whereHead ++ (rownumWord ++ (boundHead ++ (number ++ mask rest))) := by
  rw [h.mask_eq_append, limitHead_eq]
  simp only [List.append_assoc]

theorem Bounded.begins_mask (h : Bounded front number rest sql) : beginsInWord (mask rest) = false := by
  rw [beginsInWord_mask, h.begins]

theorem spares_digits {names : List String} (hnames : ∀ n ∈ names, beginsInLetters n.toList = true)
    (h : IsDigits number) : Spares names number := by
  intro p hp n hn
  have hne : number ≠ [] := by
    rintro rfl
    cases hp
  rw [pieces_word hne (isWordChar_of_isDigits h), List.mem_singleton] at hp
  exact not_spelled_plainName (hnames n hn) ⟨number, h, .inl hp⟩

/-- The only `ROWNUM` in the query is that of the limit. -/
theorem Bounded.inj (h : Bounded front number rest sql) {l r z : Text} (hsplit : mask sql = l ++ (r ++ z))
    (hr : Spelled "ROWNUM".toList r) (hl : endsInWord l = false) (hz : beginsInWord z = false) :
    l = mask front ++ whereHead ∧ z = boundHead ++ (number ++ mask rest) := by
  have hfront : Spares ["ROWNUM"] (mask front ++ whereHead) :=
    spares_append h.before (by decide) (.of_begins (by decide) _)
  have hbound : Spares ["ROWNUM"] (boundHead ++ (number ++ mask rest)) := by
    refine spares_append (by decide) ?_ (.of_ends (by decide) _)
    exact spares_append (spares_digits (by decide) h.digits) h.behind (.of_begins h.begins_mask _)
  exact name_inj (by decide) hr spelled_rownumWord hl hz (endsInWord_whereHead _) (beginsInWord_boundHead _)
    (fun p hp => hfront p hp _ (by simp)) (fun p hp => hbound p hp _ (by simp)) (hsplit.symm.trans h.mask_eq)

end

/-! ## The test -/

section
variable {front number rest sql : Text}

/-- What a test of `ROWNUM` is made of. -/
theorem takes_rownumTest {u w v : Text} {g g' : Groups} (h : Takes rownumTest u w v g g') :
    ∃ r b x, w = r ++ (b ++ x) ∧ Spelled "ROWNUM".toList r ∧ (∀ c ∈ b, Unicode.isBlank c = true) ∧
      ((∃ o b' d i j k l, x = '<' :: (o ++ (b' ++ d)) ∧ (o = [] ∨ o = ['=']) ∧ (∀ c ∈ b', Unicode.isBlank c = true) ∧
          (d ≠ [] ∧ ∀ c ∈ d, CharSet.digit.contains c = true) ∧ g' = (2, i, j) :: (1, k, l) :: g ∧
          k.upTo l = '<' :: o ∧ i.upTo j = d) ∨
        ∃ y, x = '=' :: y) := by
  obtain ⟨w, x, g₁, rfl, hw, hx⟩ := h
  obtain ⟨r, b, g₂, rfl, hr, hb⟩ := hw
  obtain ⟨hspelled, rfl⟩ := takes_word hr
  obtain ⟨hblank, rfl⟩ := takes_blanks hb
  refine ⟨r, b, x, by simp, hspelled, hblank, ?_⟩
  rcases hx with hx | hx
  · obtain ⟨x, d, g₃, rfl, hx, g₄, hd, rfl⟩ := hx
    obtain ⟨o, b', g₅, rfl, ⟨g₆, ho, rfl⟩, hb'⟩ := hx
    obtain ⟨hblank', rfl⟩ := takes_blanks hb'
    obtain ⟨hdigits, rfl⟩ := takes_digits1 hd
    have hgroups := ho.groups_eq (by decide)
    obtain ⟨lt, e, rfl, hlt, he⟩ := matches_seq.1 ⟨_, _, ho⟩
    obtain rfl := matches_sym.1 hlt
    have he : e = [] ∨ e = ['='] := (matches_opt.1 he).elim (fun he => .inr (matches_sym.1 he)) .inl
    subst hgroups
    exact .inl ⟨e, b', d, _, _, _, _, by simp, he, hblank', hdigits, rfl, upTo_between _ _ _, upTo_between _ _ _⟩
  · obtain ⟨x, one, g₃, rfl, hx, -⟩ := hx
    obtain ⟨e, b', g₄, rfl, he, -⟩ := hx
    obtain ⟨rfl, -⟩ := takes_sym he
    exact .inr ⟨b' ++ one, by simp⟩

/-- A bound is read as it is written. -/
theorem bound_inj {b o b' d v : Text} (hnumber : IsDigits number) (hfilled : number ≠ [] ∨ rest = [])
    (hb : ∀ c ∈ b, Unicode.isBlank c = true) (ho : o = [] ∨ o = ['=']) (hb' : ∀ c ∈ b', Unicode.isBlank c = true)
    (hd : d ≠ [] ∧ ∀ c ∈ d, CharSet.digit.contains c = true) (hv : beginsInWord v = false)
    (hrest : beginsInWord rest = false) (h : b ++ '<' :: (o ++ (b' ++ (d ++ v))) = boundHead ++ (number ++ rest)) :
    o = ['='] ∧ d = number ∧ v = rest := by
  have hbound : boundHead ++ (number ++ rest) = [' '] ++ '<' :: ('=' :: ' ' :: (number ++ rest)) := rfl
  have hlt : '<' ∉ b := fun hmem => absurd (hb _ hmem) (by decide)
  obtain ⟨-, hbehind⟩ := Text.append_cons_inj (h.trans hbound) hlt (by decide)
  obtain ⟨e, d', rfl⟩ := List.exists_cons_of_ne_nil hd.1
  have hdigit : CharSet.digit.contains e = true := hd.2 e (by simp)
  have hword : ∀ c ∈ e :: d', Unicode.isWordChar c = true := fun c hc => isWordChar_of_isDigit (hd.2 c hc)
  rcases ho with rfl | rfl
  · obtain rfl := eq_nil_of_blanks_append hb' (by decide) hbehind
    obtain rfl : e = '=' := (List.cons.inj hbehind).1
    exact absurd hdigit (by decide)
  · have hbehind : b' ++ (e :: d' ++ v) = [' '] ++ (number ++ rest) := (List.cons.inj hbehind).2
    have hstart : ∀ c ∈ (number ++ rest).head?, Unicode.isBlank c = false := by
      rcases hfilled with hne | rfl
      · exact isBlank_of_word ⟨hne, isWordChar_of_isDigits hnumber⟩ _
      · rw [List.append_nil]
        intro c hc
        exact isBlank_of_isWordChar (isWordChar_of_isDigits hnumber c (List.mem_of_head? hc))
    obtain ⟨-, hsame⟩ := append_inj_of_all hb' (by decide) (isBlank_of_word ⟨hd.1, hword⟩ _) hstart hbehind
    obtain ⟨hd, hv⟩ := word_inj hword (isWordChar_of_isDigits hnumber) hv hrest hsame
    exact ⟨rfl, hd, hv⟩

/-- Every test of `ROWNUM` is that of the limit, with its operator and its number. -/
theorem Bounded.of_takes (h : Bounded front number rest sql) {l t v : Text} {g g' : Groups}
    (hsplit : mask sql = l ++ (t ++ v)) (hl : endsInWord l = false) (hv : beginsInWord v = false)
    (ht : Takes rownumTest l t v g g') :
    l = mask front ++ whereHead ∧ v = mask rest ∧
      ∃ i j k m, g' = (2, i, j) :: (1, k, m) :: g ∧ k.upTo m = ['<', '='] ∧ i.upTo j = number := by
  obtain ⟨r, b, x, rfl, hr, hb, hx⟩ := takes_rownumTest ht
  have hz : beginsInWord (b ++ (x ++ v)) = false := by
    refine beginsInWord_blanks hb ?_
    rcases hx with ⟨o, b', d, i, j, k, l, rfl, -⟩ | ⟨y, rfl⟩ <;> rfl
  obtain ⟨rfl, hbound⟩ := h.inj (by rw [hsplit]; simp only [List.append_assoc]) hr hl hz
  refine ⟨rfl, ?_⟩
  rcases hx with ⟨o, b', d, i, j, k, m, rfl, ho, hb', hd, rfl, hop, hdigits⟩ | ⟨y, rfl⟩
  · obtain ⟨rfl, rfl, hrest⟩ := bound_inj h.digits (h.filled.imp_right fun hnil => by rw [hnil, mask_nil]) hb ho hb' hd hv
      h.begins_mask (by rw [← hbound]; simp only [List.cons_append, List.append_assoc])
    exact ⟨hrest, i, j, k, m, rfl, hop, hdigits⟩
  · -- the operator begins in another sign
    have hbound : b ++ '=' :: (y ++ v) = [' '] ++ '<' :: ('=' :: ' ' :: (number ++ mask rest)) := hbound
    obtain ⟨rfl, hrest⟩ := append_inj_of_all hb (by decide) (by rintro _ ⟨⟩; decide) (by rintro _ ⟨⟩; decide) hbound
    exact absurd (List.cons.inj hrest).1 (by decide)

/-- The word in front of the limit stands behind one blank. -/
theorem whereHead_inj {l k b a : Text} (hk : Spelled "WHERE".toList k) (hb : ∀ c ∈ b, Unicode.isBlank c = true)
    (hl : endsInWord l = false) (h : l ++ k ++ b = a ++ whereHead) : l = a ++ [' '] ∧ k = "WHERE".toList ∧ b = [' '] := by
  have hname : isName "WHERE".toList = true := by decide
  have hhead : a ++ whereHead = a ++ [' '] ++ "WHERE".toList ++ [' '] := by
    rw [whereHead_eq]
    simp only [List.append_assoc]
  obtain ⟨hlk, hb⟩ := append_inj_of_getLast? (h.trans hhead) hb (by decide)
    (isBlank_of_getLast? (hk.endsInWord hname _)) (isBlank_of_getLast? ((spelled_self _).endsInWord hname _))
  obtain ⟨hl, hk⟩ := append_inj_of_getLast? hlk (hk.isWordChar hname) (by decide) (isWordChar_of_getLast? hl)
    (isWordChar_of_getLast? (endsInWord_blanks (by simp) (by decide) _))
  exact ⟨hl, hk, hb⟩

theorem matches_rownumTest (u v : Text) (hne : number ≠ []) (hnumber : IsDigits number) :
    Matches rownumTest u (rownumWord ++ (boundHead ++ number)) v := by
  have hspace : ∀ c ∈ [' '], Unicode.isBlank c = true := by decide
  have hnumeral : number ≠ [] ∧ ∀ c ∈ number, CharSet.digit.contains c = true :=
    ⟨hne, fun c hc => isDigit_of_ascii (hnumber c hc)⟩
  refine matches_seq.2 ⟨rownumWord ++ [' '], '<' :: '=' :: ' ' :: number, by simp [boundHead], ?_, ?_⟩
  · exact matches_seq.2 ⟨rownumWord, [' '], rfl, matches_word.2 (spelled_self _), matches_many_one.2 hspace⟩
  · refine matches_alt.2 (.inl (matches_seq.2 ⟨['<', '=', ' '], number, rfl, ?_, ?_⟩))
    · refine matches_seq.2 ⟨['<', '='], [' '], rfl, matches_group.2 ?_, matches_many_one.2 hspace⟩
      exact matches_seq.2 ⟨['<'], ['='], rfl, matches_sym.2 rfl, matches_opt.2 (.inl (matches_sym.2 rfl))⟩
    · exact matches_group.2 (matches_many1_one.2 hnumeral)

end

theorem endsInWord_rownumTest {u w v : Text} (h : Matches rownumTest u w v) (a : Text) : endsInWord (a ++ w) = true := by
  obtain ⟨r, z, rfl, -, -, hz⟩ := exists_of_rownumTest h
  have hne : z ≠ [] := by
    rintro rfl
    cases hz
  rwa [← List.append_assoc, endsInWord_append hne]

/-! ## A limit without other conditions -/

/-- A test of `ROWNUM` without other conditions. -/
def soleTest : Pattern := blanks ++ edge ++ "WHERE" ++ blanks1 ++ rownumTest ++ edge

def soleForm : RownumForm := ⟨soleTest, "", some (textStart ++ blanks ++ oneOf ["AND", "OR"] ++ edge)⟩

/-- A test without other conditions is a test of `ROWNUM` behind a `WHERE`. -/
theorem takes_soleTest {u w v : Text} {g g' : Groups} (h : Takes soleTest u w v g g') :
    ∃ b k b' t, w = b ++ k ++ b' ++ t ∧ (∀ c ∈ b, Unicode.isBlank c = true) ∧ endsInWord (u ++ b) = false ∧
      Spelled "WHERE".toList k ∧ (b' ≠ [] ∧ ∀ c ∈ b', Unicode.isBlank c = true) ∧ beginsInWord v = false ∧
      Takes rownumTest (u ++ b ++ k ++ b') t v g g' := by
  obtain ⟨w, e', g₁, rfl, hw, he'⟩ := h
  obtain ⟨w, t, g₂, rfl, hw, ht⟩ := hw
  obtain ⟨w, b', g₃, rfl, hw, hb'⟩ := hw
  obtain ⟨w, k, g₄, rfl, hw, hk⟩ := hw
  obtain ⟨b, e, g₅, rfl, hb, he⟩ := hw
  obtain ⟨hblank, rfl⟩ := takes_blanks hb
  obtain ⟨⟨rfl, hleft⟩, rfl⟩ := takes_edge he
  obtain ⟨hwhere, rfl⟩ := takes_word hk
  obtain ⟨hblank', rfl⟩ := takes_blanks1 hb'
  obtain ⟨⟨rfl, hright⟩, rfl⟩ := takes_edge he'
  refine ⟨b, k, b', t, by simp, hblank, ?_, hwhere, hblank', ?_, by simpa using ht⟩
  · rw [hwhere.beginsInWord (by decide)] at hleft
    simpa using hleft
  · rw [← List.append_assoc u, endsInWord_rownumTest ⟨_, _, ht⟩] at hright
    simpa using hright

section
variable {front number rest sql : Text}

/-- Where such a test is found: it is the limit, with the white space in front of it or without. -/
theorem Bounded.of_takes_soleTest (h : Bounded front number rest sql) {u w v : Text} {g : Groups}
    (hsplit : mask sql = u ++ (w ++ v)) (hw : Takes soleTest u w v [] g) :
    (u = mask front ∨ u = mask front ++ [' ']) ∧ v = mask rest ∧
      ∃ i j k m, g = [(2, i, j), (1, k, m)] ∧ k.upTo m = ['<', '='] ∧ i.upTo j = number := by
  obtain ⟨b, k, b', t, rfl, hb, hub, hk, hb', hv, ht⟩ := takes_soleTest hw
  obtain ⟨hhead, hrest, hgroups⟩ := h.of_takes (by rw [hsplit]; simp) (endsInWord_blanks hb'.1 hb'.2 _) hv ht
  obtain ⟨hub, -, -⟩ := whereHead_inj hk hb'.2 hub hhead
  refine ⟨?_, hrest, hgroups⟩
  rcases List.append_eq_append_iff.1 hub with ⟨x, hx, rfl⟩ | ⟨x, rfl, hx⟩
  · rcases List.eq_nil_or_concat x with rfl | ⟨x, c, rfl⟩
    · exact .inl (by rw [hx, List.append_nil])
    · exact absurd (hb c (by simp)) (h.last c (by simp [hx]))
  · cases x with
    | nil => exact .inl (List.append_nil _)
    | cons c x =>
      obtain ⟨rfl, hnil⟩ := List.cons.inj hx
      obtain ⟨rfl, -⟩ := List.append_eq_nil_iff.1 hnil.symm
      exact .inr rfl

theorem matches_soleTest (u : Text) (hne : number ≠ []) (hnumber : IsDigits number) {v : Text}
    (hv : beginsInWord v = false) : Matches soleTest u (limitHead ++ number) v := by
  have hspace : ∀ c ∈ [' '], Unicode.isBlank c = true := by decide
  have hhead : limitHead ++ number = whereHead ++ (rownumWord ++ (boundHead ++ number)) := by
    rw [limitHead_eq]
    simp only [List.append_assoc]
  have htest : ∀ u v, Matches rownumTest u (rownumWord ++ (boundHead ++ number)) v := fun u v =>
    matches_rownumTest u v hne hnumber
  rw [hhead]
  refine matches_seq.2 ⟨whereHead ++ (rownumWord ++ (boundHead ++ number)), [], by simp, ?_, matches_edge.2 ⟨rfl, ?_⟩⟩
  · refine matches_seq.2 ⟨whereHead, _, rfl, ?_, htest _ _⟩
    refine matches_seq.2 ⟨[' '] ++ "WHERE".toList, [' '], rfl, ?_, matches_blanks1.2 ⟨by simp, hspace⟩⟩
    refine matches_seq.2 ⟨[' '], "WHERE".toList, rfl, ?_, matches_word.2 (spelled_self _)⟩
    refine matches_seq.2 ⟨[' '], [], rfl, matches_many_one.2 hspace, matches_edge.2 ⟨rfl, ?_⟩⟩
    rw [endsInWord_append (by simp), endsInWord_singleton, beginsInWord_append (by simp)]
    decide
  · rw [← List.append_assoc u, endsInWord_rownumTest (htest [] []), hv]
    decide

/-- The limit is found with the white space in front of it. -/
theorem Bounded.exists_soleMatch (h : Bounded front number rest sql) (hne : number ≠ []) :
    ∃ m ms, soleTest.findAll (mask sql) = m :: ms ∧ m.start = Text.width front ∧
      m.stop = Text.width (front ++ (limitHead ++ number)) ∧ m.last.right = mask rest ∧
      m.group? 1 = some ['<', '='] ∧ m.group? 2 = some number := by
  have hmask : mask sql = mask front ++ (limitHead ++ number ++ mask rest) := by
    rw [h.mask_eq_append, List.append_assoc]
  obtain ⟨g, g', htakes⟩ := matches_soleTest (mask front) hne h.digits h.begins_mask
  obtain ⟨m, hm⟩ := Option.isSome_iff_exists.1 (isSome_matchAt?_iff.2 ⟨_, _, g, g', rfl, htakes⟩)
  -- where the test is found again there is white space in front of it
  obtain ⟨ms, hms⟩ := exists_findAll_cons (consuming_of_framed (by decide)) hm fun u' w v hsplit hw => by
    obtain ⟨g, hw⟩ := hw.takes []
    rcases (h.of_takes_soleTest (hmask.trans hsplit) hw).1 with rfl | rfl
    · exact Nat.le_refl _
    · rw [Text.width_append]
      exact Nat.le_add_right _ _
  obtain ⟨w, v, hsplit, hfirst, hlast, htakes⟩ := matchAt?_eq_some hm
  obtain ⟨-, rfl, i, j, k, l, hgroups, hop, hdigits⟩ := h.of_takes_soleTest (by rw [hmask, hsplit]) htakes
  obtain rfl : limitHead ++ number = w := List.append_cancel_right hsplit
  refine ⟨m, ms, by rw [hmask, hms], ?_, ?_, by rw [hlast]; rfl, ?_, ?_⟩
  · rw [Match.start, hfirst, offset_between, width_mask]
  · rw [Match.stop, hlast, offset_between, Text.width_append, width_mask, ← Text.width_append]
  · simp [Match.group?, hgroups, List.lookup_cons, hop]
  · simp [Match.group?, hgroups, hdigits]

end

/-! ## A limit in front of other conditions -/

def firstTest : Pattern := edge ++ "WHERE" ++ blanks1 ++ rownumTest ++ blanks1 ++ "AND" ++ edge

def firstForm : RownumForm := ⟨firstTest, "WHERE", none⟩

/-- What joins a limit to other conditions. -/
def andTail : Text := " AND"

/-- A test in front of other conditions is a test of `ROWNUM` between a `WHERE` and an `AND`. -/
theorem takes_firstTest {u w v : Text} {g g' : Groups} (h : Takes firstTest u w v g g') :
    ∃ k b t b' a, w = k ++ b ++ t ++ (b' ++ a) ∧ endsInWord u = false ∧ Spelled "WHERE".toList k ∧
      (b ≠ [] ∧ ∀ c ∈ b, Unicode.isBlank c = true) ∧ (b' ≠ [] ∧ ∀ c ∈ b', Unicode.isBlank c = true) ∧
      Spelled "AND".toList a ∧ beginsInWord v = false ∧
      Takes rownumTest (u ++ k ++ b) t (b' ++ (a ++ v)) g g' := by
  obtain ⟨w, e', g₁, rfl, hw, he'⟩ := h
  obtain ⟨w, a, g₂, rfl, hw, ha⟩ := hw
  obtain ⟨w, b', g₃, rfl, hw, hb'⟩ := hw
  obtain ⟨w, t, g₄, rfl, hw, ht⟩ := hw
  obtain ⟨w, b, g₅, rfl, hw, hb⟩ := hw
  obtain ⟨e, k, g₆, rfl, he, hk⟩ := hw
  obtain ⟨⟨rfl, hleft⟩, rfl⟩ := takes_edge he
  obtain ⟨hwhere, rfl⟩ := takes_word hk
  obtain ⟨hblank, rfl⟩ := takes_blanks1 hb
  obtain ⟨hblank', rfl⟩ := takes_blanks1 hb'
  obtain ⟨hand, rfl⟩ := takes_word ha
  obtain ⟨⟨rfl, hright⟩, rfl⟩ := takes_edge he'
  refine ⟨k, b, t, b', a, by simp, ?_, hwhere, hblank, hblank', hand, ?_, by simpa using ht⟩
  · rw [hwhere.beginsInWord (by decide)] at hleft
    simpa using hleft
  · rw [← List.append_assoc u, hand.endsInWord (by decide)] at hright
    simpa using hright

section
variable {front number c sql : Text}

/-- Where such a test is found: it is the limit. -/
theorem Bounded.of_takes_firstTest (h : Bounded front number (andTail ++ c) sql) (hc : beginsInWord c = false)
    {u w v : Text} {g : Groups} (hsplit : mask sql = u ++ (w ++ v)) (hw : Takes firstTest u w v [] g) :
    u = mask front ++ [' '] ∧ v = mask c ∧
      ∃ i j k m, g = [(2, i, j), (1, k, m)] ∧ k.upTo m = ['<', '='] ∧ i.upTo j = number := by
  obtain ⟨k, b, t, b', a, rfl, hu, hk, hb, hb', ha, hv, ht⟩ := takes_firstTest hw
  have hname : isName "AND".toList = true := by decide
  obtain ⟨hhead, hrest, hgroups⟩ := h.of_takes (by rw [hsplit]; simp) (endsInWord_blanks hb.1 hb.2 _)
    (beginsInWord_blanks_append hb' _) ht
  obtain ⟨rfl, -, -⟩ := whereHead_inj hk hb.2 hu hhead
  -- the word behind the limit is that of the test
  have hmask : b' ++ (a ++ v) = [' '] ++ ("AND".toList ++ mask c) := by
    rw [hrest, mask_plain_append (by decide)]
    rfl
  obtain ⟨-, hand⟩ := append_inj_of_all hb'.2 (by decide) (isBlank_of_word ⟨ha.ne_nil hname, ha.isWordChar hname⟩ _)
    (isBlank_of_word (by decide) _) hmask
  obtain ⟨-, rfl⟩ := word_inj (ha.isWordChar hname) (by decide) hv (by rw [beginsInWord_mask, hc]) hand
  exact ⟨rfl, rfl, hgroups⟩

theorem matches_firstTest {u v : Text} (hu : endsInWord u = false) (hne : number ≠ []) (hnumber : IsDigits number)
    (hv : beginsInWord v = false) :
    Matches firstTest u ("WHERE ".toList ++ (rownumWord ++ (boundHead ++ number)) ++ andTail) v := by
  have hspace : [' '] ≠ [] ∧ ∀ c ∈ [' '], Unicode.isBlank c = true := by decide
  refine matches_seq.2 ⟨_, [], (List.append_nil _).symm, ?_, matches_edge.2 ⟨rfl, ?_⟩⟩
  · refine matches_seq.2 ⟨"WHERE ".toList ++ (rownumWord ++ (boundHead ++ number)) ++ [' '], "AND".toList,
      by rw [List.append_assoc _ [' ']]; rfl, ?_, matches_word.2 (spelled_self _)⟩
    refine matches_seq.2 ⟨_, [' '], rfl, ?_, matches_blanks1.2 hspace⟩
    refine matches_seq.2 ⟨"WHERE ".toList, _, rfl, ?_, matches_rownumTest _ _ hne hnumber⟩
    refine matches_seq.2 ⟨"WHERE".toList, [' '], rfl, ?_, matches_blanks1.2 hspace⟩
    refine matches_seq.2 ⟨[], "WHERE".toList, rfl, matches_edge.2 ⟨rfl, ?_⟩, matches_word.2 (spelled_self _)⟩
    rw [hu, beginsInWord_append (by decide)]
    decide
  · rw [← List.append_assoc, endsInWord_append (by decide), hv]
    decide

/-- The limit is found behind one blank. -/
theorem Bounded.exists_firstMatch (h : Bounded front number (andTail ++ c) sql) (hc : beginsInWord c = false)
    (hne : number ≠ []) :
    ∃ m ms, firstTest.findAll (mask sql) = m :: ms ∧ m.start = Text.width (front ++ [' ']) ∧
      m.stop = Text.width (front ++ (limitHead ++ (number ++ andTail))) ∧
      m.group? 1 = some ['<', '='] ∧ m.group? 2 = some number := by
  have hhead : limitHead = [' '] ++ ("WHERE ".toList ++ (rownumWord ++ boundHead)) := by decide
  have hmask : mask sql = mask front ++ [' '] ++
      ("WHERE ".toList ++ (rownumWord ++ (boundHead ++ number)) ++ andTail ++ mask c) := by
    rw [h.mask_eq_append, mask_plain_append (by decide), hhead]
    simp only [List.append_assoc]
  have hend : endsInWord (mask front ++ [' ']) = false := endsInWord_blanks (by simp) (by decide) _
  have hbegin : beginsInWord (mask c) = false := by rw [beginsInWord_mask, hc]
  obtain ⟨g, g', htakes⟩ := matches_firstTest hend hne h.digits hbegin
  obtain ⟨m, hm⟩ := Option.isSome_iff_exists.1 (isSome_matchAt?_iff.2 ⟨_, _, g, g', rfl, htakes⟩)
  obtain ⟨ms, hms⟩ := exists_findAll_cons (consuming_of_framed (by decide)) hm fun u' w v hsplit hw => by
    obtain ⟨g, hw⟩ := hw.takes []
    rw [(h.of_takes_firstTest hc (hmask.trans hsplit) hw).1]
  obtain ⟨w, v, hsplit, hfirst, hlast, htakes⟩ := matchAt?_eq_some hm
  obtain ⟨-, rfl, i, j, k, l, hgroups, hop, hdigits⟩ := h.of_takes_firstTest hc (by rw [hmask, hsplit]) htakes
  have hw := List.append_cancel_right hsplit
  refine ⟨m, ms, by rw [hmask, hms], ?_, ?_, ?_, ?_⟩
  · rw [Match.start, hfirst, offset_between, Text.width_append, width_mask, ← Text.width_append]
  · have hwhole : front ++ (limitHead ++ (number ++ andTail)) = front ++ ([' '] ++ w) := by
      rw [← hw, hhead]
      simp only [List.append_assoc]
    rw [Match.stop, hlast, offset_between, hwhole, List.append_assoc, Text.width_append (mask front), width_mask,
      ← Text.width_append]
  · simp [Match.group?, hgroups, List.lookup_cons, hop]
  · simp [Match.group?, hgroups, hdigits]

end

end ToTsql
end DialectBridge
