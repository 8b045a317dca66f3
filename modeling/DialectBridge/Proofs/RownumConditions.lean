import DialectBridge.Proofs.Phrases
import DialectBridge.Proofs.RownumBounds
import DialectBridge.Proofs.Scopes
/-!
# Which tests of `ROWNUM` are conditions

A step that takes a test of `ROWNUM` out of a query puts a `TOP` into a heading that stands outside of all the
parentheses of the block around the test (`exists_takesTest`). Whether the test was a condition of that block is
another matter: one between a `WHERE` and an `AND` always is, one alone behind a `WHERE` must end where its number
does, and one behind an `AND` must stand among the conditions besides (`rownumStep_condition_iff`).
-/
namespace DialectBridge
open Pattern Cursor LexState

/-! ## What a place hides -/

namespace LexState

/-- The characters that can be hidden for what follows them, and the blank that stands for them. -/
def marks : List Char := [' ', '-', '/', '\'', '"']

theorem marks_ordinary : ∀ c ∈ marks, Unicode.isWordChar c = false ∧ c ≠ '(' ∧ c ≠ ')' := by decide

/-- Two texts that are the same up to a mark at the end. -/
def Akin (z z' : Text) : Prop :=
  z = z' ∨ ∃ t c c', z = t ++ [c] ∧ z' = t ++ [c'] ∧ c ∈ marks ∧ c' ∈ marks

section
variable {a b b' x y z z' : Text} {d k : Nat} {c : Char}

theorem Akin.symm (h : Akin z z') : Akin z' z := by
  rcases h with rfl | ⟨t, c, c', hz, hz', hc, hc'⟩
  · exact .inl rfl
  · exact .inr ⟨t, c', c, hz', hz, hc', hc⟩

theorem Akin.behind (h : Akin z z') (x : Text) : Akin (x ++ z) (x ++ z') := by
  rcases h with rfl | ⟨t, c, c', rfl, rfl, hc, hc'⟩
  · exact .inl rfl
  · exact .inr ⟨x ++ t, c, c', by simp, by simp, hc, hc'⟩

/-- Texts that are akin begin the same up to any character that is no mark. -/
theorem Akin.exists_behind (h : Akin (x ++ y) z') (hx : ∀ c ∈ x.getLast?, c ∉ marks) :
    ∃ y', z' = x ++ y' ∧ Akin y y' := by
  rcases h with rfl | ⟨t, c, c', hxy, rfl, hc, hc'⟩
  · exact ⟨y, rfl, .inl rfl⟩
  rcases List.eq_nil_or_concat y with rfl | ⟨y, e, rfl⟩
  · rw [List.append_nil] at hxy
    exact absurd hc (hx c (by simp [hxy]))
  · rw [List.concat_eq_append, ← List.append_assoc] at hxy
    obtain ⟨rfl, hce⟩ := List.append_inj' hxy rfl
    obtain rfl : e = c := by simpa using hce
    exact ⟨y ++ [c'], by simp, .inr ⟨y, e, c', by simp, rfl, hc, hc'⟩⟩

theorem Akin.beginsInWord (h : Akin y z) : beginsInWord z = beginsInWord y := by
  rcases h with rfl | ⟨t, c, c', rfl, rfl, hc, hc'⟩
  · rfl
  cases t with
  | nil =>
    rw [List.nil_append, List.nil_append, beginsInWord_cons, beginsInWord_cons, (marks_ordinary c hc).1,
      (marks_ordinary c' hc').1]
  | cons e t => rfl

theorem nest_concat (ho : c ≠ '(') (hc : c ≠ ')') (d : Nat) (t : Text) : nest d (t ++ [c]) = nest d t := by
  have hone : ∀ k, nest k [c] = some k := nest_of_not_mem (by simpa using ho.symm) (by simpa using hc.symm)
  rw [nest_append]
  cases nest d t with
  | none => rfl
  | some k => rw [Option.bind_some, hone]

theorem Akin.nest_eq (h : Akin z z') (d : Nat) : nest d z' = nest d z := by
  rcases h with rfl | ⟨t, c, c', rfl, rfl, hc, hc'⟩
  · rfl
  · obtain ⟨-, ho, hcl⟩ := marks_ordinary c hc
    obtain ⟨-, ho', hcl'⟩ := marks_ordinary c' hc'
    rw [nest_concat ho hcl, nest_concat ho' hcl']

/-- A character that is shown or hidden for what follows it is a mark. -/
theorem mem_marks_of_hides_ne {s : LexState} (h : s.hides c b ≠ s.hides c b') : c ∈ marks := by
  by_contra hmem
  simp only [marks, List.mem_cons, List.not_mem_nil, or_false, not_or] at hmem
  obtain ⟨-, hminus, hslash, hsingle, hdouble⟩ := hmem
  have hcomment : ∀ t, beginsComment c t = false := fun t => by
    rw [beginsComment, beq_false_of_ne hminus, beq_false_of_ne hslash]
    rfl
  have hquote : ∀ q : Quote, c ≠ q.char := by
    rintro (_ | _)
    · exact hsingle
    · exact hdouble
  refine h ?_
  cases s with
  | code | minus | slash => rw [hides, hides, hcomment, hcomment]
  | quoted q => rw [hides, hides, bne_iff_ne.2 (hquote q), Bool.true_or, Bool.true_or]
  | closed q => rw [hides, hides, if_neg (hquote q), if_neg (hquote q), hcomment, hcomment]
  | line | block | star => rfl

/-- The mask of a text in front of two others. -/
theorem exists_maskFrom_akin (s : LexState) (a b b' : Text) : ∃ z z', Akin z z' ∧
    Text.width z = Text.width a ∧ Text.width z' = Text.width a ∧
    maskFrom s (a ++ b) = z ++ maskFrom (s.after a) b ∧ maskFrom s (a ++ b') = z' ++ maskFrom (s.after a) b' := by
  have hwidth : ∀ (s : LexState) (c : Char) (b : Text), Text.width (s.glance c b) = c.utf8Size := by
    intro s c b
    rw [glance]
    split_ifs
    · exact Text.width_spaces _
    · rfl
  induction a generalizing s with
  | nil => exact ⟨[], [], .inl rfl, rfl, rfl, rfl, rfl⟩
  | cons c a ih =>
    obtain ⟨z, z', hakin, hz, hz', hmask, hmask'⟩ := ih (s.step c)
    refine ⟨s.glance c (a ++ b) ++ z, s.glance c (a ++ b') ++ z', ?_, ?_, ?_, ?_, ?_⟩
    · by_cases hides : s.hides c (a ++ b) = s.hides c (a ++ b')
      · rw [glance, glance, hides]
        exact hakin.behind _
      · -- only the last character is seen together with what follows
        obtain rfl : a = [] := by
          by_contra hne
          obtain ⟨e, a, rfl⟩ := List.exists_cons_of_ne_nil hne
          exact hides (by cases s <;> simp [LexState.hides, beginsComment])
        obtain rfl : z = [] := by
          by_contra hne
          exact absurd (Text.width_pos hne) (by rw [hz]; simp)
        obtain rfl : z' = [] := by
          by_contra hne
          exact absurd (Text.width_pos hne) (by rw [hz']; simp)
        have hc := mem_marks_of_hides_ne hides
        have hglance : ∀ b, ∃ e ∈ marks, s.glance c b = [e] := by
          intro b
          rw [glance]
          split_ifs
          · have hsize : ∀ c ∈ marks, Text.spaces c.utf8Size = [' '] := by decide
            exact ⟨' ', by decide, hsize c hc⟩
          · exact ⟨c, hc, rfl⟩
        obtain ⟨e, he, heq⟩ := hglance ([] ++ b)
        obtain ⟨e', he', heq'⟩ := hglance ([] ++ b')
        rw [heq, heq']
        exact .inr ⟨[], e, e', rfl, rfl, he, he'⟩
    · rw [Text.width_append, hwidth, hz, Text.width_cons]
    · rw [Text.width_append, hwidth, hz', Text.width_cons]
    · rw [List.cons_append, maskFrom_cons, hmask, List.append_assoc, after_cons]
    · rw [List.cons_append, maskFrom_cons, hmask', List.append_assoc, after_cons]

end

end LexState

namespace ToTsql

variable {sql out : Text} {u v w : Text} {n place pos : Nat}

/-! ## Where the `TOP` goes -/

/-- What a pattern takes opens and closes nothing if it takes no parentheses. -/
theorem nest_of_matches {p : Pattern} (hp : ∀ s ∈ p.charSets, s.contains '(' = false ∧ s.contains ')' = false)
    (h : Matches p u w v) (d : Nat) : nest d w = some d := by
  obtain ⟨g, g', htakes⟩ := h
  have hchars : ∀ c ∈ w, c ≠ '(' ∧ c ≠ ')' := by
    refine htakes.forall_mem (P := fun c => c ≠ '(' ∧ c ≠ ')') fun s hs c hc => ?_
    constructor
    · rintro rfl
      rw [(hp s hs).1] at hc
      cases hc
    · rintro rfl
      rw [(hp s hs).2] at hc
      cases hc
  exact nest_of_not_mem (fun h => (hchars _ h).1 rfl) (fun h => (hchars _ h).2 rfl) d

theorem exists_of_insertTop? (h : insertTop? sql pos n = some (some out)) : ∃ place,
    enclosingSelect? (mask sql) pos = some (some place) ∧ Text.insert? sql place (topText n) = some out := by
  simp only [insertTop?, Option.bind_eq_bind, Option.bind_eq_some_iff] at h
  obtain ⟨place, hplace, h⟩ := h
  cases place with
  | none => cases h
  | some place =>
    obtain ⟨after, -, h⟩ := Option.bind_eq_some_iff.1 h
    refine ⟨place, hplace, ?_⟩
    split_ifs at h
    · cases h
    · obtain ⟨out', hinsert, heq⟩ := Option.bind_eq_some_iff.1 h
      obtain rfl : out' = out := by simpa using heq
      exact hinsert

/-- The heading of the block around a place stands outside of the parentheses of the block. -/
theorem exists_heading {p s r : Text} (hstart : scopeStart (p ++ s ++ r) (Text.width (p ++ s)) = Text.width p)
    (h : enclosingSelect? (p ++ s ++ r) (Text.width (p ++ s)) = some (some place)) :
    ∃ x head y, s = x ++ (head ++ y) ∧ depth x = 0 ∧ Matches Paren.selectHead x head y ∧
      place = Text.width (p ++ x ++ head) := by
  rw [enclosingSelect?, hstart, Text.width_append, depthZeroMatches?_append] at h
  simp only [Option.bind_eq_bind, Option.bind_some, Option.pure_def, Option.some.injEq, List.getLast?_map,
    Option.map_eq_some_iff] at h
  obtain ⟨_, ⟨m, hm, rfl⟩, rfl⟩ := h
  obtain ⟨x, head, y, rfl, hdepth, hhead, -, hstop⟩ := mem_zeroMatches (List.mem_of_getLast? hm)
  refine ⟨x, head, y, rfl, hdepth, hhead, ?_⟩
  rw [hstop, Text.width_append, Text.width_append, Nat.add_assoc]

/-! ## The test and its block -/

/-- What a step does that takes a test of `ROWNUM` out of a query. In the mask of the query `front` stands between a
heading and the test, outside of all parentheses of the block, and `rest` between the test and the end of the block;
the `TOP` is put in front of `front`. -/
structure TakesTest (form : RownumForm) (sql out before front test rest behind : Text) : Prop where
  mask_eq : mask sql = before ++ front ++ test ++ rest ++ behind
  behind_heading : ∃ x head, before = x ++ head ∧ Matches Paren.selectHead x head (front ++ test ++ rest ++ behind)
  is_test : Matches rownumTest (before ++ front) test (rest ++ behind)
  nested : nest 0 front = some 0
  block : scope 0 (test ++ rest ++ behind) = test ++ rest
  moved : ∃ m ∈ form.pattern.findAll (mask sql), ∃ a b w c n, rownumLimit? m = some n ∧ sql = a ++ b ++ w ++ c ∧
    Text.width a = Text.width before ∧ m.start = Text.width (a ++ b) ∧ m.stop = Text.width (a ++ b ++ w) ∧
    m.start ≤ Text.width (before ++ front) ∧ Text.width (before ++ front ++ test) ≤ m.stop ∧
    out = a ++ topText n ++ b ++ form.kept.toList ++ c

theorem nest_rownumTest (h : Matches rownumTest u w v) (d : Nat) : nest d w = some d :=
  nest_of_matches (by decide +kernel) h d

theorem nest_selectHead (h : Matches Paren.selectHead u w v) (d : Nat) : nest d w = some d :=
  nest_of_matches (by decide +kernel) h d

theorem endsInWord_selectHead (h : Matches Paren.selectHead u w v) : endsInWord w = true := by
  obtain ⟨y, s, rfl, hs, -, -⟩ := exists_headWord h
  obtain ⟨t, ht, hspelled⟩ := hs.exists_name
  exact hspelled.endsInWord ht y

/-- A heading takes what it takes in any text around it in which no word goes on there. -/
theorem matches_selectHead_of_append {x y p z : Text} (h : Matches Paren.selectHead x w y)
    (hp : endsInWord p = false) (hz : beginsInWord z = false) : Matches Paren.selectHead (p ++ x) w z := by
  obtain ⟨-, -, -, -, -, hy⟩ := exists_headWord h
  have hedges : AsksForEdges Paren.selectHead := show ∀ a ∈ Paren.selectHead.checks, _ by decide +kernel
  refine h.congr_edges hedges ?_ (hz.trans hy.symm)
  by_cases hx : x = []
  · rw [hx, List.append_nil, hp, endsInWord_nil]
  · exact endsInWord_append hx p

/-- The heading that is found in front of a place stands outside of the parentheses of the block around the place, and it
stands there in any text that is akin. -/
theorem exists_heading_akin {p s z r : Text} (hp : ∀ c ∈ p.getLast?, c = '(') (hs : nest 0 s = some 0)
    (hakin : Akin (p ++ s) z) (hplace : enclosingSelect? (z ++ r) (Text.width z) = some (some place)) :
    ∃ x head y, s = x ++ head ++ y ∧ head ≠ [] ∧ endsInWord head = true ∧ nest 0 y = some 0 ∧
      (y = [] ∨ beginsInWord y = false) ∧ (∀ b, beginsInWord b = false → Matches Paren.selectHead (p ++ x) head b) ∧
      place = Text.width (p ++ x ++ head) := by
  obtain ⟨s', rfl, hblock⟩ := hakin.exists_behind fun d hd => by rw [hp d hd]; decide
  have hscope := scopeStart_of_begins hp ((hblock.nest_eq 0).trans hs) r
  obtain ⟨x, head, y', rfl, hdepth, hhead, rfl⟩ := exists_heading hscope hplace
  have hend := endsInWord_selectHead hhead
  have hne : head ≠ [] := by
    rintro rfl
    cases hend
  rw [← List.append_assoc] at hblock
  obtain ⟨y, rfl, hy⟩ := hblock.symm.exists_behind fun d hd hmark => by
    rw [List.getLast?_append_of_ne_nil _ hne] at hd
    obtain ⟨t, rfl⟩ := List.getLast?_eq_some_iff.1 hd
    rw [endsInWord_append (by simp), endsInWord_singleton, (marks_ordinary d hmark).1] at hend
    cases hend
  refine ⟨x, head, y, rfl, hne, hend, ?_, ?_, fun b hb => ?_, rfl⟩
  · -- nothing is open at the heading, and so nothing behind it
    obtain ⟨j, hj, hxy⟩ := Option.bind_eq_some_iff.1 ((nest_append 0 (x ++ head) y).symm.trans hs)
    obtain ⟨i, hi, hij⟩ := Option.bind_eq_some_iff.1 ((nest_append 0 x head).symm.trans hj)
    obtain rfl : i = 0 := by
      have := (nest_eq_some hi).1
      omega
    rw [nest_selectHead hhead] at hij
    rwa [← Option.some.inj hij] at hxy
  · obtain ⟨-, -, -, -, -, hy'⟩ := exists_headWord hhead
    exact .inr (hy.beginsInWord.trans hy')
  · refine matches_selectHead_of_append hhead ?_ hb
    rcases List.eq_nil_or_concat p with rfl | ⟨p, d, rfl⟩
    · rfl
    · rw [List.concat_eq_append] at hp ⊢
      rw [endsInWord_append (by simp), hp d (by simp)]
      decide

/-- What is put in no further than `a` cuts `a`. -/
theorem exists_of_insert? {a b r : Text} {i : Nat} (h : Text.insert? (a ++ b) i r = some out) (hi : i ≤ Text.width a) :
    ∃ x y, a = x ++ y ∧ Text.width x = i ∧ out = x ++ (r ++ (y ++ b)) := by
  obtain ⟨⟨x, z, hsplit, rfl⟩, -, -⟩ := Text.isBoundary_of_splice? h
  obtain ⟨y, rfl, rfl⟩ := Text.exists_of_width_le hsplit.symm hi
  rw [hsplit, Text.insert?_append] at h
  exact ⟨x, y, rfl, rfl, (Option.some.inj h).symm⟩

/-- A test that is moved stands in the block whose heading gets the `TOP`. -/
theorem exists_takesTest {form : RownumForm} {m : Match} {a w' c l t k : Text} (hnested : WellNested (mask sql))
    (hm : m ∈ form.pattern.findAll (mask sql)) (hmask : mask sql = u ++ (l ++ (t ++ k) ++ v))
    (hu : Apart u (l ++ (t ++ k) ++ v)) (ht : Matches rownumTest (u ++ l) t (k ++ v)) (hl : ∀ d, nest d l = some d)
    (hmstart : m.start = Text.width u) (hmstop : m.stop = Text.width (u ++ (l ++ (t ++ k))))
    (hsql : sql = a ++ w' ++ c) (hstart : m.start = Text.width a) (hstop : m.stop = Text.width (a ++ w'))
    (hlimit : rownumLimit? m = some n) (hinsert : insertTop? (a ++ form.kept.toList ++ c) (Text.width a) n = some (some out)) :
    ∃ before y behind, u = before ++ y ∧ nest 0 y = some 0 ∧
      TakesTest form sql out before (y ++ l) t (scope 0 (k ++ v)) behind := by
  -- the text in front of the test is masked in the same way before the step and behind it
  obtain ⟨z, z', hakin, hz, hz', hbefore, hafter⟩ :=
    exists_maskFrom_akin code a (w' ++ c) (form.kept.toList ++ c)
  rw [maskFrom_code, ← List.append_assoc] at hbefore hafter
  obtain ⟨rfl, -⟩ := Text.append_inj_of_width (hmask.symm.trans ((congrArg mask hsql).trans hbefore))
    (by rw [hz, ← hstart, hmstart])
  -- so the heading stands in front of it in both
  obtain ⟨p, s, rfl, -, hp, hs⟩ := (hmask ▸ hnested).scopeStart_spec
  obtain ⟨place, hplace, hput⟩ := exists_of_insertTop? hinsert
  rw [hafter, ← hz'] at hplace
  obtain ⟨x, head, y, rfl, hne, hend, hy, hybegin, hhead, rfl⟩ := exists_heading_akin hp hs hakin hplace
  have hbegin : beginsInWord (y ++ (l ++ (t ++ k) ++ v)) = false := by
    by_cases hnil : y = []
    · subst hnil
      refine hu ?_
      rwa [List.append_nil, ← List.append_assoc, endsInWord_append hne]
    · rw [beginsInWord_append hnil]
      exact hybegin.resolve_left hnil
  obtain ⟨behind, hrest, -⟩ := scope_spec 0 (k ++ v)
  refine ⟨p ++ x ++ head, y, behind, by simp, hy, ?_, ⟨p ++ x, head, rfl, hhead _ ?_⟩, ?_, ?_, ?_, ?_⟩
  · rw [hmask]
    simp only [List.append_assoc]
    rw [← hrest]
  · simp only [List.append_assoc] at hbegin ⊢
    rwa [← hrest]
  · rw [← hrest]
    simpa only [List.append_assoc] using ht
  · rw [nest_append, hy, Option.bind_some, hl]
  · rw [List.append_assoc, ← hrest, scope_append_of_nest (nest_rownumTest ht 0)]
  · have hle : Text.width (p ++ x ++ head) ≤ Text.width a := by
      rw [← hz]
      simp only [Text.width_append]
      omega
    rw [List.append_assoc a] at hput
    obtain ⟨a, b, rfl, ha, rfl⟩ := exists_of_insert? hput hle
    refine ⟨m, hm, a, b, w', c, n, hlimit, hsql, ha, hstart, hstop, ?_, ?_, by simp⟩
    · rw [hmstart]
      simp only [Text.width_append]
      omega
    · rw [hmstop]
      simp only [Text.width_append]
      omega

/-! ## Conditions -/

/-- Whether a text that begins behind the heading of a block ends among the conditions of the block: behind a `WHERE`
outside of its parentheses, and in front of the clauses that follow it. -/
def AmongConditions (clause : Pattern) (front : Text) : Prop :=
  ∃ x k y, front = x ++ (k ++ y) ∧ Spelled "WHERE".toList k ∧ endsInWord x = false ∧ beginsInWord y = false ∧
    nest 0 x = some 0 ∧ zeroMatches clause y = []

/-- What may follow a condition: another one, a later clause, a semicolon or the end of the block. -/
def conditionEnd (clause : Pattern) : Pattern := textStart ++ blanks ++ oneOf [keyword "AND", clause, sym ';', textEnd]

/-- Whether no statement ends in a text, outside of its parentheses. -/
def OneStatement (front : Text) : Prop := zeroMatches (sym ';') front = []

/-- Whether a test is a condition of its own in the block that it stands in, between `front` and `rest`. -/
structure IsCondition (clause : Pattern) (front rest : Text) : Prop where
  statement : OneStatement front
  among : AmongConditions clause front
  complete : (conditionEnd clause).occursIn rest = true

theorem isCondition_iff {clause : Pattern} {front rest : Text} : IsCondition clause front rest ↔
    OneStatement front ∧ AmongConditions clause front ∧ (conditionEnd clause).occursIn rest = true :=
  ⟨fun h => ⟨h.statement, h.among, h.complete⟩, fun ⟨hs, ha, hc⟩ => ⟨hs, ha, hc⟩⟩

/-- A test of `ROWNUM` behind other conditions. -/
def joinedTest : Pattern := blanks1 ++ "AND" ++ blanks1 ++ rownumTest ++ edge

def joinedForm : RownumForm := ⟨joinedTest, "", none⟩

theorem rownumForms_eq : rownumForms = [firstForm, joinedForm, soleForm] := rfl

/-- A test behind other conditions is a test of `ROWNUM` behind an `AND`. -/
theorem takes_joinedTest {g g' : Groups} (h : Takes joinedTest u w v g g') :
    ∃ l t, w = l ++ t ∧ (∀ c ∈ l, Unicode.isWordChar c = true ∨ Unicode.isBlank c = true) ∧
      Takes rownumTest (u ++ l) t v g g' := by
  obtain ⟨w, e, g₁, rfl, hw, he⟩ := h
  obtain ⟨w, t, g₂, rfl, hw, ht⟩ := hw
  obtain ⟨w, b', g₃, rfl, hw, hb'⟩ := hw
  obtain ⟨b, a, g₄, rfl, hb, ha⟩ := hw
  obtain ⟨hblank, rfl⟩ := takes_blanks1 hb
  obtain ⟨hand, rfl⟩ := takes_word ha
  obtain ⟨hblank', rfl⟩ := takes_blanks1 hb'
  obtain ⟨⟨rfl, -⟩, rfl⟩ := takes_edge he
  refine ⟨b ++ a ++ b', t, by simp, fun c hc => ?_, by simpa using ht⟩
  rcases List.mem_append.1 hc with hc | hc
  · rcases List.mem_append.1 hc with hc | hc
    · exact .inr (hblank.2 c hc)
    · exact .inl (hand.isWordChar (by decide) c hc)
  · exact .inr (hblank'.2 c hc)

variable {clause : Pattern}

/-- Behind a `WHERE` and white space the conditions begin. -/
theorem amongConditions_where (hclause : TakesPhrases clause) {x k b : Text} (hx : endsInWord x = false)
    (hnest : nest 0 x = some 0) (hk : Spelled "WHERE".toList k) (hb : b ≠ [] ∧ ∀ c ∈ b, Unicode.isBlank c = true) :
    AmongConditions clause (x ++ (k ++ b)) := by
  have hnone : clause.findAll b = [] := findAll_eq_nil fun u w v hsplit hw => by
    obtain ⟨hbegins, -⟩ := hclause.takes u w v hw
    obtain ⟨c, w, rfl⟩ := List.exists_cons_of_ne_nil (ne_nil_of_beginsInWord hbegins)
    rw [beginsInWord_cons, isWordChar_of_isBlank (hb.2 c (by rw [hsplit]; simp))] at hbegins
    cases hbegins
  refine ⟨x, k, b, rfl, hk, hx, ?_, hnest, by rw [zeroMatches, hnone]; rfl⟩
  obtain ⟨c, b, rfl⟩ := List.exists_cons_of_ne_nil hb.1
  exact isWordChar_of_isBlank (hb.2 c (by simp))

theorem beginsInWord_scope {v : Text} (h : beginsInWord v = false) : beginsInWord (scope 0 v) = false := by
  obtain ⟨rest, hsplit, -⟩ := scope_spec 0 v
  by_cases hnil : scope 0 v = []
  · rw [hnil, beginsInWord_nil]
  · rwa [hsplit, beginsInWord_append hnil] at h

/-- A condition may be followed by an `AND`. -/
theorem occursIn_conditionEnd {b a v : Text} (hb : b ≠ [] ∧ ∀ c ∈ b, Unicode.isBlank c = true)
    (ha : Spelled "AND".toList a) (hv : beginsInWord v = false) :
    (conditionEnd clause).occursIn (scope 0 (b ++ a ++ v)) = true := by
  have hnest : nest 0 (b ++ a) = some 0 := nest_of_isWordChar_or_isBlank (fun c hc => by
    rcases List.mem_append.1 hc with hc | hc
    · exact .inr (hb.2 c hc)
    · exact .inl (ha.isWordChar (by decide) c hc)) 0
  rw [scope_append_of_nest hnest]
  refine occursIn_of_matches (u := []) (matches_seq.2 ⟨b, a, rfl, ?_, ?_⟩)
  · exact matches_seq.2 ⟨[], b, rfl, matches_textStart.2 ⟨rfl, rfl⟩, matches_many_one.2 hb.2⟩
  · refine matches_oneOf.2 ⟨_, List.mem_cons_self, (matches_keyword (by decide)).2 ⟨ha, ?_, beginsInWord_scope hv⟩⟩
    exact endsInWord_blanks hb.1 hb.2 _

/-- If no word ends behind two texts, none ends behind the second. -/
theorem endsInWord_of_append {x y : Text} (h : endsInWord (x ++ y) = false) : endsInWord y = false := by
  by_cases hy : y = []
  · rw [hy, endsInWord_nil]
  · rwa [endsInWord_append hy] at h

/-- What of a match is the test, and what makes it a condition of the block. -/
theorem exists_testParts (hclause : TakesPhrases clause) {form : RownumForm} {g : Groups} (hform : form ∈ rownumForms)
    (h : Takes form.pattern u w v [] g) : ∃ l t k, w = l ++ (t ++ k) ∧ Matches rownumTest (u ++ l) t (k ++ v) ∧
      (∀ d, nest d l = some d) ∧ ∀ x y, u = x ++ y → nest 0 y = some 0 →
        (AmongConditions clause (y ++ l) ∧ (conditionEnd clause).occursIn (scope 0 (k ++ v)) = true ↔
          form = firstForm ∨ (conditionEnd clause).occursIn (scope 0 (k ++ v)) = true ∧
            (form = soleForm ∨ AmongConditions clause (y ++ l))) := by
  rw [rownumForms_eq] at hform
  simp only [List.mem_cons, List.not_mem_nil, or_false] at hform
  rcases hform with rfl | rfl | rfl
  · obtain ⟨k, b, t, b', a, rfl, hu, hk, hb, hb', ha, hv, ht⟩ := takes_firstTest h
    refine ⟨k ++ b, t, b' ++ a, by simp, ⟨_, _, by simpa using ht⟩, fun d => ?_, fun x y hxy hy => ?_⟩
    · refine nest_of_isWordChar_or_isBlank (fun c hc => ?_) d
      exact (List.mem_append.1 hc).imp (hk.isWordChar (by decide) c) (hb.2 c)
    · have hy' : endsInWord y = false := endsInWord_of_append (hxy ▸ hu)
      exact iff_of_true ⟨amongConditions_where hclause hy' hy hk hb, occursIn_conditionEnd hb' ha hv⟩ (.inl rfl)
  · obtain ⟨l, t, rfl, hl, ht⟩ := takes_joinedTest h
    refine ⟨l, t, [], by simp, ⟨_, _, by simpa using ht⟩, nest_of_isWordChar_or_isBlank hl, fun x y hxy hy => ?_⟩
    have hfirst : joinedForm ≠ firstForm := fun h => absurd (congrArg RownumForm.kept h) (by decide)
    have hsole : joinedForm ≠ soleForm := fun h => absurd (congrArg (fun f => f.stop.isSome) h) (by decide)
    simp only [hfirst, hsole, false_or]
    exact and_comm
  · obtain ⟨b, k, b', t, rfl, hb, hub, hk, hb', hv, ht⟩ := takes_soleTest h
    refine ⟨b ++ k ++ b', t, [], by simp, ⟨_, _, by simpa using ht⟩, fun d => ?_, fun x y hxy hy => ?_⟩
    · refine nest_of_isWordChar_or_isBlank (fun c hc => ?_) d
      rcases List.mem_append.1 hc with hc | hc
      · exact (List.mem_append.1 hc).symm.imp (hk.isWordChar (by decide) c) (hb c)
      · exact .inr (hb'.2 c hc)
    · have hamong : AmongConditions clause (y ++ (b ++ k ++ b')) := by
        have hnest : nest 0 (y ++ b) = some 0 := by
          rw [nest_append, hy, Option.bind_some]
          exact nest_of_isWordChar_or_isBlank (fun c hc => .inr (hb c hc)) 0
        have hyb : endsInWord (y ++ b) = false :=
          endsInWord_of_append (show endsInWord (x ++ (y ++ b)) = false by rwa [← List.append_assoc, ← hxy])
        simpa only [List.append_assoc] using amongConditions_where hclause hyb hnest hk hb'
      have hfirst : soleForm ≠ firstForm := fun h => absurd (congrArg RownumForm.kept h) (by decide)
      simp only [hfirst, hamong, false_or, true_and, true_or, and_true]

/-- A step takes a test out of the block whose heading it gives the `TOP`. The test is a condition of its own among those
of the block just if no statement ends between the two, and the test stands between a `WHERE` and an `AND`, or what follows
its number may follow a condition and the test stands behind a `WHERE` or else among the conditions. -/
theorem rownumStep_condition_iff {raised raised' : List Warning} (hclause : TakesPhrases clause)
    (hnested : WellNested (mask sql)) (h : (rownumStep sql).run raised = some (some out, raised')) :
    ∃ form ∈ rownumForms, ∃ before front test rest behind, TakesTest form sql out before front test rest behind ∧
      (IsCondition clause front rest ↔ OneStatement front ∧ (form = firstForm ∨
        (conditionEnd clause).occursIn rest = true ∧ (form = soleForm ∨ AmongConditions clause front))) := by
  have hyields : Yields (rownumStep sql) fun r => ∀ out ∈ r, ∃ form ∈ rownumForms, ∃ before front test rest behind,
      TakesTest form sql out before front test rest behind ∧
        (IsCondition clause front rest ↔ OneStatement front ∧ (form = firstForm ∨
          (conditionEnd clause).occursIn rest = true ∧ (form = soleForm ∨ AmongConditions clause front))) := by
    refine yields_findSomeM? fun form hform => yields_findSomeM? fun m hm => ?_
    obtain ⟨r, hr, hout⟩ := exists_moveRownum hform hm
    refine ⟨r, hr, fun out hr => ?_⟩
    obtain ⟨a, w', c, n, hsql, hstart, hstop, hlimit, -, hinsert⟩ := hout out hr
    obtain ⟨u, x, hmask, hat⟩ := exists_of_mem_findAll hm
    obtain ⟨w, v, rfl, hfirst, hlast, htakes⟩ := matchAt?_eq_some hat
    obtain ⟨l, t, k, rfl, ht, hl, hiff⟩ := exists_testParts hclause hform htakes
    have hapart : Apart u (l ++ (t ++ k) ++ v) := by
      rcases (exists_of_rownumForm hform ⟨_, _, htakes⟩).1 with hu | ⟨hw, -⟩
      · exact .of_ends hu _
      · have hne := consuming_of_framed (framed_of_mem_rownumForms form hform) _ _ _ ⟨_, _, htakes⟩
        exact .of_begins (by rwa [beginsInWord_append hne]) u
    obtain ⟨before, y, behind, hu, hy, htaken⟩ := exists_takesTest hnested hm hmask hapart ht hl
      (by rw [Match.start, hfirst, offset_between]) (by rw [Match.stop, hlast, offset_between]) hsql hstart hstop hlimit
      hinsert
    exact ⟨form, hform, before, y ++ l, t, _, behind, htaken,
      isCondition_iff.trans (and_congr_right fun _ => hiff before y hu hy)⟩
  obtain ⟨r, hgives, hr⟩ := hyields
  obtain ⟨raised'', hrun⟩ := hgives raised
  rw [h] at hrun
  exact hr out (by rw [← (Prod.mk.inj (Option.some.inj hrun)).1]; rfl)

theorem rownumStep_condition_iff_ordered :
    WellNested (mask "SELECT a FROM t WHERE b = 1 AND ROWNUM <= 5 ORDER BY a".toList) ∧
      (rownumStep "SELECT a FROM t WHERE b = 1 AND ROWNUM <= 5 ORDER BY a".toList).run [] =
        some (some "SELECT TOP 5 a FROM t WHERE b = 1 ORDER BY a".toList, []) ∧
      ∃ form ∈ rownumForms, ∃ before front test rest behind,
        TakesTest form "SELECT a FROM t WHERE b = 1 AND ROWNUM <= 5 ORDER BY a".toList
          "SELECT TOP 5 a FROM t WHERE b = 1 ORDER BY a".toList before front test rest behind ∧
        (IsCondition ToOracle.afterWhere front rest ↔ OneStatement front ∧ (form = firstForm ∨
          (conditionEnd ToOracle.afterWhere).occursIn rest = true ∧
            (form = soleForm ∨ AmongConditions ToOracle.afterWhere front))) :=
  have hnested : WellNested (mask "SELECT a FROM t WHERE b = 1 AND ROWNUM <= 5 ORDER BY a".toList) := by
    rw [String.toList_ofList]
    decide +kernel
  have hrun : (rownumStep "SELECT a FROM t WHERE b = 1 AND ROWNUM <= 5 ORDER BY a".toList).run [] =
      some (some "SELECT TOP 5 a FROM t WHERE b = 1 ORDER BY a".toList, []) := by
    repeat rewrite [String.toList_ofList]
    decide +kernel
  ⟨hnested, hrun, rownumStep_condition_iff takesPhrases_afterWhere hnested hrun⟩

/-- A test in a list of columns is taken as well: no word `WHERE` stands in the query. -/
theorem rownumStep_case :
    WellNested (mask "SELECT CASE WHEN a = 1 AND ROWNUM = 1 THEN 2 END FROM t".toList) ∧
      (rownumStep "SELECT CASE WHEN a = 1 AND ROWNUM = 1 THEN 2 END FROM t".toList).run [] =
        some (some "SELECT TOP 1 CASE WHEN a = 1 THEN 2 END FROM t".toList, []) ∧
      ∀ clause form before front test rest behind,
        TakesTest form "SELECT CASE WHEN a = 1 AND ROWNUM = 1 THEN 2 END FROM t".toList
          "SELECT TOP 1 CASE WHEN a = 1 THEN 2 END FROM t".toList before front test rest behind →
        ¬IsCondition clause front rest := by
  refine ⟨?_, ?_, fun clause form before front test rest behind htaken hcondition => ?_⟩
  · rw [String.toList_ofList]
    decide +kernel
  · repeat rewrite [String.toList_ofList]
    decide +kernel
  · have hnone : (word "WHERE".toList).occursIn
        (mask "SELECT CASE WHEN a = 1 AND ROWNUM = 1 THEN 2 END FROM t".toList) = false := by
      repeat rewrite [String.toList_ofList]
      decide +kernel
    obtain ⟨x, k, y, rfl, hk, -⟩ := hcondition.among
    have hsplit := htaken.mask_eq
    rw [hsplit, show before ++ (x ++ (k ++ y)) ++ test ++ rest ++ behind =
      before ++ x ++ (k ++ (y ++ test ++ rest ++ behind)) by simp] at hnone
    rw [occursIn_of_matches (matches_word.2 hk)] at hnone
    cases hnone

end ToTsql
end DialectBridge
