import DialectBridge.Proofs.CallReading
import DialectBridge.Proofs.Captures
import DialectBridge.ToTsql.RowLimit
/-!
# Where a `TOP` goes

`insertTop?` puts a `TOP` behind the last word of a heading. The heading is found in the mask, and
the query has the same word at the same place, in code (`exists_insertTop?`). `moveRownum` takes a test
of `ROWNUM` out of the query and puts a `TOP` into the heading of the block around it; it never fails
(`exists_moveRownum`).
-/
namespace DialectBridge.ToTsql
open Pattern Cursor LexState

def IsHeadWord (s : Text) : Prop :=
  Spelled "SELECT".toList s ∨ Spelled "DISTINCT".toList s ∨ Spelled "ALL".toList s

theorem IsHeadWord.exists_name {s : Text} (h : IsHeadWord s) :
    ∃ t, isName t = true ∧ Spelled t s := by
  rcases h with h | h | h
  · exact ⟨_, by decide, h⟩
  · exact ⟨_, by decide, h⟩
  · exact ⟨_, by decide, h⟩

/-- A heading ends with a word of its own. -/
theorem exists_headWord {u w v : Text} (h : Matches Paren.selectHead u w v) :
    ∃ y s, w = y ++ s ∧ IsHeadWord s ∧ endsInWord (u ++ y) = false ∧ beginsInWord v = false := by
  obtain ⟨x, q, rfl, hx, hq⟩ := matches_seq.1 h
  obtain ⟨x, e', rfl, hx, he'⟩ := matches_seq.1 hx
  obtain ⟨e, s, rfl, he, hs⟩ := matches_seq.1 hx
  obtain ⟨rfl, hu⟩ := matches_edge.1 he
  obtain ⟨rfl, hv⟩ := matches_edge.1 he'
  rw [matches_word] at hs
  have hname : isName "SELECT".toList = true := by decide
  have hu' : endsInWord u = false := by
    simpa [hs.beginsInWord hname] using hu
  rcases matches_alt.1 hq with hq | hq
  · -- a quantifier behind the keyword
    obtain ⟨x, e, rfl, hx, he⟩ := matches_seq.1 hq
    obtain ⟨b, k, rfl, hb, hk⟩ := matches_seq.1 hx
    obtain ⟨rfl, hright⟩ := matches_edge.1 he
    rw [matches_blanks1] at hb
    have hword : IsHeadWord k := by
      rcases matches_alt.1 hk with hk | hk
      · exact .inr (.inl (matches_word.1 hk))
      · exact .inr (.inr (matches_word.1 hk))
    obtain ⟨t, ht, hspelled⟩ := hword.exists_name
    refine ⟨s ++ b, k, by simp, hword, ?_, ?_⟩
    · rw [← List.append_assoc]
      exact endsInWord_blanks hb.1 hb.2 _
    · have hend : endsInWord (u ++ ([] ++ s ++ []) ++ (b ++ k)) = true := by
        rw [← List.append_assoc]
        exact hspelled.endsInWord ht _
      rw [hend] at hright
      simpa using hright
  · obtain rfl := matches_empty.1 hq
    refine ⟨[], s, by simp, .inl hs, by simpa using hu', ?_⟩
    have hend : endsInWord (u ++ ([] ++ s)) = true := hs.endsInWord hname _
    rw [hend] at hv
    simpa using hv

theorem IsHeadWord.isPlain {s : Text} (h : IsHeadWord s) : ∀ c ∈ s, isPlain c = true := by
  obtain ⟨t, ht, hspelled⟩ := h.exists_name
  exact fun c hc => isPlain_of_isWordChar (hspelled.isWordChar ht c hc)

def topText (n : Nat) : Text := " TOP ".toList ++ Text.ofNat n

theorem isWordChar_of_mem_ofNat {n : Nat} : ∀ c ∈ Text.ofNat n, Unicode.isWordChar c = true := by
  intro c hc
  have hname : (c.isAlphanum || c == '_') = true := by
    simp [Char.isAlphanum, Text.isDigit_of_mem_ofNat hc]
  exact isWordChar_of_mem_caseVariants hname (Unicode.self_mem_caseVariants c)

theorem isPlain_topText (n : Nat) : ∀ c ∈ topText n, isPlain c = true :=
  List.forall_mem_append.2 ⟨by decide, fun c hc => isPlain_of_isWordChar (isWordChar_of_mem_ofNat c hc)⟩

/-- No word begins behind a heading, also where it is the last thing in front of `c`. -/
theorem IsHeadWord.beginsInWord_behind {x s y c v z : Text} (h : IsHeadWord s) (hapart : Apart (x ++ s ++ y) c)
    (hmask : mask (y ++ c) = v ++ z) (hwidth : Text.width y = Text.width v) (hv : beginsInWord v = false) :
    beginsInWord (y ++ c) = false := by
  cases v with
  | cons d v =>
    rw [← beginsInWord_mask, hmask]
    exact hv
  | nil =>
    obtain rfl : y = [] := by
      by_contra hne
      exact absurd (Text.width_pos hne) (by rw [hwidth, Text.width_nil]; omega)
    obtain ⟨t, ht, hspelled⟩ := h.exists_name
    refine hapart ?_
    rw [List.append_nil]
    exact hspelled.endsInWord ht x

/-- `TOP` is put behind a heading of the text `a`, in front of anything. -/
theorem exists_insertTop? (a c : Text) (n : Nat) :
    ∃ r, insertTop? (a ++ c) (Text.width a) n = some r ∧ ∀ out ∈ r, Apart a c →
      ∃ x s y, a = x ++ (s ++ y) ∧ IsHeadWord s ∧ endsInWord x = false ∧
        beginsInWord (y ++ c) = false ∧ (code.after x).live = true ∧
        out = x ++ s ++ (topText n ++ (y ++ c)) := by
  obtain ⟨z, hmask, hwidth⟩ := exists_maskFrom_prefix code a c
  rw [maskFrom_code] at hmask
  generalize maskFrom (code.after a) c = z' at hmask
  obtain ⟨p, q, rfl, hp, hstart⟩ := exists_scopeStart z z'
  have hheads : depthZeroMatches? (mask (a ++ c)) (scopeStart (mask (a ++ c)) (Text.width a))
      (Text.width a) Paren.selectHead = some ((zeroMatches Paren.selectHead q).map fun m =>
        ⟨Text.width p + m.start, Text.width p + m.stop⟩) := by
    rw [hmask, ← hwidth, hstart, Text.width_append]
    exact depthZeroMatches?_append p q z' _
  unfold insertTop? enclosingSelect?
  simp only [hheads, Option.bind_eq_bind, Option.bind_some, List.getLast?_map, Option.pure_def]
  cases hlast : (zeroMatches Paren.selectHead q).getLast? with
  | none => exact ⟨none, rfl, by simp⟩
  | some m =>
    simp only [Option.map_some]
    obtain ⟨u, w, v, rfl, -, hw, -, hstop⟩ := mem_zeroMatches (List.mem_of_getLast? hlast)
    obtain ⟨k, s, rfl, hs, hk, hv⟩ := exists_headWord hw
    obtain ⟨t, ht, hspelled⟩ := hs.exists_name
    have hcut : mask (a ++ c) = p ++ u ++ k ++ (s ++ (v ++ z')) := by rw [hmask]; simp
    obtain ⟨x, b, hsplit, hx, hb, hlive, -⟩ :=
      exists_cut_word (hspelled.ne_nil ht) (hspelled.isWordChar ht) hcut
    have hplace : Text.width p + m.stop = Text.width (x ++ s) := by
      rw [hstop, Text.width_append x, ← width_mask x, hx]
      simp only [Text.width_append]
      omega
    have hafter : Text.from? (mask (a ++ c)) (Text.width p + m.stop) = some (v ++ z') := by
      rw [hplace, hsplit, mask_plain_between hlive
        (fun e he => isPlain_of_isWordChar (hspelled.isWordChar ht e he)) (hspelled.ne_nil ht),
        ← List.append_assoc, hb, Text.width_append, ← width_mask x, ← Text.width_append]
      exact Text.from?_append _ _
    have hinsert : Text.insert? (a ++ c) (Text.width p + m.stop) (topText n) =
        some (x ++ s ++ (topText n ++ b)) := by
      rw [hplace, hsplit, ← List.append_assoc]
      exact Text.insert?_append _ _ _
    simp only [hafter, Option.bind_some]
    split_ifs
    · exact ⟨none, rfl, by simp⟩
    refine ⟨some (x ++ s ++ (topText n ++ b)), ?_, ?_⟩
    · rw [← topText, hinsert]
      rfl
    rintro _ ⟨⟩ hapart
    -- the heading stands in front of `c`
    rw [← List.append_assoc] at hsplit
    obtain ⟨y, rfl, hy⟩ := Text.exists_of_width_le hsplit.symm (by
      rw [← hwidth, ← hplace, hstop]
      simp only [Text.width_append]
      omega)
    subst hy
    refine ⟨x, s, y, by simp, hs, ?_, ?_, hlive, rfl⟩
    · rw [← endsInWord_mask hlive, hx, List.append_assoc]
      by_cases hne : u ++ k = []
      · rw [hne, List.append_nil]
        exact hp
      · rw [endsInWord_append hne]
        exact hk
    · refine hs.beginsInWord_behind hapart hb ?_ hv
      have hends : Text.width (x ++ s ++ y) = Text.width (x ++ s) + Text.width v := by
        rw [← hwidth, ← hplace, hstop]
        simp only [Text.width_append]
        omega
      rw [Text.width_append] at hends
      omega

/-! ## What a test is made of -/

/-- A test of `ROWNUM` is the word and what ends in a number. -/
theorem exists_of_rownumTest {u w v : Text} (h : Matches rownumTest u w v) :
    ∃ r z, w = r ++ z ∧ Spelled "ROWNUM".toList r ∧ beginsInWord (z ++ v) = false ∧ endsInWord z = true := by
  obtain ⟨w, o, rfl, hw, ho⟩ := matches_seq.1 h
  obtain ⟨r, b, rfl, hr, hb⟩ := matches_seq.1 hw
  have hb := matches_many_one.1 hb
  have hends : ∀ {x y : Text}, y ≠ [] → (∀ c ∈ y, Unicode.isWordChar c = true) → endsInWord (x ++ y) = true :=
    fun hne hy => by rw [endsInWord_append hne]; exact endsInWord_of_all hne hy
  have hop : beginsInWord (o ++ v) = false ∧ endsInWord o = true := by
    obtain ⟨q, hq, ho⟩ := matches_oneOf.1 ho
    simp only [List.mem_cons, List.not_mem_nil, or_false] at hq
    rcases hq with rfl | rfl
    · obtain ⟨o, d, rfl, ho, hd⟩ := matches_seq.1 ho
      obtain ⟨o, b', rfl, ho, -⟩ := matches_seq.1 ho
      obtain ⟨lt, e, rfl, hlt, -⟩ := matches_seq.1 (matches_group.1 ho)
      have hd : Matches (many1 (one .digit)) _ d v := matches_group.1 hd
      obtain rfl := matches_sym.1 hlt
      obtain ⟨hne, hdigits⟩ := matches_many1_one.1 hd
      exact ⟨rfl, hends hne fun c hc => isWordChar_of_isDigit (hdigits c hc)⟩
    · obtain ⟨o, d, rfl, ho, hd⟩ := matches_seq.1 ho
      obtain ⟨e, b', rfl, he, -⟩ := matches_seq.1 ho
      obtain rfl := matches_sym.1 he
      obtain rfl := matches_sym.1 hd
      exact ⟨rfl, hends (by simp) (by decide)⟩
  have hne : o ≠ [] := by
    rintro rfl
    exact absurd hop.2 (by decide)
  refine ⟨r, b ++ o, by simp, matches_word.1 hr, ?_, by rw [endsInWord_append hne]; exact hop.2⟩
  rw [List.append_assoc]
  exact beginsInWord_blanks hb hop.1

/-- A test is taken with the word in front of it or behind it; its `ROWNUM` has white space in front of it. -/
theorem exists_of_rownumForm {form : RownumForm} (hform : form ∈ rownumForms) {u w v : Text}
    (h : Matches form.pattern u w v) :
    (endsInWord u = false ∨ beginsInWord w = false ∧ form.kept.toList = []) ∧ beginsInWord v = false ∧
      ∃ l r z, w = l ++ (r ++ z) ∧ Spelled "ROWNUM".toList r ∧ endsInWord l = false ∧ beginsInWord z = false := by
  have hblanks : ∀ {x b y : Text}, Matches blanks1 x b y → ∀ z, endsInWord (z ++ b) = false := fun hb z => by
    obtain ⟨hne, hblank⟩ := matches_blanks1.1 hb
    exact endsInWord_blanks hne hblank z
  have hends : ∀ {x z : Text}, endsInWord z = true → endsInWord (x ++ z) = true := fun {x z} hz => by
    rwa [endsInWord_append (by rintro rfl; cases hz)]
  have hbegin : ∀ {z x : Text}, endsInWord z = true → beginsInWord (z ++ x) = false → beginsInWord z = false :=
    fun {z x} hz hx => by rwa [beginsInWord_append (by rintro rfl; cases hz)] at hx
  simp only [rownumForms, List.mem_cons, List.not_mem_nil, or_false] at hform
  rcases hform with rfl | rfl | rfl
  · obtain ⟨w, e', rfl, hw, he'⟩ := matches_seq.1 h
    obtain ⟨w, a, rfl, hw, ha⟩ := matches_seq.1 hw
    obtain ⟨w, b₂, rfl, hw, hb₂⟩ := matches_seq.1 hw
    obtain ⟨w, t, rfl, hw, ht⟩ := matches_seq.1 hw
    obtain ⟨w, b₁, rfl, hw, hb₁⟩ := matches_seq.1 hw
    obtain ⟨e, k, rfl, he, hk⟩ := matches_seq.1 hw
    obtain ⟨rfl, hu⟩ := matches_edge.1 he
    obtain ⟨rfl, hv⟩ := matches_edge.1 he'
    obtain ⟨r, z, rfl, hr, hz, hzend⟩ := exists_of_rownumTest ht
    have hwhere := matches_word.1 hk
    have hand := matches_word.1 ha
    refine ⟨.inl ?_, ?_, [] ++ k ++ b₁, r, z ++ (b₂ ++ a), by simp, hr, hblanks hb₁ _, ?_⟩
    · simpa [hwhere.beginsInWord (by decide)] using hu
    · rw [← List.append_assoc u, hand.endsInWord (by decide)] at hv
      simpa using hv
    · have hne : z ≠ [] := by rintro rfl; cases hzend
      rw [beginsInWord_append hne]
      exact hbegin hzend hz
  · obtain ⟨w, e', rfl, hw, he'⟩ := matches_seq.1 h
    obtain ⟨w, t, rfl, hw, ht⟩ := matches_seq.1 hw
    obtain ⟨w, b₁, rfl, hw, hb₁⟩ := matches_seq.1 hw
    obtain ⟨b, a, rfl, hb, ha⟩ := matches_seq.1 hw
    obtain ⟨rfl, hv⟩ := matches_edge.1 he'
    obtain ⟨r, z, rfl, hr, hz, hzend⟩ := exists_of_rownumTest ht
    obtain ⟨hne, hblank⟩ := matches_blanks1.1 hb
    refine ⟨.inr ⟨?_, rfl⟩, ?_, b ++ a ++ b₁, r, z, by simp, hr, hblanks hb₁ _, hbegin hzend hz⟩
    · simp only [List.append_assoc]
      exact beginsInWord_blanks_append ⟨hne, hblank⟩ _
    · rw [hends (hends (hends hzend))] at hv
      simpa using hv
  · obtain ⟨w, e', rfl, hw, he'⟩ := matches_seq.1 h
    obtain ⟨w, t, rfl, hw, ht⟩ := matches_seq.1 hw
    obtain ⟨w, b₁, rfl, hw, hb₁⟩ := matches_seq.1 hw
    obtain ⟨w, k, rfl, hw, hk⟩ := matches_seq.1 hw
    obtain ⟨b, e, rfl, hb, he⟩ := matches_seq.1 hw
    obtain ⟨rfl, hu⟩ := matches_edge.1 he
    obtain ⟨rfl, hv⟩ := matches_edge.1 he'
    obtain ⟨r, z, rfl, hr, hz, hzend⟩ := exists_of_rownumTest ht
    have hblank : ∀ c ∈ b, Unicode.isBlank c = true := matches_many_one.1 hb
    have hwhere := matches_word.1 hk
    refine ⟨?_, ?_, b ++ [] ++ k ++ b₁, r, z, by simp, hr, hblanks hb₁ _, hbegin hzend hz⟩
    · cases b with
      | nil => exact .inl (by simpa [hwhere.beginsInWord (by decide)] using hu)
      | cons c b => exact .inr ⟨isWordChar_of_isBlank (hblank c (by simp)), rfl⟩
    · rw [hends (hends (hends hzend))] at hv
      simpa using hv

theorem framed_of_mem_rownumForms : ∀ form ∈ rownumForms, form.pattern.framed = true := by
  decide

/-- The block around a place can be searched. -/
theorem exists_depthZeroMatches?_scope (z z' : Text) (p : Pattern) :
    ∃ x y, z = x ++ y ∧ endsInWord x = false ∧
      depthZeroMatches? (z ++ z') (scopeStart (z ++ z') (Text.width z))
        (scopeEnd (z ++ z') (Text.width z)) p =
        some ((zeroMatches p (y ++ scope 0 z')).map fun m =>
          ⟨Text.width x + m.start, Text.width x + m.stop⟩) := by
  obtain ⟨x, y, rfl, hx, hstart⟩ := exists_scopeStart z z'
  obtain ⟨rest, hscope, -⟩ := scope_spec 0 z'
  refine ⟨x, y, rfl, hx, ?_⟩
  have hsplit : x ++ y ++ z' = x ++ (y ++ scope 0 z') ++ rest := by
    rw [List.append_assoc, List.append_assoc, List.append_assoc, ← hscope]
  rw [hstart, scopeEnd_append, Text.width_append, Nat.add_assoc, ← Text.width_append, hsplit]
  exact depthZeroMatches?_append x _ rest p

/-- `moveRownum` never fails; what it gives is the query without the test and with a `TOP`. -/
theorem exists_moveRownum {sql : Text} {form : RownumForm} {m : Match} (hform : form ∈ rownumForms)
    (hm : m ∈ form.pattern.findAll (mask sql)) :
    Yields (moveRownum sql (mask sql) form m) fun r => ∀ out ∈ r, ∃ a w c n,
      sql = a ++ w ++ c ∧ m.start = Text.width a ∧ m.stop = Text.width (a ++ w) ∧
      rownumLimit? m = some n ∧ (form.stop.any fun p => p.occursIn m.last.right) = false ∧
      insertTop? (a ++ form.kept.toList ++ c) (Text.width a) n = some (some out) := by
  obtain ⟨hstart, hstop, hlt⟩ := isBoundary_of_mem_findAll (framed_of_mem_rownumForms form hform) hm
  obtain ⟨a, w, c, rfl, ha, hw⟩ := Text.exists_cuts hstart hstop (Nat.le_of_lt hlt)
  rw [← Text.width_append] at hw
  have hmask : ∃ z z', mask (a ++ w ++ c) = z ++ z' ∧ Text.width z = m.start := by
    obtain ⟨x, y, z, hcuts, hx, -⟩ := exists_mask_cuts a w c
    rw [← List.append_assoc] at hcuts
    exact ⟨x, y ++ z, by rw [hcuts, List.append_assoc], hx.trans ha⟩
  obtain ⟨z, z', hmask, hwidth⟩ := hmask
  obtain ⟨x, y, -, -, hors⟩ := exists_depthZeroMatches?_scope z z' (keyword "OR")
  rw [← hmask, hwidth] at hors
  unfold moveRownum
  by_cases hblocked : (form.stop.any fun p => p.occursIn m.last.right) = true
  · exact ⟨none, by rw [if_pos hblocked]; exact gives_pure none, by simp⟩
  rw [if_neg hblocked]
  generalize hlist : (zeroMatches (keyword "OR".toList) (y ++ scope 0 z')).map _ = ors at hors
  by_cases hor : (!ors.isEmpty) = true
  · exact ⟨none, (gives_lift hors).bind (by rw [if_pos hor]; exact gives_pure none), by simp⟩
  cases hlimit : rownumLimit? m with
  | none => exact ⟨none, (gives_lift hors).bind (by rw [if_neg hor]; exact gives_pure none), by simp⟩
  | some n =>
    have hsplice : Text.splice? (a ++ w ++ c) m.start m.stop form.kept.toList =
        some (a ++ (form.kept.toList ++ c)) := by
      rw [← ha, ← hw, Text.width_append, Text.splice?_append, List.append_assoc]
    obtain ⟨r, hr, -⟩ := exists_insertTop? a (form.kept.toList ++ c) n
    rw [ha] at hr
    cases r with
    | none =>
      refine ⟨none, (gives_lift hors).bind ?_, by simp⟩
      rw [if_neg hor]
      exact (gives_lift hsplice).bind ((gives_lift hr).bind ((gives_warnOnce _ _).bind (gives_pure none)))
    | some out =>
      refine ⟨some out, (gives_lift hors).bind ?_, ?_⟩
      · rw [if_neg hor]
        exact (gives_lift hsplice).bind ((gives_lift hr).bind (gives_pure _))
      · rintro _ ⟨⟩
        refine ⟨a, w, c, n, rfl, ha.symm, hw.symm, rfl, by simpa using hblocked, ?_⟩
        rw [List.append_assoc, ha]
        exact hr

end DialectBridge.ToTsql
