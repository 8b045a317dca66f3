import DialectBridge.Proofs.RownumToTop
import DialectBridge.Proofs.TopPasses
/-!
# A `TOP` that becomes a limit

A `TOP` in the only heading of a query is found, with its number (`exists_nextTop?`). If the query has neither
conditions nor another clause, the limit goes to its end (`yields_topToRownum`).
-/
namespace DialectBridge.ToOracle
open Pattern Cursor LexState ToTsql

/-! ## The clause -/

section
variable {n n' r b v c c' : Text}

/-- A `TOP` is read as it is written. -/
theorem topPhrase_inj (hn : IsNumeral n) (hphrase : IsTopPhrase n' r) (hb : b ≠ [] ∧ ∀ c ∈ b, Unicode.isBlank c = true)
    (hv : ∀ c ∈ v.head?, Unicode.isBlank c = false) (hc : ∀ e ∈ c.head?, Unicode.isBlank e = false)
    (h : r ++ (b ++ v) = " TOP ".toList ++ n ++ ' ' :: c) :
    n' = n ∧ r = " TOP ".toList ++ n ∧ b = [' '] ∧ v = c := by
  obtain ⟨b₁, t, b₂, k, rfl, ⟨-, hb₁⟩, ht, hb₂, hn', hk⟩ := hphrase
  have hspace : ∀ c ∈ [' '], Unicode.isBlank c = true := by decide
  have hname : isName "TOP".toList = true := by decide
  have hword := ht.isWordChar hname
  -- the white space in front of the word
  have hall : b₁ ++ (t ++ (b₂ ++ (k ++ (b ++ v)))) = [' '] ++ ("TOP".toList ++ ([' '] ++ (n ++ ' ' :: c))) := by
    simpa using h
  obtain ⟨rfl, htop⟩ := append_inj_of_all hb₁ hspace (isBlank_of_word ⟨ht.ne_nil hname, hword⟩ _)
    (isBlank_of_word (by decide) _) hall
  -- the word
  obtain ⟨rfl, hbehind⟩ := List.append_inj htop (List.Forall₂.length_eq ht).symm
  -- the white space in front of the number
  obtain ⟨rfl, hcount⟩ := append_inj_of_all hb₂ hspace (by
    rcases hk with rfl | ⟨y, z, rfl, -⟩
    · exact isBlank_of_word ⟨hn'.1, hn'.isWordChar⟩ _
    · rintro _ ⟨⟩
      decide) (isBlank_of_word ⟨hn.1, hn.isWordChar⟩ _) hbehind
  -- the number
  have hsign : ∀ d ∈ (b ++ v).head?, CharSet.digit.contains d = false := by
    intro d hd
    obtain ⟨e, b, rfl⟩ := List.exists_cons_of_ne_nil hb.1
    obtain rfl : e = d := by simpa using hd
    by_contra hdigit
    rw [Bool.not_eq_false] at hdigit
    have hblank := isBlank_of_isWordChar (isWordChar_of_isDigit hdigit)
    rw [hb.2 e (by simp)] at hblank
    cases hblank
  rcases hk with rfl | ⟨y, z, rfl, -⟩
  · obtain ⟨rfl, hrest⟩ := append_inj_of_all hn'.2 hn.2 hsign (by rintro _ ⟨⟩; decide) hcount
    have hrest : b ++ v = [' '] ++ c := hrest
    obtain ⟨rfl, rfl⟩ := append_inj_of_all hb.2 hspace hv hc hrest
    exact ⟨rfl, by simp, rfl, rfl⟩
  · obtain ⟨d, n, rfl⟩ := List.exists_cons_of_ne_nil hn.1
    obtain rfl := (List.cons.inj hcount).1
    exact absurd (hn.2 '(' (by simp)) (by decide)

/-- `TOP` is no quantifier. -/
theorem not_isQuantifier {o y z : Text} (hz : beginsInWord z = false) (h : o ++ z = " TOP ".toList ++ y) :
    ¬ IsQuantifier o := by
  rintro ⟨b, k, rfl, ⟨-, hb⟩, hk⟩
  obtain ⟨t, ht, hspelled⟩ : ∃ t, isName t = true ∧ Spelled t k := hk.elim (⟨_, by decide, ·⟩) (⟨_, by decide, ·⟩)
  have hword := hspelled.isWordChar ht
  have hall : b ++ (k ++ z) = [' '] ++ ("TOP".toList ++ ' ' :: y) := by simpa using h
  obtain ⟨rfl, hbehind⟩ := append_inj_of_all hb (by decide) (isBlank_of_word ⟨hspelled.ne_nil ht, hword⟩ _)
    (isBlank_of_word (by decide) _) hall
  obtain ⟨rfl, -⟩ := word_inj hword (by decide) hz rfl hbehind
  exact absurd hk (by decide)

theorem matches_topClause (hn : IsNumeral n) (v : Text) :
    Matches topClause [] (headWord ++ (" TOP ".toList ++ (n ++ [' ']))) v := by
  have hspace : [' '] ≠ [] ∧ ∀ c ∈ [' '], Unicode.isBlank c = true := by decide
  refine matches_seq.2 ⟨headWord ++ (" TOP ".toList ++ n), [' '], by simp, ?_, matches_blanks1.2 hspace⟩
  refine matches_seq.2 ⟨headWord ++ " TOP ".toList, n, by simp, ?_, ?_⟩
  · refine matches_seq.2 ⟨headWord ++ " TOP".toList, [' '], rfl, ?_, matches_many_one.2 hspace.2⟩
    refine matches_seq.2 ⟨headWord ++ [' '], "TOP".toList, rfl, ?_, matches_word.2 (spelled_self _)⟩
    refine matches_seq.2 ⟨headWord, [' '], rfl, ?_, matches_blanks1.2 hspace⟩
    refine matches_seq.2 ⟨headWord, [], rfl, ?_, matches_opt.2 (.inr rfl)⟩
    refine matches_seq.2 ⟨[], headWord, rfl, matches_edge.2 ⟨rfl, ?_⟩, matches_word.2 (spelled_self _)⟩
    rw [beginsInWord_append (by decide)]
    decide
  · exact matches_alt.2 (.inr (matches_group.2 (matches_many1_one.2 hn)))

theorem consuming_topClause : topClause.Consuming := by
  rintro u w v ⟨g, g', h⟩ rfl
  exact absurd h.minLength_le (by decide)

/-- The words of the clauses that a limit is put in front of, and of what goes on behind a `TOP`. -/
def clauseNames : List String := ["PERCENT", "WITH", "WHERE", "UNION", "INTERSECT", "EXCEPT", "MINUS", "GROUP",
  "HAVING", "ORDER", "OFFSET", "FETCH"]

/-- The list of a query with its table, on one line and without other clauses. -/
structure Unlimited (c : Text) : Prop where
  live : (code.after c).live = true
  nested : nest 0 (mask c) = some 0
  first : ∀ e ∈ (mask c).head?, Unicode.isBlank e = false
  last : ∀ e ∈ c.getLast?, isBlockEnd e = false
  oneLine : '\n' ∉ c
  spares : Spares clauseNames (mask c)

theorem avoids_topModifier {t : Text} (h : Spares ["PERCENT", "WITH"] t) : Avoids topModifier t := by
  have hpercent : Avoids (edge ++ word "PERCENT".toList ++ edge) t :=
    avoids_of_spares beforeWord_edge (takesNames_word (by decide)) behindWord_edge (h.mono (by simp))
  have hwith : Avoids (edge ++ word "WITH".toList ++ blanks1) t :=
    avoids_of_spares beforeWord_edge (takesNames_word (by decide)) behindWord_blanks1 (h.mono (by simp))
  intro u w v hsplit hw
  obtain ⟨w, e, rfl, hw, he⟩ := matches_seq.1 hw
  obtain ⟨a, w, rfl, ha, hw⟩ := matches_seq.1 hw
  obtain ⟨rfl, hstart⟩ := matches_check.1 ha
  obtain rfl : u = [] := by simpa [Assertion.holds, Cursor.between, Passed.of] using hstart
  have hedge : ∀ {x : Text}, beginsInWord x = true → Matches edge [] [] x := fun hx =>
    matches_edge.2 ⟨rfl, by rw [hx]; decide⟩
  rcases matches_alt.1 hw with hw | hw
  · have hword := matches_word.1 hw
    refine hpercent [] (w ++ e) v (by simpa using hsplit) (matches_seq.2 ⟨w, e, rfl, ?_, by simpa using he⟩)
    exact matches_seq.2 ⟨[], w, rfl, hedge (hword.beginsInWord (by decide) _), matches_word.2 hword⟩
  · obtain ⟨w, ties, rfl, hw, -⟩ := matches_seq.1 hw
    obtain ⟨w, b, rfl, hw, hb⟩ := matches_seq.1 hw
    have hword := matches_word.1 hw
    refine hwith [] (w ++ b) (ties ++ (e ++ v)) (by simpa using hsplit)
      (matches_seq.2 ⟨w, b, rfl, ?_, by simpa using hb⟩)
    exact matches_seq.2 ⟨[], w, rfl, hedge (hword.beginsInWord (by decide) _), matches_word.2 hword⟩

theorem isNumeral_ofNat (n : Nat) : IsNumeral (Text.ofNat n) :=
  ⟨Nat.toDigits_ne_nil, fun _ hc => isDigit_of_ascii (Text.isDigit_of_mem_ofNat hc)⟩

/-- The clause at the beginning of a query is read as it is written. -/
theorem exists_topMatch (hn : IsNumeral n) (hc : ∀ e ∈ c.head?, Unicode.isBlank e = false) :
    ∃ m ms, topClause.findAll (headWord ++ (" TOP ".toList ++ (n ++ ' ' :: c))) = m :: ms ∧
      (m.group? 2).or (m.group? 3) = some n ∧ m.groupSpan? 1 = none ∧ m.start = 0 ∧
      m.stop = Text.width (headWord ++ (" TOP ".toList ++ (n ++ [' ']))) ∧ m.last.right = c := by
  have hwhole : headWord ++ (" TOP ".toList ++ (n ++ ' ' :: c)) = headWord ++ (" TOP ".toList ++ (n ++ [' '])) ++ c := by
    simp
  obtain ⟨g, g', htakes⟩ := matches_topClause hn c
  obtain ⟨m, hm⟩ := Option.isSome_iff_exists.1 (isSome_matchAt?_iff.2 ⟨_, _, g, g', rfl, htakes⟩)
  rw [← hwhole] at hm
  obtain ⟨ms, hms⟩ := exists_findAll_cons consuming_topClause hm fun _ _ _ _ _ => Nat.zero_le _
  obtain ⟨n', s, o, r, b, v, hnumber, hsplit, -, hselect, hspan, hphrase, hb, hblank, hv, hstart, hstop⟩ :=
    exists_topParts hm
  obtain ⟨rfl, hbehind⟩ := List.append_inj hsplit (List.Forall₂.length_eq hselect)
  -- the heading has no quantifier
  obtain ⟨rfl, hnogroup⟩ : o = [] ∧ m.groupSpan? 1 = none := by
    refine hspan.resolve_right fun hquantifier => ?_
    have hbegins : beginsInWord (r ++ (b ++ v)) = false := by
      obtain ⟨y, z, rfl, -⟩ := hphrase.isTopTail.last
      rw [beginsInWord_append (by simp), hphrase.isTopTail.begins]
    exact not_isQuantifier hbegins hbehind.symm hquantifier.1
  obtain ⟨rfl, rfl, rfl, rfl⟩ := topPhrase_inj hn hphrase ⟨hb, hblank⟩ hv hc (by simpa using hbehind.symm)
  rw [List.nil_append, List.nil_append, List.append_assoc] at hstop
  refine ⟨m, ms, hms, hnumber, hnogroup, hstart, hstop, ?_⟩
  obtain ⟨w, x, hcut, -, hlast, -⟩ := matchAt?_eq_some hm
  rw [hwhole] at hcut
  rw [Match.stop, hlast, offset_between] at hstop
  rw [hlast, right_between]
  exact (Text.append_inj_of_width hcut.symm (by simpa using hstop)).2

/-- The `TOP` is found, and the query without it is the heading and its list. -/
theorem exists_nextTop? (hfirst : ∀ e ∈ (mask c).head?, Unicode.isBlank e = false)
    (hspares : Spares ["PERCENT", "WITH"] (mask c)) (n : Nat) :
    ∃ m, nextTop? (headWord ++ (topText n ++ ' ' :: c)) = some m ∧
      (m.group? 2).or (m.group? 3) = some (Text.ofNat n) ∧
      dropTop? (headWord ++ (topText n ++ ' ' :: c)) m = some (listHead ++ c, Text.width listHead) := by
  have hplain : ∀ e ∈ headWord ++ (topText n ++ [' ']), isPlain e = true := by
    simp only [List.forall_mem_append]
    exact ⟨by decide, isPlain_topText n, by decide⟩
  have hmask : mask (headWord ++ (topText n ++ ' ' :: c)) =
      headWord ++ (" TOP ".toList ++ (Text.ofNat n ++ ' ' :: mask c)) := by
    have := mask_plain_append hplain c
    simpa [topText] using this
  obtain ⟨m, ms, hms, hnumber, hnogroup, hstart, hstop, hright⟩ := exists_topMatch (isNumeral_ofNat n) hfirst
  refine ⟨m, ?_, hnumber, ?_⟩
  · have hnone : topModifier.occursIn m.last.right = false := by
      rw [hright]
      exact (avoids_topModifier hspares).occursIn
    rw [nextTop?, hmask, hms, List.filter_cons, hnone]
    rfl
  · have hstop' : m.stop = Text.width ([] ++ (headWord ++ [] ++ ([] ++ (topText n ++ [' '])))) := by
      simpa [topText] using hstop
    have hdrop := dropTop?_eq (a := []) (c := c) hstart (by decide) (.inl ⟨rfl, hnogroup⟩) hstop'
    have hhead : headWord ++ [' '] = listHead := by decide
    simpa [topText, ← hhead] using hdrop

/-! ## The place of the limit -/

/-- A clause begins in its first word. -/
theorem avoids_phrase {a : String} {q : Pattern} {t : Text} (ha : isName a.toList = true) (h : Spares [a] t) :
    Avoids (edge ++ (word a.toList ++ blanks1 ++ q) ++ edge) t := by
  have hword : Avoids (edge ++ word a.toList ++ blanks1) t :=
    avoids_of_spares beforeWord_edge (takesNames_word ha) behindWord_blanks1 h
  intro u w v hsplit hw
  obtain ⟨w, e', rfl, hw, -⟩ := matches_seq.1 hw
  obtain ⟨e, w, rfl, he, hw⟩ := matches_seq.1 hw
  obtain ⟨w, y, rfl, hw, -⟩ := matches_seq.1 hw
  obtain ⟨k, b, rfl, hk, hb⟩ := matches_seq.1 hw
  refine hword u (e ++ k ++ b) (y ++ e' ++ v) (by simpa using hsplit)
    (matches_seq.2 ⟨e ++ k, b, rfl, ?_, by simpa using hb⟩)
  exact matches_seq.2 ⟨e, k, rfl, by simpa using he, by simpa using hk⟩

theorem avoids_afterWhere {t : Text} (h : Spares clauseNames t) : Avoids afterWhere t := by
  have hword : ∀ {a : String}, isName a.toList = true → a ∈ clauseNames → Avoids (keyword a.toList) t := fun ha hmem =>
    avoids_keyword ha (h.mono (by simpa using hmem))
  have hphrase : ∀ {a : String} {q : Pattern}, isName a.toList = true → a ∈ clauseNames →
      Avoids (edge ++ (word a.toList ++ blanks1 ++ q) ++ edge) t := fun ha hmem =>
    avoids_phrase ha (h.mono (by simpa using hmem))
  intro u w v hsplit hw
  obtain ⟨w, e', rfl, hw, he'⟩ := matches_seq.1 hw
  obtain ⟨e, w, rfl, he, hw⟩ := matches_seq.1 hw
  obtain ⟨p, hp, hw⟩ := matches_oneOf.1 hw
  have hwhole : Matches (edge ++ p ++ edge) u (e ++ w ++ e') v :=
    matches_seq.2 ⟨e ++ w, e', rfl, matches_seq.2 ⟨e, w, rfl, he, hw⟩, he'⟩
  revert hwhole
  refine (?_ : Avoids (edge ++ p ++ edge) t) u _ v hsplit
  simp only [List.mem_cons, List.not_mem_nil, or_false] at hp
  rcases hp with rfl | rfl | rfl | rfl | rfl | rfl | rfl | rfl | rfl
  · exact hphrase (by decide) (by decide)
  · exact hword (by decide) (by decide)
  · exact hphrase (by decide) (by decide)
  · exact hword (by decide) (by decide)
  · exact hword (by decide) (by decide)
  · exact hword (by decide) (by decide)
  · exact hword (by decide) (by decide)
  · exact hword (by decide) (by decide)
  · exact hword (by decide) (by decide)

/-- Nothing is in front of which the limit would go. -/
theorem Unlimited.filterPlace?_eq (h : Unlimited c) :
    filterPlace? (listHead ++ c) (Text.width listHead) =
      some (.atEnd (Text.width listHead) (Text.width listHead + Text.width c)) := by
  have hmask : mask (listHead ++ c) = listHead ++ mask c := mask_plain_append (by decide) c
  have hstop : scopeEnd (listHead ++ mask c) (Text.width listHead) = Text.width listHead + Text.width c := by
    rw [scopeEnd_append, scope_of_nest h.nested, width_mask]
  have hnone : ∀ {p : Pattern}, Avoids p (mask c) → depthZeroMatches? (listHead ++ mask c) (Text.width listHead)
      (Text.width listHead + Text.width c) p = some [] := by
    intro p hp
    have hfind := depthZeroMatches?_append listHead (mask c) [] p
    rwa [List.append_nil, zeroMatches, hp.findAll, width_mask] at hfind
  have hspares : Spares ["UNION", "INTERSECT", "EXCEPT", "MINUS"] (mask c) := h.spares.mono (by decide)
  have hoperators : Avoids setOperator (mask c) :=
    avoids_of_spares beforeWord_edge (takesNames_oneOf (by decide)) behindWord_edge hspares
  have hwhere : Avoids (keyword "WHERE") (mask c) := avoids_keyword (by decide) (h.spares.mono (by decide))
  rw [filterPlace?]
  simp only [hmask, hstop, hnone hoperators, hnone hwhere, hnone (avoids_afterWhere h.spares), Option.bind_eq_bind,
    Option.bind_some, List.head?_nil, Option.map_none, Option.getD_none]
  rfl

/-- What ends in a word does not end in white space or a semicolon. -/
theorem isBlockEnd_of_getLast? (h : endsInWord c = true) : ∀ e ∈ c.getLast?, isBlockEnd e = false := by
  intro e he
  obtain ⟨c, rfl⟩ := List.getLast?_eq_some_iff.1 he
  rw [endsInWord_append (by simp), endsInWord_singleton] at h
  by_contra hend
  rw [isWordChar_of_isBlockEnd (by simpa using hend)] at h
  cases h

theorem dropTrailing_isBlockEnd (h : ∀ e ∈ c.getLast?, isBlockEnd e = false) : Text.dropTrailing isBlockEnd c = c := by
  obtain ⟨tail, hc, htail⟩ := Text.exists_eq_dropTrailing_append isBlockEnd c
  rcases List.eq_nil_or_concat tail with rfl | ⟨tail, e, rfl⟩
  · rw [List.append_nil] at hc
    exact hc.symm
  · have hlast := h e (by rw [hc]; simp)
    rw [htail e (by simp)] at hlast
    cases hlast

/-- The limit goes to the end of the list. -/
theorem Unlimited.addRownumFilter?_eq (h : Unlimited c) (n : Text) :
    addRownumFilter? (listHead ++ c) (Text.width listHead) n = some (listHead ++ (c ++ (limitHead ++ n))) := by
  have hslice : Text.slice? (listHead ++ c) (Text.width listHead) (Text.width listHead + Text.width c) = some c := by
    have := Text.slice?_append listHead c []
    rwa [List.append_nil] at this
  have hseparator : separator c = " ".toList := by simp [separator, h.oneLine]
  have hinsert := Text.insert?_append (listHead ++ c) [] (" ".toList ++ "WHERE ROWNUM <= ".toList ++ n)
  rw [List.append_nil, List.append_nil, Text.width_append] at hinsert
  have hhead : " ".toList ++ ("WHERE ROWNUM <= ".toList ++ n) = limitHead ++ n := rfl
  simp only [List.append_assoc, hhead] at hinsert
  rw [addRownumFilter?, h.filterPlace?_eq]
  simp only [addFilterAt?, addAtEnd?, hslice, dropTrailing_isBlockEnd h.last, hseparator, Option.bind_eq_bind,
    Option.bind_some, List.append_assoc, hhead]
  exact hinsert

/-! ## In front of conditions -/

/-- The list of a query with its table, and the conditions `d` behind its `WHERE`. -/
structure Conditioned (c d : Text) : Prop where
  live : (code.after c).live = true
  nested : nest 0 (mask c) = some 0
  spares : Spares clauseNames (mask c)
  closed : nest 0 (mask d) = some 0
  joined : Spares ("OR" :: clauseNames) (mask d)
  ne_nil : d ≠ []
  last : ∀ e ∈ d.getLast?, isBlockEnd e = false

section
variable {d : Text}

theorem Conditioned.mask_eq (h : Conditioned c d) :
    mask (listHead ++ (c ++ (whereHead ++ d))) = listHead ++ (mask c ++ (whereHead ++ mask d)) := by
  rw [mask_plain_append (by decide), mask_plain_between h.live (by decide) (by decide)]

/-- The only `WHERE` of the query. -/
theorem Conditioned.exists_where (h : Conditioned c d) :
    ∃ m ms, zeroMatches (keyword "WHERE") (mask c ++ (whereHead ++ mask d)) = m :: ms ∧
      m.stop = Text.width (c ++ " WHERE".toList) := by
  have hname : isName "WHERE".toList = true := by decide
  have hend : endsInWord (mask c ++ [' ']) = false := endsInWord_blanks (by simp) (by decide) _
  have hsplit : mask c ++ (whereHead ++ mask d) = mask c ++ [' '] ++ ("WHERE".toList ++ ' ' :: mask d) := by
    rw [whereHead_eq]
    simp only [List.append_assoc, List.cons_append, List.nil_append]
  have hdepth : depth (mask c ++ [' ']) = 0 := by
    rw [depth_append, (wellNested_iff.2 h.nested).2]
    decide
  have hbefore : Spares ["WHERE"] (mask c ++ [' ']) :=
    spares_append (h.spares.mono (by decide)) (by decide) (.of_begins (by decide) _)
  have hbehind : Spares ["WHERE"] ([' '] ++ mask d) :=
    spares_append (by decide) (h.joined.mono (by decide)) (.of_ends (by decide) _)
  have hstop : ∀ m ∈ zeroMatches (keyword "WHERE") (mask c ++ (whereHead ++ mask d)),
      m.stop = Text.width (c ++ " WHERE".toList) := by
    intro m hm
    obtain ⟨u, w, v, hcut, -, hw, -, hstop⟩ := mem_zeroMatches hm
    obtain ⟨hspelled, hu, hv⟩ := (matches_keyword hname).1 hw
    obtain ⟨rfl, rfl⟩ := name_inj hname hspelled (spelled_self _) hu hv hend rfl
      (fun p hp => hbefore p hp _ (by simp)) (fun p hp => hbehind p hp _ (by simp)) (hcut.symm.trans hsplit)
    obtain rfl := List.append_cancel_right (List.append_cancel_left (hcut.symm.trans hsplit))
    rw [hstop, Text.width_append, Text.width_append, width_mask, Nat.add_assoc]
    rfl
  have hphrases : TakesPhrases (keyword "WHERE".toList) :=
    takesPhrases_of_isPhrase rfl fun _ _ _ hw => isPhrase_of_spelled hname (matches_word.1 hw)
  have hmatch : Matches (keyword "WHERE".toList) (mask c ++ [' ']) "WHERE".toList (' ' :: mask d) :=
    (matches_keyword hname).2 ⟨spelled_self _, hend, rfl⟩
  obtain ⟨m, hm, -⟩ := hphrases.exists_mem_zeroMatches hmatch hdepth
  rw [hsplit] at hstop ⊢
  obtain ⟨m, ms, hms⟩ := List.exists_cons_of_ne_nil (List.ne_nil_of_mem hm)
  exact ⟨m, ms, hms, hstop m (by rw [hms]; simp)⟩

theorem where_append (t d : Text) : listHead ++ (t ++ " WHERE".toList) ++ ' ' :: d = listHead ++ (t ++ (whereHead ++ d)) := by
  rw [List.append_assoc, List.append_assoc]
  rfl

/-- What the conditions do not hold is not found behind the word. -/
theorem Conditioned.depthZeroMatches?_eq (h : Conditioned c d) {p : Pattern} (hp : Avoids p (' ' :: mask d)) :
    depthZeroMatches? (mask (listHead ++ (c ++ (whereHead ++ d)))) (Text.width (listHead ++ (c ++ " WHERE".toList)))
      (Text.width (listHead ++ (c ++ (whereHead ++ d)))) p = some [] := by
  have hfind := depthZeroMatches?_append (listHead ++ (mask c ++ " WHERE".toList)) (' ' :: mask d) [] p
  rw [List.append_nil, zeroMatches, hp.findAll, ← Text.width_append, where_append, ← h.mask_eq, width_mask] at hfind
  have hbody : Text.width (listHead ++ (mask c ++ " WHERE".toList)) = Text.width (listHead ++ (c ++ " WHERE".toList)) := by
    simp only [Text.width_append, width_mask]
  rwa [hbody] at hfind

/-- The limit goes to the conditions. -/
theorem Conditioned.filterPlace?_eq (h : Conditioned c d) :
    filterPlace? (listHead ++ (c ++ (whereHead ++ d))) (Text.width listHead) =
      some (.conditions (Text.width (listHead ++ (c ++ " WHERE".toList)))
        (Text.width (listHead ++ (c ++ (whereHead ++ d))))) := by
  have hwhole : mask c ++ (whereHead ++ mask d) = mask (c ++ (whereHead ++ d)) := by
    rw [mask_plain_between h.live (by decide) (by decide)]
  have hnest : nest 0 (mask c ++ (whereHead ++ mask d)) = some 0 := by
    have hneutral : ∀ d, nest d whereHead = some d := nest_of_not_mem (by decide) (by decide)
    rw [nest_append, h.nested, Option.bind_some, nest_append_of_neutral hneutral, h.closed]
  have hstop : scopeEnd (listHead ++ (mask c ++ (whereHead ++ mask d))) (Text.width listHead) =
      Text.width (listHead ++ (c ++ (whereHead ++ d))) := by
    rw [scopeEnd_append, scope_of_nest hnest, hwhole, width_mask, ← Text.width_append]
  have hspares : Spares ["UNION", "INTERSECT", "EXCEPT", "MINUS"] (mask c ++ (whereHead ++ mask d)) := by
    refine spares_append (h.spares.mono (by decide)) ?_ (.of_begins ?_ _)
    · exact spares_append (by decide) (h.joined.mono (by decide)) (.of_ends (by decide) _)
    · rw [beginsInWord_append (by decide)]
      decide
  have hoperators : Avoids setOperator (mask c ++ (whereHead ++ mask d)) :=
    avoids_of_spares beforeWord_edge (takesNames_oneOf (by decide)) behindWord_edge hspares
  -- the whole list is searched, and then what is behind the word
  have hlist : ∀ p, depthZeroMatches? (listHead ++ (mask c ++ (whereHead ++ mask d))) (Text.width listHead)
      (Text.width (listHead ++ (c ++ (whereHead ++ d)))) p =
        some ((zeroMatches p (mask c ++ (whereHead ++ mask d))).map fun m =>
          ⟨Text.width listHead + m.start, Text.width listHead + m.stop⟩) := by
    intro p
    have hfind := depthZeroMatches?_append listHead (mask c ++ (whereHead ++ mask d)) [] p
    rwa [List.append_nil, hwhole, width_mask, ← Text.width_append, ← hwhole] at hfind
  have hclauses := h.depthZeroMatches?_eq (p := afterWhere)
    (avoids_afterWhere (spares_append (a := [' ']) (by decide) (h.joined.mono (by decide)) (.of_ends (by decide) _)))
  rw [h.mask_eq] at hclauses
  obtain ⟨m, ms, hwhere, hend⟩ := h.exists_where
  have hnone := hlist setOperator
  have hfound := hlist (keyword "WHERE")
  rw [zeroMatches, hoperators.findAll] at hnone
  rw [hwhere, List.map_cons, hend, ← Text.width_append] at hfound
  rw [filterPlace?]
  simp only [h.mask_eq, hstop, hnone, hfound, List.filter_nil, List.map_nil, List.head?_cons, List.head?_nil,
    Option.map_none, Option.getD_none, Option.bind_eq_bind, Option.bind_some, hclauses]
  rfl

/-- The limit goes in front of the conditions. -/
theorem Conditioned.addRownumFilter?_eq (h : Conditioned c d) (n : Text) :
    addRownumFilter? (listHead ++ (c ++ (whereHead ++ d))) (Text.width listHead) n =
      some (listHead ++ (c ++ (limitHead ++ (n ++ (andTail ++ ' ' :: d))))) := by
  have hslice := Text.slice?_append (listHead ++ (c ++ " WHERE".toList)) (' ' :: d) []
  rw [List.append_nil, ← Text.width_append, where_append] at hslice
  have hkept : Text.dropTrailing isBlockEnd (' ' :: d) = ' ' :: d :=
    dropTrailing_isBlockEnd fun e he => h.last e (by rwa [List.getLast?_cons_of_ne_nil h.ne_nil] at he)
  have htrailing : Text.from? (' ' :: d) (Text.width (' ' :: d)) = some [] := by
    have := Text.from?_append (' ' :: d) []
    rwa [List.append_nil] at this
  have hors := h.depthZeroMatches?_eq (p := keyword "OR")
    (avoids_keyword (by decide) (spares_append (a := [' ']) (by decide) (h.joined.mono (by simp)) (.of_ends (by decide) _)))
  have hinsert := Text.insert?_append (listHead ++ (c ++ " WHERE".toList)) (' ' :: d)
    (" ROWNUM <= ".toList ++ n ++ " AND".toList)
  rw [where_append] at hinsert
  have hout : listHead ++ (c ++ " WHERE".toList) ++ (" ROWNUM <= ".toList ++ n ++ " AND".toList ++ ' ' :: d) =
      listHead ++ (c ++ (limitHead ++ (n ++ (andTail ++ ' ' :: d)))) := by
    rw [(by decide : limitHead = " WHERE".toList ++ " ROWNUM <= ".toList)]
    simp only [List.append_assoc]
    rfl
  rw [addRownumFilter?, h.filterPlace?_eq]
  simp only [Option.bind_eq_bind, Option.bind_some, addFilterAt?, addToConditions?, hslice, hkept, htrailing,
    ← Text.width_append, where_append, hors, List.isEmpty_nil, if_true]
  rw [hinsert, hout]

end

/-! ## The rule -/

/-- Without the word in the code no `TOP` is found. -/
theorem nextTop?_of_topWords {sql : Text} (h : topWords sql = 0) : nextTop? sql = none := by
  cases hnext : nextTop? sql with
  | none => rfl
  | some m =>
    obtain ⟨n, q, c, -, hdropped⟩ := exists_topDropped (mem_of_nextTop? hnext)
    have hfewer := hdropped.fewer
    omega

theorem repeatStep_topStep_of_topWords {sql : Text} (h : topWords sql = 0) (passes : Nat) :
    repeatStep topStep passes sql = pure sql := by
  cases passes with
  | zero => rfl
  | succ passes =>
    rw [repeatStep, topStep_of_none (nextTop?_of_topWords h)]
    rfl

/-- A step puts the limit where it goes in the query without the `TOP`. -/
theorem gives_topStep {n : Nat} (hfirst : ∀ e ∈ (mask c).head?, Unicode.isBlank e = false)
    (hspares : Spares ["PERCENT", "WITH"] (mask c))
    (hadd : addRownumFilter? (listHead ++ c) (Text.width listHead) (Text.ofNat n) = some (listHead ++ c')) :
    Gives (topStep (headWord ++ (topText n ++ ' ' :: c))) (some (listHead ++ c')) := fun raised => by
  obtain ⟨m, hnext, hnumber, hdrop⟩ := exists_nextTop? hfirst hspares n
  obtain ⟨n', q, d, hnumber', hdropped⟩ := exists_topDropped (mem_of_nextTop? hnext)
  obtain rfl := Option.some.inj (hnumber'.symm.trans hnumber)
  obtain ⟨hsame, hwidth⟩ := Prod.mk.inj (Option.some.inj (hdropped.drop.symm.trans hdrop))
  obtain ⟨rfl, rfl⟩ := Text.append_inj_of_width hsame hwidth
  exact exists_run_topStep hnext hnumber hdropped hadd raised

/-- The only `TOP` of a query becomes a limit. -/
theorem gives_topToRownum {n : Nat} (hfirst : ∀ e ∈ (mask c).head?, Unicode.isBlank e = false)
    (hspares : Spares ["PERCENT", "WITH"] (mask c))
    (hadd : addRownumFilter? (listHead ++ c) (Text.width listHead) (Text.ofNat n) = some (listHead ++ c'))
    (hfree : topWords (listHead ++ c') = 0) :
    Gives (topToRownum (headWord ++ (topText n ++ ' ' :: c))) (listHead ++ c') := by
  rw [topToRownum, fixpoint, maxPasses, repeatStep]
  refine (gives_topStep hfirst hspares hadd).bind ?_
  dsimp only
  split_ifs with hsame
  · rw [← hsame]
    exact gives_pure _
  · rw [repeatStep_topStep_of_topWords hfree]
    exact gives_pure _

/-- A `TOP` becomes the limit of a query without conditions. -/
theorem Unlimited.yields_topToRownum (h : Unlimited c) (n : Nat)
    (hfree : topWords (listHead ++ (c ++ (limitHead ++ Text.ofNat n))) = 0) :
    Yields (topToRownum (headWord ++ (topText n ++ ' ' :: c)))
      (· = listHead ++ (c ++ (limitHead ++ Text.ofNat n))) :=
  ⟨_, gives_topToRownum h.first (h.spares.mono (by decide)) (h.addRownumFilter?_eq _) hfree, rfl⟩

end

end DialectBridge.ToOracle
