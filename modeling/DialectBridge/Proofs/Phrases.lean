import DialectBridge.Proofs.Blocks
import DialectBridge.ToOracle.Clauses
/-!
# Phrases

The clauses of a query are headed by one word or by two with white space between them. What such a
pattern takes does not depend on the text around it, as long as no word goes on there
(`TakesPhrases.congr`), and a block in which it could take a phrase outside of all parentheses has a
match there, or one that begins before (`TakesPhrases.exists_mem_zeroMatches`).
-/
namespace DialectBridge
open Pattern

/-- A condition on places that looks only at whether a word goes on. -/
def AsksForEdges (p : Pattern) : Prop := ∀ a ∈ p.checks, a = .wordEdge .word

/-- What is taken is taken between other texts too, if words go on or not as before. -/
theorem Pattern.Matches.congr_edges {p : Pattern} (hp : AsksForEdges p) {u w v u' v' : Text}
    (h : Matches p u w v) (hu : endsInWord u' = endsInWord u)
    (hv : beginsInWord v' = beginsInWord v) : Matches p u' w v' := by
  obtain ⟨g, g', hw⟩ := h
  refine ⟨g, hw.congr (fun a ha i j hij => ?_) g⟩
  rw [hp a ha]
  have hleft : endsInWord (u' ++ i) = endsInWord (u ++ i) := by
    by_cases hi : i = []
    · rw [hi, List.append_nil, List.append_nil, hu]
    · rw [endsInWord_append hi, endsInWord_append hi]
  have hright : beginsInWord (j ++ v') = beginsInWord (j ++ v) := by
    by_cases hj : j = []
    · rw [hj, List.nil_append, List.nil_append, hv]
    · rw [beginsInWord_append hj, beginsInWord_append hj]
  show (endsInWord (u ++ i) != beginsInWord (j ++ v)) =
    (endsInWord (u' ++ i) != beginsInWord (j ++ v'))
  rw [hleft, hright]

/-- Whether a pattern takes words and white space between two places at which no word goes on. -/
structure TakesPhrases (p : Pattern) : Prop where
  edges : AsksForEdges p
  takes : ∀ u w v, Matches p u w v → beginsInWord w = true ∧ endsInWord w = true ∧
    (∀ c ∈ w, Unicode.isWordChar c = true ∨ Unicode.isBlank c = true) ∧
    endsInWord u = false ∧ beginsInWord v = false

theorem ne_nil_of_beginsInWord {w : Text} (h : beginsInWord w = true) : w ≠ [] := by
  rintro rfl
  simp at h

theorem depth_of_isWordChar_or_isBlank {t : Text}
    (h : ∀ c ∈ t, Unicode.isWordChar c = true ∨ Unicode.isBlank c = true) : depth t = 0 := by
  refine depth_of_not_mem (fun hm => ?_) fun hm => ?_ <;>
  · rcases h _ hm with hc | hc <;> exact absurd hc (by decide)

namespace TakesPhrases
variable {p : Pattern}

theorem consuming (hp : TakesPhrases p) : p.Consuming := fun u w v h =>
  ne_nil_of_beginsInWord (hp.takes u w v h).1

theorem congr (hp : TakesPhrases p) {u w v u' v' : Text} (h : Matches p u w v)
    (hu : endsInWord u' = false) (hv : beginsInWord v' = false) : Matches p u' w v' := by
  obtain ⟨-, -, -, hu', hv'⟩ := hp.takes u w v h
  exact h.congr_edges hp.edges (hu.trans hu'.symm) (hv.trans hv'.symm)

/-- A phrase outside of all parentheses is a match of the block, or begins inside of one. -/
theorem exists_mem_zeroMatches (hp : TakesPhrases p) {u w v : Text} (h : Matches p u w v)
    (hd : depth u = 0) :
    ∃ m ∈ zeroMatches p (u ++ (w ++ v)), m.start ≤ Text.width u ∧ Text.width u < m.stop := by
  obtain ⟨g, g', hw⟩ := h
  obtain ⟨m, hm⟩ := Option.isSome_iff_exists.1
    (isSome_matchAt?_iff.2 ⟨w, v, g, g', rfl, hw⟩ :
      (p.matchAt? (Cursor.between u (w ++ v))).isSome = true)
  obtain ⟨w', v', hwv, hfirst, hlast, hw'⟩ := matchAt?_eq_some hm
  have hstart : m.start = Text.width u := by simp [Match.start, hfirst]
  rcases mem_findAll_or_exists hp.consuming hm with hfound | ⟨m', hfound, hlt, hgt⟩
  · refine ⟨m, List.mem_filter.2 ⟨hfound, by simpa [hfirst, depth] using hd⟩, Nat.le_of_eq hstart, ?_⟩
    have hpos := Text.width_pos (hp.consuming _ _ _ ⟨_, _, hw'⟩)
    simp only [Match.stop, hlast, Cursor.offset_between, Text.width_append]
    omega
  · -- no parenthesis stands between the two places
    rw [hstart] at hlt hgt
    refine ⟨m', List.mem_filter.2 ⟨hfound, ?_⟩, Nat.le_of_lt hlt, hgt⟩
    obtain ⟨u', x', ht, hat⟩ := exists_of_mem_findAll hfound
    obtain ⟨w', v', rfl, hfirst', hlast', hw'⟩ := matchAt?_eq_some hat
    simp only [Match.start, Match.stop, hfirst', hlast', Cursor.offset_between,
      Text.width_append] at hlt hgt
    obtain ⟨a, rfl, ha⟩ := Text.exists_of_width_le ht.symm (Nat.le_of_lt hlt)
    obtain ⟨b, rfl, -⟩ := Text.exists_of_width_le ha.symm (by simp at hgt; omega)
    obtain ⟨-, -, hchars, -, -⟩ := hp.takes _ _ _ ⟨_, _, hw'⟩
    have hz : depth a = 0 :=
      depth_of_isWordChar_or_isBlank fun c hc => hchars c (List.mem_append_left _ hc)
    rw [depth_append, hz, Int.add_zero] at hd
    simpa [hfirst', depth] using hd

end TakesPhrases

/-! ## Clauses -/

structure IsPhrase (w : Text) : Prop where
  begins : beginsInWord w = true
  ends : endsInWord w = true
  chars : ∀ c ∈ w, Unicode.isWordChar c = true ∨ Unicode.isBlank c = true

theorem isPhrase_of_spelled {t w : Text} (ht : isName t = true) (h : Spelled t w) : IsPhrase w :=
  ⟨by simpa using h.beginsInWord ht [], by simpa using h.endsInWord ht [],
    fun c hc => .inl (h.isWordChar ht c hc)⟩

theorem isPhrase_of_matches {s t u w v : Text} (hs : isName s = true) (ht : isName t = true)
    (h : Matches (word s ++ blanks1 ++ word t) u w v) : IsPhrase w := by
  obtain ⟨x, b, rfl, hx, hb⟩ := matches_seq.1 h
  obtain ⟨a, m, rfl, ha, hm⟩ := matches_seq.1 hx
  rw [matches_word] at ha hb
  rw [matches_blanks1] at hm
  obtain ⟨hbegins, -, hchars⟩ := isPhrase_of_spelled hs ha
  obtain ⟨-, hends, hchars'⟩ := isPhrase_of_spelled ht hb
  refine ⟨?_, ?_, ?_⟩
  · rw [List.append_assoc, beginsInWord_append (ha.ne_nil hs), hbegins]
  · rw [endsInWord_append (hb.ne_nil ht), hends]
  · intro c hc
    rcases List.mem_append.1 hc with hc | hc
    · rcases List.mem_append.1 hc with hc | hc
      · exact hchars c hc
      · exact .inr (hm.2 c hc)
    · exact hchars' c hc

theorem takesPhrases_of_isPhrase {q : Pattern} (hchecks : q.checks = [])
    (hq : ∀ u w v, Matches q u w v → IsPhrase w) : TakesPhrases (edge ++ q ++ edge) := by
  have hedges : (edge ++ q ++ edge).checks = [.wordEdge .word] ++ q.checks ++ [.wordEdge .word] :=
    rfl
  refine ⟨fun a ha => by simpa [hedges, hchecks] using ha, fun u w v h => ?_⟩
  rw [matches_between_edges fun u w v h => ⟨(hq u w v h).begins, (hq u w v h).ends⟩] at h
  exact ⟨(hq u w v h.1).begins, (hq u w v h.1).ends, (hq u w v h.1).chars, h.2⟩

theorem takesPhrases_afterFrom : TakesPhrases ToOracle.afterFrom := by
  refine takesPhrases_of_isPhrase rfl fun u w v h => ?_
  simp only [matches_oneOf, List.mem_cons, List.not_mem_nil, or_false, exists_eq_or_imp,
    exists_eq_left] at h
  rcases h with h | h | h | h
  · exact isPhrase_of_spelled (by decide) (matches_word.1 h)
  · exact isPhrase_of_matches (by decide) (by decide) h
  · exact isPhrase_of_spelled (by decide) (matches_word.1 h)
  · exact isPhrase_of_matches (by decide) (by decide) h

def clausePhrase : Pattern :=
  oneOf ["GROUP" ++ blanks1 ++ "BY", "HAVING", "ORDER" ++ blanks1 ++ "BY", "UNION", "INTERSECT",
    "EXCEPT", "MINUS", "OFFSET", "FETCH"]

theorem afterWhere_eq : ToOracle.afterWhere = edge ++ clausePhrase ++ edge := rfl

theorem isPhrase_of_clausePhrase {u w v : Text} (h : Matches clausePhrase u w v) : IsPhrase w := by
  simp only [clausePhrase, matches_oneOf, List.mem_cons, List.not_mem_nil, or_false,
    exists_eq_or_imp, exists_eq_left] at h
  rcases h with h | h | h | h | h | h | h | h | h
  · exact isPhrase_of_matches (by decide) (by decide) h
  · exact isPhrase_of_spelled (by decide) (matches_word.1 h)
  · exact isPhrase_of_matches (by decide) (by decide) h
  all_goals exact isPhrase_of_spelled (by decide) (matches_word.1 h)

theorem takesPhrases_afterWhere : TakesPhrases ToOracle.afterWhere :=
  takesPhrases_of_isPhrase rfl fun _ _ _ => isPhrase_of_clausePhrase

/-- A set operator is one of the clauses. -/
theorem matches_afterWhere_of_isSetOperator {u w v : Text} (hw : isSetOperator w = true)
    (hu : endsInWord u = false) (hv : beginsInWord v = false) :
    Matches ToOracle.afterWhere u w v := by
  rw [afterWhere_eq, matches_between_edges fun u w v h =>
    ⟨(isPhrase_of_clausePhrase h).begins, (isPhrase_of_clausePhrase h).ends⟩]
  refine ⟨?_, hu, hv⟩
  simp only [isSetOperator, List.any_cons, List.any_nil, Bool.or_false, Bool.or_eq_true,
    decide_eq_true_eq] at hw
  simp only [clausePhrase, matches_oneOf, List.mem_cons, List.not_mem_nil, or_false,
    exists_eq_or_imp, exists_eq_left]
  rcases hw with hw | hw | hw | hw
  · exact .inr (.inr (.inr (.inl (matches_word.2 hw))))
  · exact .inr (.inr (.inr (.inr (.inl (matches_word.2 hw)))))
  · exact .inr (.inr (.inr (.inr (.inr (.inl (matches_word.2 hw))))))
  · exact .inr (.inr (.inr (.inr (.inr (.inr (.inl (matches_word.2 hw)))))))

def clauseHeads : Text := ['G', 'H', 'O', 'U', 'I', 'E', 'M', 'F'].flatMap Unicode.caseVariants

theorem mem_clauseHeads_of_spelled {c : Char} {t w v : Text} {e : Char}
    (hc : c ∈ ['G', 'H', 'O', 'U', 'I', 'E', 'M', 'F']) (h : Spelled (c :: t) w)
    (he : (w ++ v).head? = some e) : e ∈ clauseHeads := by
  cases h with
  | cons hd _ =>
    obtain rfl := Option.some.inj he
    exact List.mem_flatMap.2 ⟨c, hc, hd⟩

theorem mem_clauseHeads {u w v : Text} {e : Char} (h : Matches ToOracle.afterWhere u w v)
    (he : w.head? = some e) : e ∈ clauseHeads := by
  have hphrase : ∀ {c : Char} {s t : Text}, c ∈ ['G', 'H', 'O', 'U', 'I', 'E', 'M', 'F'] →
      Matches (word (c :: s) ++ blanks1 ++ word t) u w v → e ∈ clauseHeads := by
    intro c s t hc h
    obtain ⟨x, b, rfl, hx, -⟩ := matches_seq.1 h
    obtain ⟨a, m, rfl, ha, -⟩ := matches_seq.1 hx
    rw [List.append_assoc] at he
    exact mem_clauseHeads_of_spelled hc (matches_word.1 ha) he
  have hword : ∀ {c : Char} {s : Text}, c ∈ ['G', 'H', 'O', 'U', 'I', 'E', 'M', 'F'] →
      Matches (word (c :: s)) u w v → e ∈ clauseHeads := by
    intro c s hc h
    rw [← List.append_nil w] at he
    exact mem_clauseHeads_of_spelled hc (matches_word.1 h) he
  have h := h.of_between_edges
  simp only [matches_oneOf, List.mem_cons, List.not_mem_nil, or_false, exists_eq_or_imp,
    exists_eq_left] at h
  rcases h with h | h | h | h | h | h | h | h | h
  · exact hphrase (by decide) h
  · exact hword (by decide) h
  · exact hphrase (by decide) h
  all_goals exact hword (by decide) h

end DialectBridge
