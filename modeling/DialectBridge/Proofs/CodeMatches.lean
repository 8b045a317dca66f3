import DialectBridge.Proofs.Logs
import DialectBridge.Proofs.MaskSegments
import DialectBridge.Proofs.WordCounts
/-!
# Words in the mask and in the code

A rule looks for a word in the mask and replaces it run of code by run of code. In the mask the ends of a run
stand next to quotes and blanks, in the run itself they are the ends of the text, and neither is of a word. So
the matches in the mask are those in the runs (`spans_findAll_mask_keyword`), and it is the same to replace the
ones from the right or the others run by run (`replaceSpans_eq_replaceCode`).
-/
namespace DialectBridge
open Pattern Text

variable {name r t : Text} {s : Segment}

/-- The bytes of the matches of `p` inside the runs of code of segments of which the first starts at offset `i`. -/
def codeSpansFrom (p : Pattern) : Nat → List Segment → List Span
  | _, [] => []
  | i, s :: more =>
    (if s.kind = .code then (p.findAll s.text).map fun m => ⟨i + m.start, i + m.stop⟩ else []) ++
      codeSpansFrom p (i + width s.text) more

/-- The bytes of the matches of `p` inside each run of code of a query. -/
def codeSpans (p : Pattern) (sql : Text) : List Span := codeSpansFrom p 0 (segments sql)

/-! ## Pieces segment by segment -/

/-- What stays of a literal, an identifier or a comment in the mask is of no word. -/
theorem isWordChar_of_mem_masked (h : s ∈ segments t) (hkind : s.kind ≠ .code) :
    ∀ c ∈ s.masked, Unicode.isWordChar c = false := by
  have hspaces : ∀ n, ∀ c ∈ spaces n, Unicode.isWordChar c = false := fun n c hc =>
    isWordChar_of_isBlank (isBlank_of_mem_spaces c hc)
  by_cases hquoted : s.kind.isQuoted = true
  · obtain ⟨q, inside, rfl, -⟩ := exists_inside h hquoted
    have hquote : Unicode.isWordChar q.char = false := by cases q <;> decide
    have hinside : ∀ c ∈ maskInside q.char inside, Unicode.isWordChar c = false := by
      obtain ⟨n, hn | hn⟩ := maskInside_eq q inside
      · rw [hn]
        exact hspaces n
      · rw [hn]
        exact List.forall_mem_append.2 ⟨hspaces n, by simpa using hquote⟩
    rw [masked_quote]
    exact List.forall_mem_cons.2 ⟨hquote, hinside⟩
  · obtain ⟨kind, text⟩ := s
    cases kind with
    | code => exact absurd rfl hkind
    | comment => exact hspaces _
    | literal | identifier => exact absurd rfl hquoted

/-- What is hidden in a text spells no word. -/
theorem not_spelled_of_hidden (hname : isName name = true) (h : s ∈ segments t) (hkind : s.kind ≠ .code) :
    ∀ q ∈ pieces s.masked, ¬ Spelled name q := by
  have hnone := isWordChar_of_mem_masked h hkind
  intro q hq hspelled
  rw [pieces_of_no_words hnone] at hq
  obtain ⟨c, hc, rfl⟩ := List.mem_map.1 hq
  have hword := hspelled.isWordChar hname c (by simp)
  rw [hnone c hc] at hword
  cases hword

/-- The pieces of masked segments that spell a word are the matches inside the runs of code. -/
theorem spansWhere_masked (hname : isName name = true) {ss : List Segment}
    (hhidden : ∀ s ∈ ss, s.kind ≠ .code → ∀ q ∈ pieces s.masked, ¬ Spelled name q) (i : Nat) :
    spansWhere (decide <| Spelled name ·) i (ss.flatMap fun s => pieces s.masked) =
      codeSpansFrom (keyword name) i ss := by
  induction ss generalizing i with
  | nil => rfl
  | cons s ss ih =>
    have hsegment : spansWhere (decide <| Spelled name ·) i (pieces s.masked) =
        if s.kind = .code then ((keyword name).findAll s.text).map fun m => ⟨i + m.start, i + m.stop⟩ else [] := by
      split_ifs with hcode
      · have hshift := spansWhere_add (decide <| Spelled name ·) i 0 (pieces s.text)
        rw [Nat.add_zero, ← spans_findAll_keyword hname, List.map_map] at hshift
        rw [masked_of_code hcode]
        exact hshift
      · exact spansWhere_eq_nil (fun q hq => decide_eq_false (hhidden s (by simp) hcode q hq)) i
    rw [List.flatMap_cons, spansWhere_append, hsegment, flatten_pieces, Segment.width_masked,
      ih fun s' hs' => hhidden s' (List.mem_cons_of_mem _ hs')]
    rfl

/-- A word is found in the mask just where it is found inside a run of code. -/
theorem spans_findAll_mask_keyword (hname : isName name = true) (sql : Text) :
    ((keyword name).findAll (mask sql)).map Match.span = codeSpans (keyword name) sql := by
  rw [spans_findAll_keyword hname, pieces_mask]
  exact spansWhere_masked hname (fun s hs => not_spelled_of_hidden hname hs) 0

theorem occursIn_mask_keyword_iff (hname : isName name = true) (sql : Text) :
    (keyword name).occursIn (mask sql) = true ↔
      ∃ s ∈ segments sql, s.kind = .code ∧ (keyword name).occursIn s.text = true := by
  simp only [occursIn_keyword_iff hname, pieces_mask, List.mem_flatMap]
  constructor
  · rintro ⟨q, ⟨s, hs, hq⟩, hspelled⟩
    by_cases hcode : s.kind = .code
    · exact ⟨s, hs, hcode, q, by rwa [← masked_of_code hcode], hspelled⟩
    · exact absurd hspelled (not_spelled_of_hidden hname hs hcode q hq)
  · rintro ⟨s, hs, hcode, q, hq, hspelled⟩
    exact ⟨q, ⟨s, hs, by rwa [masked_of_code hcode]⟩, hspelled⟩

/-! ## The two ways to replace a word -/

theorem run_replaceSpans_keyword {σ : Type} (hname : isName name = true) (hr : '$' ∉ r) (sql : Text) (log : σ) :
    (replaceSpans sql (keyword name) fun _ => pure (some r) : Editing σ Text).run log =
      some (replaceCode (keyword name) r sql, log) := by
  obtain ⟨-, -, hleads, -⟩ := @exists_replaceSpans_of_pure σ sql (keyword name) (fun _ => pure (some r))
    (fun _ => some r) (framed_keyword hname) fun _ _ => rfl
  obtain ⟨log', hrun⟩ := (gives_replaceSpans_keyword hname hr sql).1 log
  rw [hrun, hleads log _ _ hrun]

/-- It is the same to replace a word inside each run of code or in the masked query, where it has the same matches. -/
theorem replaceSpans_eq_replaceCode {σ : Type} (hname : isName name = true) (hr : '$' ∉ r) (sql : Text) (log : σ) :
    (replaceSpans sql (keyword name) fun _ => pure (some r) : Editing σ Text).run log =
        some (replaceCode (keyword name) r sql, log) ∧
      ((keyword name).findAll (mask sql)).map Match.span = codeSpans (keyword name) sql ∧
      ((keyword name).occursIn (mask sql) = true ↔
        ∃ s ∈ segments sql, s.kind = .code ∧ (keyword name).occursIn s.text = true) :=
  ⟨run_replaceSpans_keyword hname hr sql log, spans_findAll_mask_keyword hname sql, occursIn_mask_keyword_iff hname sql⟩

/-- A word between a literal and a comment that hold it too. -/
theorem replaceSpans_eq_replaceCode_quoted :
    isName "ROWNUM".toList = true ∧ '$' ∉ "N".toList ∧
      (replaceSpans "a'ROWNUM'RowNum--ROWNUM".toList (keyword "ROWNUM".toList) fun _ => pure (some "N".toList) :
        Editing Nat Text).run 0 = some ("a'ROWNUM'N--ROWNUM".toList, 0) ∧
      ((keyword "ROWNUM".toList).findAll (mask "a'ROWNUM'RowNum--ROWNUM".toList)).map Match.span = [⟨9, 15⟩] ∧
      ∃ s ∈ segments "a'ROWNUM'RowNum--ROWNUM".toList, s.kind = .code ∧
        (keyword "ROWNUM".toList).occursIn s.text = true := by
  have hname : isName "ROWNUM".toList = true := by decide +kernel
  have hr : '$' ∉ "N".toList := by decide
  obtain ⟨hrun, hspans, hoccurs⟩ :=
    replaceSpans_eq_replaceCode hname hr "a'ROWNUM'RowNum--ROWNUM".toList (0 : Nat)
  have hcode : replaceCode (keyword "ROWNUM".toList) "N".toList "a'ROWNUM'RowNum--ROWNUM".toList =
      "a'ROWNUM'N--ROWNUM".toList := by decide +kernel
  have hcodeSpans : codeSpans (keyword "ROWNUM".toList) "a'ROWNUM'RowNum--ROWNUM".toList = [⟨9, 15⟩] := by
    decide +kernel
  rw [hcode] at hrun
  rw [hcodeSpans] at hspans
  exact ⟨hname, hr, hrun, hspans, hoccurs.1 (by decide +kernel)⟩

end DialectBridge
