import DialectBridge.Proofs.FilterPlace
/-!
# Row limits are kept

`topStep` takes the limit out of the heading of a block and puts it into the conditions. It looks
for the place in the masked query but trims the end of the conditions and of the block in the query
itself, so that what it puts in can land in a comment or behind an open quote.
`topStep_limit_iff` says that just then the limit, or the parenthesis that closes the conditions,
is lost.
-/
namespace DialectBridge.ToOracle
open Pattern LexState

/-- The number of times that the block whose select list starts at `body` asks for
`ROWNUM <= n`. -/
def limits? (sql n : Text) (body : Nat) : Option Nat :=
  (Text.from? (mask sql) body).map fun t => countLimits n (surface 0 (tokens t))

/-- Whether what is added at a place lands in code, and puts no limit of the same number into
parentheses. -/
def limitLands? (sql n : Text) : FilterPlace → Option Bool
  | .conditions start stop => do
    let before ← Text.upTo? sql start
    let kept := Text.dropTrailing isBlockEnd (← Text.slice? sql start stop)
    let ors ← depthZeroMatches? (mask sql) start (start + Text.width kept) (keyword "OR")
    return ors.isEmpty || (code.after (before ++ kept)).live &&
      countLimits n (surface 0 (tokens (mask kept))) == 0
  | .clause _ => some true
  | .atEnd body stop => do
    let before ← Text.upTo? sql body
    let content := Text.dropTrailing isBlockEnd (← Text.slice? sql body stop)
    return (code.after (before ++ content ++ separator content)).live

/-! ## Limits in a select list -/

/-- The select list `c'` behind the heading `q` asks for one more limit than `c`, in a query that is
well-nested. -/
def Kept (n q c c' : Text) : Prop :=
  countLimits n (surface 0 (tokens (mask c'))) = countLimits n (surface 0 (tokens (mask c))) + 1 ∧
    WellNested (mask (q ++ c'))

theorem wellNested_heading_iff {q : Text} (hq : code.after q = code) (c : Text) :
    WellNested (mask (q ++ c)) ↔
      ∃ i, nest 0 (mask q) = some i ∧ nest i (tokens (mask c)).flatten = some 0 := by
  rw [mask_append (by rw [hq]; exact joins_code c), wellNested_iff, nest_append,
    Option.bind_eq_some_iff]
  simp only [nest_tokens]

theorem LimitAdded.kept {n q c c' : Text} (hq : code.after q = code)
    (hnested : WellNested (mask (q ++ c)))
    (h : LimitAdded n (tokens (mask c)) (tokens (mask c'))) : Kept n q c c' := by
  refine ⟨h.count, ?_⟩
  rw [wellNested_heading_iff hq] at hnested ⊢
  simpa only [h.nest] using hnested

/-- No limit goes on behind a block or before a clause. -/
theorem continuesNoLimit_rest {n tail r : Text} (hn : IsNumeral n)
    (htail : ∀ e ∈ tail, isBlockEnd e = true) (hr : ∀ e ∈ r.head?, e = ')' ∨ e ∈ clauseHeads) :
    ContinuesNoLimit n (surface 0 (tokens (mask (tail ++ r)))) := by
  have hstop : ∀ e, e = ')' ∨ e ∈ clauseHeads →
      Unicode.isBlank e = false ∧ e ≠ '<' ∧ e ≠ '=' ∧ Unicode.isDigit e = false := by
    have key : (')' :: clauseHeads).all (fun e => !Unicode.isBlank e && e != '<' && e != '=' &&
        !Unicode.isDigit e) = true := by decide
    intro e he
    have := List.all_eq_true.1 key e (List.mem_cons.2 he)
    simpa [and_assoc] using this
  refine continuesNoLimit_of_head hn ?_
  rw [mask_blockEnds_append htail]
  induction tail with
  | nil =>
    cases r with
    | nil => simp
    | cons e r =>
      obtain ⟨hblank, hrest⟩ := hstop e (hr e rfl)
      rw [mask_cons_of_isPlain (isPlain_of_stop (hr e rfl)), List.nil_append,
        List.dropWhile_cons_of_neg (by simp [hblank])]
      simpa using hrest
  | cons e tail ih =>
    cases hblank : Unicode.isBlank e with
    | true =>
      rw [List.cons_append, List.dropWhile_cons_of_pos hblank]
      exact ih fun z hz => htail z (by simp [hz])
    | false =>
      have he := htail e (by simp)
      simp only [isBlockEnd, hblank, Bool.false_or, beq_iff_eq] at he
      subst he
      rw [List.cons_append, List.dropWhile_cons_of_neg (by decide)]
      intro z hz
      obtain rfl := Option.some.inj hz
      decide

section
variable {n q : Text} (hn : IsNumeral n) (hq : code.after q = code)
include hn hq

/-- The condition in front of conditions is kept. -/
theorem kept_and {p t r : Text} (h : Conditions p t r)
    (hnested : WellNested (mask (q ++ (p ++ (t ++ r))))) :
    Kept n q (p ++ (t ++ r)) (p ++ (andText n ++ (t ++ r))) :=
  (limitAdded_and hn h.behind h.walk_left h.ends h.right).kept hq hnested

/-- The condition in front of conditions in parentheses is kept if the parentheses are closed in
code, and if no limit of the same number is in them. -/
theorem kept_open_iff {p kept tail r : Text} (h : Conditions p (kept ++ tail) r)
    (htail : ∀ e ∈ tail, isBlockEnd e = true)
    (hnested : WellNested (mask (q ++ (p ++ (kept ++ tail ++ r))))) :
    Kept n q (p ++ (kept ++ tail ++ r)) (p ++ (openText n ++ (Text.trimStart kept ++
        ')' :: (tail ++ r)))) ↔
      (code.after kept).live = true ∧ countLimits n (surface 0 (tokens (mask kept))) = 0 := by
  rw [List.append_assoc] at hnested ⊢
  cases hlive : (code.after kept).live with
  | true =>
    have hjoins : (code.after kept).joins tail = true :=
      joins_of_head?_isPlain hlive fun e he => isPlain_of_isBlockEnd (htail e (List.mem_of_head? he))
    have hmask : mask (kept ++ tail) = mask kept ++ tail := by
      rw [mask_append hjoins, mask_of_all_isPlain fun e he => isPlain_of_isBlockEnd (htail e he)]
    have htailWord : beginsInWord tail = false := by
      have := beginsInWord_append_blockEnds htail (u := []) rfl
      rwa [List.append_nil] at this
    have hwalk : walk 0 (tokens (mask kept)) = some 0 := by
      have := h.walk (mask q) (by
        rwa [mask_append (by rw [hq]; exact joins_code _), ← List.append_assoc kept] at hnested)
      rw [hmask, tokens_append (.of_begins htailWord _), walk_append] at this
      obtain ⟨j, hj, hrest⟩ := Option.bind_eq_some_iff.1 this
      rw [walk_other (isOther_of_semicolons fun p hp => eq_semicolon_of_mem_tokens htail hp)] at hrest
      rwa [Option.some.inj hrest] at hj
    obtain ⟨hcount, hnest⟩ := enclose_of_live hn h.behind hlive h.walk_left h.ends hwalk h.right_kept
      (h.isPlain_rest htail) (h.apart_kept htail)
      (continuesNoLimit_rest hn htail fun e he => (h.stop e he).2)
    constructor
    · rintro ⟨hmore, -⟩
      exact ⟨rfl, by omega⟩
    · rintro ⟨-, hzero⟩
      exact LimitAdded.kept hq hnested ⟨by omega, hnest⟩
  | false =>
    refine iff_of_false ?_ (by simp)
    rintro ⟨-, hnested'⟩
    rw [wellNested_heading_iff hq] at hnested hnested'
    obtain ⟨i, hi, hnest⟩ := hnested
    obtain ⟨j, hj, hnest'⟩ := hnested'
    obtain rfl : i = j := Option.some.inj (hi.symm.trans hj)
    rw [enclose_of_not_live hn h.behind hlive h.right_kept (h.isPlain_rest htail)
      (h.beginsInWord_rest htail hlive) hnest] at hnest'
    simp at hnest'

/-- The condition at the end of a block is kept if it lands in code. -/
theorem kept_atEnd_iff {content tail d : Text} (h : PlainBlock (content ++ tail) d)
    (htail : ∀ e ∈ tail, isBlockEnd e = true) (hnested : WellNested (mask (q ++ (content ++ tail ++ d)))) :
    Kept n q (content ++ tail ++ d)
        (content ++ (separator content ++ (whereText n ++ (tail ++ d)))) ↔
      ((code.after content).after (separator content)).live = true := by
  rw [List.append_assoc] at hnested ⊢
  cases hlive : ((code.after content).after (separator content)).live with
  | true =>
    refine iff_of_true ?_ rfl
    have hpass : (code.after content).live = true ∨
        code.after content = line ∧ separator content = ['\n'] := live_after_separator.1 hlive
    have hwalk : walk 0 (tokens (mask content)) = some 0 := by
      have hmask : mask (content ++ tail) = mask content ++ maskFrom (code.after content) tail := by
        refine mask_append_maskFrom (hpass.imp (fun hpass => ?_) And.left)
        exact joins_of_head?_isPlain hpass fun c hc => isPlain_of_isBlockEnd
          (htail c (List.mem_of_head? hc))
      rw [mask_append (by rw [hq]; exact joins_code _)] at hnested
      rw [← List.append_assoc] at hnested
      exact hnested.walk_tokens_of_ends (h.cut.mask_left.symm.trans hmask)
        (isBlockEnd_of_mem_maskFrom htail)
    have hadded := limitAdded_atEnd hn (hpass.imp id And.left) (joins_separator hlive)
      (fun c hc => isBlank_of_mem_separator hc) (separator_ne_nil content) hwalk htail h.stop
      h.live_of_ne_nil
    exact hadded.kept hq (by simpa only [List.append_assoc] using hnested)
  | false =>
    refine iff_of_false ?_ (by simp)
    rintro ⟨hcount, -⟩
    have hdead : (code.after content).live = false := by
      by_contra hlive'
      rw [live_after_separator.2 (.inl (by simpa using hlive'))] at hlive
      exact absurd hlive (by decide)
    rw [countLimits_atEnd_of_not_live hn hdead (fun c hc => isDull_of_mem_separator hlive hc) htail
      h.stop] at hcount
    omega

/-- The condition that is put in is kept if it lands in code. -/
theorem FilterAdded.kept_iff {c c' : Text} {place : FilterPlace} (h : FilterAdded n q c place c')
    (hnested : WellNested (mask (q ++ c))) :
    ∃ lands, limitLands? (q ++ c) n place = some lands ∧ (Kept n q c c' ↔ lands = true) := by
  cases h with
  | @conditions p kept tail r ors h hkept htail hors =>
    obtain ⟨hslice, hbefore⟩ := cuts_conditions q p (kept ++ tail) r
    have hlive : code.after (q ++ p ++ kept) = code.after kept := by
      rw [after_append, after_append, hq, h.behind]
    refine ⟨ors.isEmpty || (code.after kept).live &&
      countLimits n (surface 0 (tokens (mask kept))) == 0, ?_, ?_⟩
    · simp only [limitLands?, hslice, hbefore, hkept, hors, hlive, Option.bind_eq_bind,
        Option.bind_some]
      rfl
    · cases hempty : ors.isEmpty with
      | true =>
        rw [if_pos rfl]
        exact iff_of_true (kept_and hn hq h hnested) rfl
      | false =>
        rw [if_neg Bool.false_ne_true, kept_open_iff hn hq h htail hnested]
        simp
  | @clause p s s' r h hs hs' hne hlive =>
    have hcontinues : ContinuesNoLimit n (surface 0 (tokens (mask r))) := by
      refine continuesNoLimit_rest (r := r) hn (List.forall_mem_nil _) ?_
      obtain ⟨e, r', rfl, he⟩ := h.head
      rintro _ ⟨⟩
      exact .inr he
    have hadded := limitAdded_before hn h.live h.walk h.left hs hs' hne
      (joins_of_head?_isPlain hlive h.isPlain_head) h.isPlain_head hcontinues
    exact ⟨true, rfl, iff_of_true (hadded.kept hq hnested) rfl⟩
  | @atEnd content tail d h hcontent htail =>
    have hslice := Text.slice?_between q (content ++ tail) d
    have hafter : code.after (q ++ content ++ separator content) =
        (code.after content).after (separator content) := by
      rw [after_append, after_append, hq]
    refine ⟨((code.after content).after (separator content)).live, ?_,
      kept_atEnd_iff hn hq h htail hnested⟩
    simp only [limitLands?, hslice, Text.upTo?_append, hcontent, hafter, Option.bind_eq_bind,
      Option.bind_some]
    rfl

end

/-! ## Moving a limit -/

/-- What one step does to the next `TOP` clause. -/
theorem topStep_limit_iff {sql next : Text} {raised raised' : List Warning}
    (hnested : WellNested (mask sql))
    (h : (topStep sql).run raised = some (some next, raised')) :
    ∃ m n dropped body place lands count count',
      nextTop? sql = some m ∧ (m.group? 2).or (m.group? 3) = some n ∧
      dropTop? sql m = some (dropped, body) ∧ filterPlace? dropped body = some place ∧
      limitLands? dropped n place = some lands ∧
      limits? sql n m.stop = some count ∧ limits? next n body = some count' ∧
      (count' = count + 1 ∧ WellNested (mask next) ↔ lands = true) := by
  cases hnext : nextTop? sql with
  | none =>
    rw [topStep_of_none hnext] at h
    simp at h
  | some m =>
    obtain ⟨n, q, c, hnumber, hdropped⟩ := exists_topDropped (mem_of_nextTop? hnext)
    obtain ⟨place, c', hplace, hadd, hadded⟩ := exists_filterAdded n hdropped.behind hdropped.blank c
    obtain ⟨lands, hlands, hkept⟩ := hadded.kept_iff hdropped.number hdropped.behind
      (hdropped.nested hnested)
    obtain ⟨raised'', hrun⟩ := exists_run_topStep hnext hnumber hdropped hadd raised
    obtain rfl : q ++ c' = next := by
      rw [hrun] at h
      simpa using congrArg (Option.map Prod.fst) h
    refine ⟨m, n, q ++ c, Text.width q, place, lands, _, _, rfl, hnumber, hdropped.drop, hplace,
      hlands, by rw [limits?, hdropped.rest]; rfl, ?_, hkept⟩
    rw [limits?, mask_append (by rw [hdropped.behind]; exact joins_code c'), ← width_mask,
      Text.from?_append]
    rfl

theorem topStep_limit_or :
    WellNested (mask "SELECT TOP 5 x FROM t WHERE a OR b UNION SELECT y FROM u".toList) ∧
      (topStep "SELECT TOP 5 x FROM t WHERE a OR b UNION SELECT y FROM u".toList).run [] =
        some (some "SELECT x FROM t WHERE ROWNUM <= 5 AND (a OR b) UNION SELECT y FROM u".toList, []) ∧
      ∃ m n dropped body place lands count count',
        nextTop? "SELECT TOP 5 x FROM t WHERE a OR b UNION SELECT y FROM u".toList = some m ∧
        (m.group? 2).or (m.group? 3) = some n ∧
        dropTop? "SELECT TOP 5 x FROM t WHERE a OR b UNION SELECT y FROM u".toList m =
          some (dropped, body) ∧
        filterPlace? dropped body = some place ∧ limitLands? dropped n place = some lands ∧
        limits? "SELECT TOP 5 x FROM t WHERE a OR b UNION SELECT y FROM u".toList n m.stop =
          some count ∧
        limits? "SELECT x FROM t WHERE ROWNUM <= 5 AND (a OR b) UNION SELECT y FROM u".toList n body =
          some count' ∧
        (count' = count + 1 ∧
          WellNested (mask "SELECT x FROM t WHERE ROWNUM <= 5 AND (a OR b) UNION SELECT y FROM u".toList)
            ↔ lands = true) :=
  have hnested : WellNested (mask "SELECT TOP 5 x FROM t WHERE a OR b UNION SELECT y FROM u".toList) := by
    rw [String.toList_ofList]
    decide +kernel
  have hrun : (topStep "SELECT TOP 5 x FROM t WHERE a OR b UNION SELECT y FROM u".toList).run [] =
      some (some "SELECT x FROM t WHERE ROWNUM <= 5 AND (a OR b) UNION SELECT y FROM u".toList, []) := by
    repeat rewrite [String.toList_ofList]
    decide +kernel
  ⟨hnested, hrun, topStep_limit_iff hnested hrun⟩

/-- A limit that lands behind a comment is lost. -/
theorem topStep_comment :
    WellNested (mask "SELECT TOP 5 x FROM t -- c".toList) ∧
      (topStep "SELECT TOP 5 x FROM t -- c".toList).run [] =
        some (some "SELECT x FROM t -- c WHERE ROWNUM <= 5".toList, []) ∧
      (nextTop? "SELECT TOP 5 x FROM t -- c".toList).map Match.stop = some 13 ∧
      limits? "SELECT TOP 5 x FROM t -- c".toList "5".toList 13 = some 0 ∧
      limits? "SELECT x FROM t -- c WHERE ROWNUM <= 5".toList "5".toList 7 = some 0 := by
  repeat rewrite [String.toList_ofList]
  decide +kernel

end DialectBridge.ToOracle
