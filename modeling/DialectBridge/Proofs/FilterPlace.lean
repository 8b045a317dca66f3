import DialectBridge.Proofs.RowFilter
/-!
# Where the condition of a row limit goes

`addRownumFilter?` looks for the place in the masked query but trims the end of the conditions and
of the block in the query itself. `exists_filterAdded` says what it makes of a select list: it puts
`ROWNUM <= n` in front of conditions, in front of conditions in parentheses, before a clause or at
the end of a block, and always has a result.
-/
namespace DialectBridge.ToOracle
open Pattern LexState

/-! ## Places -/

/-- The conditions `t` behind a `WHERE`, which ends `p`; `r` is what follows on them. -/
structure Conditions (p t r : Text) : Prop where
  word : ∃ u w, p = u ++ w ∧ Spelled "WHERE".toList w
  behind : code.after p = code
  walk_left : walk 0 (tokens (mask p)) = some 0
  ends : EndsNoLimit (surface 0 (tokens (mask p)))
  right : beginsInWord (t ++ r) = false
  walk : ∀ a, WellNested (a ++ mask (p ++ (t ++ r))) → walk 0 (tokens (mask t)) = some 0
  apart : Apart (mask t) (mask r)
  stop : ∀ e ∈ r.head?, (code.after t).live = true ∧ (e = ')' ∨ e ∈ clauseHeads)

/-- A clause at the start of `r`; `p` is the block before it. -/
structure BeforeClause (p r : Text) : Prop where
  live : (code.after p).live = true
  walk : walk 0 (tokens (mask p)) = some 0
  left : endsInWord (mask p) = false
  head : ∃ e r', r = e :: r' ∧ e ∈ clauseHeads

/-- A block `t` with no conditions and no clause, and what follows on it. -/
structure PlainBlock (t d : Text) : Prop where
  cut : BlockCut (t ++ d) t d
  stop : ∀ e ∈ d.head?, e = ')'

/-- Where the condition goes in the select list `c` behind the heading `q`. -/
inductive PlaceIn (q : Text) : Text → FilterPlace → Prop where
  | conditions {p t r : Text} : Conditions p t r →
      PlaceIn q (p ++ (t ++ r)) (.conditions (Text.width (q ++ p)) (Text.width (q ++ (p ++ t))))
  | clause {p r : Text} : BeforeClause p r → PlaceIn q (p ++ r) (.clause (Text.width (q ++ p)))
  | atEnd {t d : Text} : PlainBlock t d →
      PlaceIn q (t ++ d) (.atEnd (Text.width q) (Text.width (q ++ t)))

theorem walk_tokens_right {a b : Text} (h : walk 0 (tokens (a ++ b)) = some 0) (hab : Apart a b)
    (ha : walk 0 (tokens a) = some 0) : walk 0 (tokens b) = some 0 := by
  rwa [tokens_append hab, walk_append, ha, Option.bind_some] at h

/-- The keyword that ends `p` is the `WHERE` of a block; `t` is the rest of the block. -/
structure WhereWord (p t : Text) : Prop where
  word : ∃ u w, p = u ++ w ∧ Spelled "WHERE".toList w
  behind : code.after p = code
  walk : walk 0 (tokens (mask p)) = some 0
  ends : EndsNoLimit (surface 0 (tokens (mask p)))
  last : endsInWord (mask p) = true
  right : beginsInWord t = false
  depth : depth (mask p) = 0

theorem WhereWord.mask_eq {p t : Text} (h : WhereWord p t) : mask (p ++ t) = mask p ++ mask t :=
  mask_append (by rw [h.behind]; exact joins_code t)

theorem exists_whereWord {c b d : Text} {m : Match} (hcut : BlockCut c b d)
    (hm : m ∈ zeroMatches (keyword "WHERE") (blockText (mask c))) :
    ∃ p t, b = p ++ t ∧ WhereWord p t ∧ m.stop = Text.width p := by
  have hname : isName "WHERE".toList = true := by decide
  obtain ⟨u, w, v, hB, hd, hw, -, hstop⟩ := mem_zeroMatches hm
  obtain ⟨hspelled, hu, hv⟩ := (matches_keyword hname).1 hw
  have hne := hspelled.ne_nil hname
  have hword := hspelled.isWordChar hname
  have hblock := hcut.mask_left
  rw [hB] at hblock
  obtain ⟨a, t, rfl, ha, ht, hlive, hcode⟩ := exists_cut_word hne hword hblock
  have hplain : ∀ e ∈ w, isPlain e = true := fun e he => isPlain_of_isWordChar (hword e he)
  have hmask : mask (a ++ w) = u ++ w := by
    have := mask_plain_between (b := []) hlive hplain hne
    simpa [mask_nil, ha] using this
  have htokens : tokens (mask (a ++ w)) = tokens u ++ [w] := by
    rw [hmask, tokens_append (.of_ends hu w), tokens_word hne hword]
  have hdepth : DialectBridge.depth (mask (a ++ w)) = 0 := by
    rw [hmask, depth_append, hd, depth_of_isWordChar hword]
    rfl
  have hwalk : DialectBridge.walk 0 (tokens (mask (a ++ w))) = some 0 := by
    have hprefix : blockText (mask c) = mask (a ++ w) ++ v := by rw [hB, hmask, List.append_assoc]
    exact walk_tokens_of_prefix hprefix (.of_begins hv _) hdepth
  refine ⟨a ++ w, t, (List.append_assoc a w t).symm, ⟨⟨a, w, rfl, hspelled⟩, hcode, hwalk, ?_, ?_, ?_, hdepth⟩, ?_⟩
  · rw [htokens] at hwalk ⊢
    rw [walk_append_singleton hwalk]
    intro p hp
    obtain rfl : w = p := by simpa using hp
    refine ⟨fun hrownum => ?_, ?_, ?_⟩
    · have h1 := List.Forall₂.length_eq hspelled
      have h2 := List.Forall₂.length_eq hrownum
      exact absurd (h1.trans h2.symm) (by decide)
    · rintro rfl
      exact absurd (hword '<' (by simp)) (by decide)
    · rintro rfl
      exact absurd (hword '=' (by simp)) (by decide)
  · rw [hmask, endsInWord_append hne, endsInWord_of_all hne hword]
  · rw [← beginsInWord_mask, ht, hv]
  · rw [hstop, ← width_mask (a ++ w), hmask, Text.width_append]

theorem mem_clauseHeads_of_setOperator {e : Char}
    (h : e ∈ ['U', 'I', 'E', 'M'].flatMap Unicode.caseVariants) : e ∈ clauseHeads := by
  obtain ⟨c, hc, he⟩ := List.mem_flatMap.1 h
  have hsub : ['U', 'I', 'E', 'M'] ⊆ ['G', 'H', 'O', 'U', 'I', 'E', 'M', 'F'] := by decide
  exact List.mem_flatMap.2 ⟨c, hsub hc, he⟩

theorem isWordChar_of_mem_clauseHeads {e : Char} (h : e ∈ clauseHeads) :
    Unicode.isWordChar e = true := by
  have key : clauseHeads.all Unicode.isWordChar = true := by decide
  exact List.all_eq_true.1 key e h

/-- A clause that is found in a masked text can be cut off in the text. -/
theorem exists_cut_clause {t u w v v' : Text} (h : mask t = u ++ (w ++ v'))
    (hw : Matches afterWhere u w v) :
    ∃ x y, t = x ++ y ∧ mask x = u ∧ mask y = w ++ v' ∧ (code.after x).live = true ∧
      ∃ e y', y = e :: y' ∧ e ∈ clauseHeads := by
  obtain ⟨hbegins, -, -, -, -⟩ := takesPhrases_afterWhere.takes u w v hw
  obtain ⟨e, w, rfl⟩ := List.exists_cons_of_ne_nil (ne_nil_of_beginsInWord hbegins)
  have he : Unicode.isWordChar e = true := hbegins
  obtain ⟨x, y, rfl, hx, hy, hhead, hj⟩ := exists_cut_before (isFirm_of_isWordChar he) h
  obtain ⟨y', rfl⟩ := List.head?_eq_some_iff.1 hhead
  refine ⟨x, e :: y', rfl, hx, hy, live_of_joins hj ?_, e, y', rfl, mem_clauseHeads hw rfl⟩
  rintro rfl
  exact absurd he (by decide)

section
variable {q c b d : Text} (hq : code.after q = code) (hcut : BlockCut c b d)
include hq hcut

omit hq in
theorem WhereWord.right_append {p t : Text} (hp : WhereWord p t) (hb : b = p ++ t) :
    beginsInWord (t ++ d) = false := by
  by_cases ht : t = []
  · have := hcut.apart (by rw [hb, hp.mask_eq, ht, mask_nil, List.append_nil, hp.last])
    rwa [ht, List.nil_append, ← beginsInWord_mask]
  · rw [beginsInWord_append ht, hp.right]

omit hq in
/-- With no clause behind the `WHERE` the conditions are the rest of the block. -/
theorem WhereWord.conditions {p t : Text} (hp : WhereWord p t) (hb : b = p ++ t) : Conditions p t d := by
  have hright := hp.right_append hcut hb
  subst hb
  have happly : Apart (mask p) (mask t) := .of_begins (by rw [beginsInWord_mask, hp.right]) _
  refine ⟨hp.word, hp.behind, hp.walk, hp.ends, hright, fun a hnested => ?_, ?_, fun e he => ?_⟩
  · rw [← List.append_assoc, ← hcut.eq] at hnested
    have hwalk := hnested.walk_blockText
    rw [← hcut.mask_left, hp.mask_eq, ← walk_tokens] at hwalk
    exact walk_tokens_right hwalk happly hp.walk
  · by_cases ht : t = []
    · rw [ht, mask_nil]
      exact apart_nil_left _
    · intro hend
      refine hcut.apart ?_
      rw [hp.mask_eq, endsInWord_append (mask_ne_nil ht), hend]
  · obtain ⟨hlive, he⟩ := hcut.stop e he
    rw [after_append, hp.behind] at hlive
    exact ⟨hlive, he.imp id mem_clauseHeads_of_setOperator⟩

omit hq in
/-- A clause behind the `WHERE` ends the conditions. -/
theorem WhereWord.exists_conditions_before {p t : Text} (hp : WhereWord p t) (hb : b = p ++ t) {m : Match}
    (hm : m ∈ zeroMatches afterWhere (mask t)) :
    ∃ t₁ t₂, t = t₁ ++ t₂ ∧ Conditions p t₁ (t₂ ++ d) ∧ m.start = Text.width t₁ := by
  have hright := hp.right_append hcut hb
  subst hb
  obtain ⟨u, w, v, ht, hd, hw, hstart, -⟩ := mem_zeroMatches hm
  obtain ⟨x, y, rfl, rfl, hy, hlive, e, y', rfl, he⟩ := exists_cut_clause ht hw
  obtain ⟨-, -, -, hend, -⟩ := takesPhrases_afterWhere.takes _ w v hw
  have happly : Apart (mask p) (mask x) := by
    refine .of_begins ?_ _
    rw [beginsInWord_mask]
    cases x with
    | nil => rfl
    | cons z x => exact hp.right
  have hprefix : blockText (mask c) = (mask p ++ mask x) ++ (w ++ v) := by
    rw [← hcut.mask_left, hp.mask_eq, ht, List.append_assoc]
  have hx' : Apart (mask p ++ mask x) (w ++ v) := by
    by_cases hnil : x = []
    · refine .of_begins ?_ _
      rw [← hy, beginsInWord_mask]
      exact (hnil ▸ hp.right : beginsInWord ([] ++ e :: y') = false)
    · exact .of_ends (by rw [endsInWord_append (mask_ne_nil hnil), hend]) _
  have hwalk := walk_tokens_of_prefix hprefix hx' (by rw [depth_append, hp.depth, hd]; rfl)
  refine ⟨x, e :: y', rfl, ⟨hp.word, hp.behind, hp.walk, hp.ends, by rwa [List.append_assoc] at hright,
    fun _ _ => walk_tokens_right hwalk happly hp.walk, .of_ends hend _, fun z hz => ?_⟩, by rw [hstart, width_mask]⟩
  obtain rfl : e = z := Option.some.inj hz
  exact ⟨hlive, .inr he⟩

/-- The conditions behind a `WHERE`. -/
theorem exists_conditions {p t : Text} (hb : b = p ++ t) (hp : WhereWord p t) :
    ∃ t₁ t₂ clauses, t = t₁ ++ t₂ ∧ Conditions p t₁ (t₂ ++ d) ∧
      depthZeroMatches? (mask (q ++ c)) (Text.width (q ++ p)) (Text.width (q ++ b)) afterWhere =
        some clauses ∧
      (clauses.head?.map Span.start).getD (Text.width (q ++ b)) = Text.width (q ++ (p ++ t₁)) := by
  have hmask : mask (q ++ c) = mask (q ++ p) ++ mask t ++ mask d := by
    have hj : ∀ s, (code.after q).joins s = true := fun s => by rw [hq]; exact joins_code s
    rw [mask_append (hj c), mask_append (hj p), hcut.mask_right, hb, hp.mask_eq]
    simp only [List.append_assoc]
  have hfind := depthZeroMatches?_append (mask (q ++ p)) (mask t) (mask d) afterWhere
  rw [← hmask, width_mask, width_mask, ← Text.width_append, List.append_assoc, ← hb] at hfind
  cases hclauses : zeroMatches afterWhere (mask t) with
  | nil =>
    rw [hclauses] at hfind
    exact ⟨t, [], _, (List.append_nil t).symm, hp.conditions hcut hb, hfind, by rw [hb]; rfl⟩
  | cons m ms =>
    obtain ⟨t₁, t₂, ht, hconditions, hstart⟩ :=
      hp.exists_conditions_before hcut hb (m := m) (by rw [hclauses]; simp)
    rw [hclauses] at hfind
    refine ⟨t₁, t₂, _, ht, hconditions, hfind, ?_⟩
    rw [List.map_cons, List.head?_cons, Option.map_some, Option.getD_some, hstart, ← Text.width_append,
      List.append_assoc]

omit hq in
/-- The clause before which a condition can stand. -/
theorem exists_beforeClause {m : Match} {ms : List Match}
    (hm : zeroMatches afterWhere (scope 0 (mask c)) = m :: ms) :
    ∃ p r, c = p ++ r ∧ BeforeClause p r ∧ m.start = Text.width p := by
  obtain ⟨u, w, v, hscope, hd, hw, hstart, hstop⟩ := mem_zeroMatches (p := afterWhere)
    (t := scope 0 (mask c)) (m := m) (by simp [hm])
  obtain ⟨rest, hrest, -, -⟩ := scope_eq_blockText_append (mask c)
  obtain ⟨after, hmask, -, -⟩ := scope_spec 0 (mask c)
  -- a set operator is such a clause too
  have hle : Text.width u ≤ Text.width (blockText (mask c)) := by
    rcases scope_eq_blockText_or (mask c) with hsame | ⟨s, v', hscope', hset, hleft, hright, hdepth⟩
    · have := congrArg Text.width (hsame.symm.trans hscope)
      simp only [Text.width_append] at this
      omega
    · obtain ⟨m', hm', hle, -⟩ := takesPhrases_afterWhere.exists_mem_zeroMatches
        (matches_afterWhere_of_isSetOperator hset hleft hright) hdepth
      have hpair := pairwise_zeroMatches afterWhere (scope 0 (mask c))
      rw [← hscope', hm] at hm'
      rw [hm] at hpair
      rcases List.mem_cons.1 hm' with rfl | hmem
      · omega
      · have := (List.pairwise_cons.1 hpair).1 m' hmem
        omega
  obtain ⟨y, hy, -⟩ := Text.exists_of_width_le (hscope.symm.trans hrest) hle
  rw [hscope, List.append_assoc, List.append_assoc] at hmask
  obtain ⟨p, r, rfl, hp, -, hlive, hhead⟩ := exists_cut_clause hmask hw
  obtain ⟨-, -, -, hend, -⟩ := takesPhrases_afterWhere.takes u w v hw
  rw [← hp] at hy hd hend
  exact ⟨p, r, rfl, ⟨hlive, walk_tokens_of_prefix hy (.of_ends hend _) hd, hend, hhead⟩,
    by rw [hstart, ← hp, width_mask]⟩

omit hq in
/-- A block in which no clause is found. -/
theorem plainBlock (hm : zeroMatches afterWhere (scope 0 (mask c)) = []) : PlainBlock b d := by
  obtain ⟨after, hmask, -, hafter⟩ := scope_spec 0 (mask c)
  have hsame : scope 0 (mask c) = blockText (mask c) := by
    rcases scope_eq_blockText_or (mask c) with hsame | ⟨s, v', hscope', hset, hleft, hright, hdepth⟩
    · exact hsame
    · obtain ⟨m', hm', -, -⟩ := takesPhrases_afterWhere.exists_mem_zeroMatches
        (matches_afterWhere_of_isSetOperator hset hleft hright) hdepth
      rw [← hscope', hm] at hm'
      simp at hm'
  have hd : mask d = after := by
    rw [hsame, ← hcut.mask_left, hcut.mask_right] at hmask
    exact List.append_cancel_left hmask
  refine ⟨hcut.eq ▸ hcut, fun e he => ?_⟩
  rcases (hcut.stop e he).2 with rfl | hset
  · rfl
  · obtain ⟨d', rfl⟩ := List.head?_eq_some_iff.1 he
    rw [mask_cons_of_isPlain (isPlain_of_isWordChar (isWordChar_of_mem_setOperatorHeads hset))] at hd
    exact (hafter e (by rw [← hd]; rfl)).1

/-- The place for the condition is found. -/
theorem exists_filterPlace : ∃ place, filterPlace? (q ++ c) (Text.width q) = some place ∧
    PlaceIn q c place := by
  obtain ⟨after, hscope, -, -⟩ := scope_spec 0 (mask c)
  obtain ⟨operators, hops, hstop⟩ := blockStop_eq (mask q) (mask c)
  have hmask : mask (q ++ c) = mask q ++ mask c := mask_append (by rw [hq]; exact joins_code c)
  have hfind := depthZeroMatches?_append (mask q) (blockText (mask c)) (mask d) (keyword "WHERE")
  have hclauses := depthZeroMatches?_append (mask q) (scope 0 (mask c)) after afterWhere
  rw [List.append_assoc, ← hscope, ← scopeEnd_append, ← hmask, width_mask] at hclauses
  rw [← hcut.mask_left, List.append_assoc, ← hcut.mask_right, ← hmask, width_mask, width_mask,
    ← Text.width_append, hcut.mask_left] at hfind
  rw [← hmask, ← hcut.mask_left, width_mask, width_mask, ← Text.width_append] at hstop
  rw [← hmask, width_mask] at hops
  cases hwhere : zeroMatches (keyword "WHERE") (blockText (mask c)) with
  | cons m ms =>
    obtain ⟨p, t, hb, hp, hwidth⟩ := exists_whereWord hcut
      (hwhere ▸ List.mem_cons_self : m ∈ zeroMatches (keyword "WHERE") (blockText (mask c)))
    obtain ⟨t₁, t₂, clauses, rfl, hconditions, hsearch, hget⟩ :=
      exists_conditions hq hcut hb hp
    have hc : c = p ++ (t₁ ++ (t₂ ++ d)) := by
      rw [hcut.eq, hb]
      simp only [List.append_assoc]
    have hplace : filterPlace? (q ++ c) (Text.width q) =
        some (.conditions (Text.width (q ++ p)) (Text.width (q ++ (p ++ t₁)))) := by
      rw [Text.width_append, ← hwidth] at hsearch
      rw [filterPlace?]
      simp only [hops, hstop, hfind, hwhere, hsearch, hget, Option.bind_eq_bind, Option.bind_some,
        List.map_cons, List.head?_cons]
      rw [hwidth, ← Text.width_append]
      rfl
    exact ⟨_, hplace, hc ▸ .conditions hconditions⟩
  | nil =>
    cases hclause : zeroMatches afterWhere (scope 0 (mask c)) with
    | cons m ms =>
      obtain ⟨p, r, hc, hbefore, hwidth⟩ := exists_beforeClause hcut hclause
      have hplace : filterPlace? (q ++ c) (Text.width q) =
          some (.clause (Text.width (q ++ p))) := by
        rw [filterPlace?]
        simp only [hops, hstop, hfind, hwhere, hclauses, hclause, Option.bind_eq_bind,
          Option.bind_some, List.map_nil, List.map_cons, List.head?_nil, List.head?_cons]
        rw [hwidth, ← Text.width_append]
        rfl
      exact ⟨_, hplace, hc ▸ .clause hbefore⟩
    | nil =>
      have hplace : filterPlace? (q ++ c) (Text.width q) =
          some (.atEnd (Text.width q) (Text.width (q ++ b))) := by
        rw [filterPlace?]
        simp only [hops, hstop, hfind, hwhere, hclauses, hclause, Option.bind_eq_bind,
          Option.bind_some, List.map_nil, List.head?_nil]
        rfl
      exact ⟨_, hplace, hcut.eq ▸ .atEnd (plainBlock hcut hclause)⟩

end

/-! ## The condition at its place -/

/-- The select list `c'` is `c` with `ROWNUM <= n` put in at its place. -/
inductive FilterAdded (n q : Text) : Text → FilterPlace → Text → Prop where
  | conditions {p kept tail r : Text} {ors : List Span} (h : Conditions p (kept ++ tail) r)
      (hkept : Text.dropTrailing isBlockEnd (kept ++ tail) = kept)
      (htail : ∀ e ∈ tail, isBlockEnd e = true)
      (hors : depthZeroMatches? (mask (q ++ (p ++ (kept ++ tail ++ r)))) (Text.width (q ++ p))
        (Text.width (q ++ p) + Text.width kept) (keyword "OR") = some ors) :
      FilterAdded n q (p ++ (kept ++ tail ++ r))
        (.conditions (Text.width (q ++ p)) (Text.width (q ++ (p ++ (kept ++ tail)))))
        (if ors.isEmpty then p ++ (andText n ++ (kept ++ tail ++ r))
          else p ++ (openText n ++ (Text.trimStart kept ++ ')' :: (tail ++ r))))
  | clause {p s s' r : Text} (h : BeforeClause p r) (hs : ∀ c ∈ s, Unicode.isBlank c = true)
      (hs' : ∀ c ∈ mask s', Unicode.isBlank c = true) (hne : s' ≠ [])
      (hlive : (code.after s').live = true) :
      FilterAdded n q (p ++ r) (.clause (Text.width (q ++ p))) (p ++ (s ++ (whereText n ++ (s' ++ r))))
  | atEnd {content tail d : Text} (h : PlainBlock (content ++ tail) d)
      (hcontent : Text.dropTrailing isBlockEnd (content ++ tail) = content)
      (htail : ∀ e ∈ tail, isBlockEnd e = true) :
      FilterAdded n q (content ++ tail ++ d)
        (.atEnd (Text.width q) (Text.width (q ++ (content ++ tail))))
        (content ++ (separator content ++ (whereText n ++ (tail ++ d))))

theorem cuts_conditions (q p t r : Text) :
    Text.slice? (q ++ (p ++ (t ++ r))) (Text.width (q ++ p)) (Text.width (q ++ (p ++ t))) = some t ∧
      Text.upTo? (q ++ (p ++ (t ++ r))) (Text.width (q ++ p)) = some (q ++ p) := by
  rw [← List.append_assoc q, ← List.append_assoc q]
  exact ⟨Text.slice?_between _ _ _, Text.upTo?_append _ _⟩

section
variable (n : Text) {q : Text}

theorem addToConditions?_eq {p t r : Text} (h : Conditions p t r) :
    ∃ c', addFilterAt? (q ++ (p ++ (t ++ r))) n
        (.conditions (Text.width (q ++ p)) (Text.width (q ++ (p ++ t)))) = some (q ++ c') ∧
      FilterAdded n q (p ++ (t ++ r))
        (.conditions (Text.width (q ++ p)) (Text.width (q ++ (p ++ t)))) c' := by
  obtain ⟨tail, ht, htail⟩ := Text.exists_eq_dropTrailing_append isBlockEnd t
  generalize hkept : Text.dropTrailing isBlockEnd t = kept at ht
  have hsql : q ++ (p ++ (t ++ r)) = q ++ p ++ t ++ r := by simp only [List.append_assoc]
  have hstop : Text.width (q ++ (p ++ t)) = Text.width (q ++ p) + Text.width t := by
    rw [← List.append_assoc, Text.width_append]
  have hslice := (cuts_conditions q p t r).1
  have htrailing : Text.from? t (Text.width kept) = some tail := by rw [ht, Text.from?_append]
  obtain ⟨ors, hors⟩ : ∃ ors, depthZeroMatches? (mask (q ++ (p ++ (t ++ r)))) (Text.width (q ++ p))
      (Text.width (q ++ p) + Text.width kept) (keyword "OR") = some ors := by
    obtain ⟨x, y, z, hmask, hx, hy⟩ := exists_mask_cuts (q ++ p) kept (tail ++ r)
    have hcuts : q ++ (p ++ (t ++ r)) = q ++ p ++ (kept ++ (tail ++ r)) := by
      rw [ht]
      simp only [List.append_assoc]
    rw [hcuts, hmask, ← hx, ← hy, depthZeroMatches?_append]
    exact ⟨_, rfl⟩
  have hadd : addFilterAt? (q ++ (p ++ (t ++ r))) n
      (.conditions (Text.width (q ++ p)) (Text.width (q ++ (p ++ t)))) =
        some (q ++ if ors.isEmpty then p ++ (andText n ++ (t ++ r))
          else p ++ (openText n ++ (Text.trimStart kept ++ ')' :: (tail ++ r)))) := by
    cases hempty : ors.isEmpty with
    | true =>
      have hinsert := Text.insert?_append (q ++ p) (t ++ r) (andText n)
      simp only [addFilterAt?, addToConditions?, hslice, hkept, htrailing, hors, hempty, if_true,
        Option.bind_eq_bind, Option.bind_some]
      rw [andText_eq]
      simpa only [List.append_assoc] using hinsert
    | false =>
      have hsplice := Text.splice?_append (q ++ p) t r
        (openText n ++ (Text.trimStart kept ++ ')' :: tail))
      have hclose : ")".toList = [')'] := by decide
      rw [← hstop, ← hsql] at hsplice
      simp only [addFilterAt?, addToConditions?, hslice, hkept, htrailing, hors, hempty,
        Bool.false_eq_true, if_false, Option.bind_eq_bind, Option.bind_some, openText_eq]
      simpa only [hclose, List.append_assoc, List.nil_append, List.cons_append] using hsplice
  subst ht
  exact ⟨_, hadd, .conditions h hkept htail hors⟩

theorem trimEnd_append_ne_nil {u : Text} (hu : endsInWord u = true) (v : Text) :
    Text.trimEnd (u ++ v) ≠ [] := by
  intro hnil
  obtain ⟨b, hb, hblank⟩ := Text.exists_eq_dropTrailing_append Unicode.isBlank (u ++ v)
  change u ++ v = Text.trimEnd (u ++ v) ++ b at hb
  rw [hnil, List.nil_append] at hb
  cases hr : u.reverse with
  | nil =>
    rw [endsInWord, hr] at hu
    exact absurd hu (by decide)
  | cons c t =>
    have hc : Unicode.isWordChar c = true := by rwa [endsInWord, hr] at hu
    have hmem : c ∈ b := by
      rw [← hb, List.mem_append, ← List.mem_reverse, hr]
      exact .inl List.mem_cons_self
    rw [isWordChar_of_isBlank (hblank c hmem)] at hc
    exact absurd hc (by decide)

/-- White space and comments at the end of a heading can be cut off. -/
theorem exists_cut_trimEnd {t : Text} (hlive : (code.after t).live = true)
    (hshown : Text.trimEnd (mask t) ≠ []) :
    ∃ x y, t = x ++ y ∧ mask x = Text.trimEnd (mask t) ∧
      (∀ c ∈ mask y, Unicode.isBlank c = true) ∧ (y ≠ [] → (code.after y).live = true) := by
  obtain ⟨b, hmask, hb⟩ := Text.exists_eq_dropTrailing_append Unicode.isBlank (mask t)
  have hlast := getLast?_dropTrailing Unicode.isBlank (mask t)
  change mask t = Text.trimEnd (mask t) ++ b at hmask
  change ∀ e ∈ (Text.trimEnd (mask t)).getLast?, Unicode.isBlank e = false at hlast
  generalize Text.trimEnd (mask t) = k at hshown hmask hlast
  have hz := hlast _ (List.getLast?_eq_some_getLast hshown)
  rw [← List.dropLast_concat_getLast hshown, List.append_assoc, List.singleton_append,
    ← maskFrom_code] at hmask
  obtain ⟨x, y, rfl, hx, hy, -, hjoins⟩ := exists_cut_shown hmask hz hb hlive
  rw [maskFrom_code, List.dropLast_concat_getLast] at hx
  refine ⟨x, y, rfl, hx, hy ▸ hb, fun hne => ?_⟩
  rwa [after_append, after_of_joins hjoins hne] at hlive

theorem BeforeClause.isPlain_head {p r : Text} (h : BeforeClause p r) :
    ∀ e ∈ r.head?, isPlain e = true := by
  obtain ⟨e, r', rfl, he⟩ := h.head
  rintro _ ⟨⟩
  exact isPlain_of_isWordChar (isWordChar_of_mem_clauseHeads he)

theorem addBeforeClause?_eq {p r : Text} (hq : code.after q = code) (h : BeforeClause p r)
    (hblank : ∃ q', q = q' ++ [' '] ∧ endsInWord (mask q') = true ∧ code.after q' = code) :
    ∃ c', addFilterAt? (q ++ (p ++ r)) n (.clause (Text.width (q ++ p))) = some (q ++ c') ∧
      FilterAdded n q (p ++ r) (.clause (Text.width (q ++ p))) c' := by
  have hlive : (code.after (q ++ p)).live = true := by rw [after_append, hq, h.live]
  have hmask : mask (q ++ (p ++ r)) = mask (q ++ p) ++ mask r := by
    rw [← List.append_assoc, mask_append (joins_of_head?_isPlain hlive h.isPlain_head)]
  have hupTo : Text.upTo? (mask (q ++ (p ++ r))) (Text.width (q ++ p)) = some (mask (q ++ p)) := by
    rw [hmask, ← width_mask, Text.upTo?_append]
  have hshown : Text.trimEnd (mask (q ++ p)) ≠ [] := by
    obtain ⟨q', rfl, hword, hcode⟩ := hblank
    rw [List.append_assoc, mask_append (by rw [hcode]; exact joins_code _)]
    exact trimEnd_append_ne_nil hword _
  obtain ⟨x, y, hxy, hx, hy, hafter⟩ := exists_cut_trimEnd hlive hshown
  have hwidth : Text.width (Text.trimEnd (mask (q ++ p))) = Text.width x := by rw [← hx, width_mask]
  have hspace : Text.slice? (q ++ (p ++ r)) (Text.width x) (Text.width (q ++ p)) = some y := by
    rw [← List.append_assoc, hxy, Text.width_append, Text.slice?_append]
  by_cases hempty : y = []
  · refine ⟨p ++ ([' '] ++ (whereText n ++ ([' '] ++ r))), ?_, .clause h (by decide) ?_ (by decide) rfl⟩
    · have hinsert := Text.insert?_append (q ++ p) r ([' '] ++ whereText n ++ [' '])
      have htext : " WHERE ROWNUM <= ".toList ++ n ++ " ".toList = [' '] ++ whereText n ++ [' '] := by
        have hblank : " WHERE ROWNUM <= ".toList = [' '] ++ "WHERE ROWNUM <= ".toList := by decide
        rw [hblank, List.append_assoc [' '], whereText_eq]
        rfl
      simp only [addFilterAt?, addBeforeClause?, hupTo, hwidth, hspace, hempty, Option.bind_eq_bind,
        Option.bind_some, List.isEmpty_nil, if_true, htext]
      simpa only [List.append_assoc] using hinsert
    · rw [mask_of_all_isPlain (List.all_eq_true.1 (by decide))]
      decide
  · refine ⟨p ++ ([] ++ (whereText n ++ (y ++ r))), ?_,
      .clause h (List.forall_mem_nil _) hy hempty (hafter hempty)⟩
    have hinsert := Text.insert?_append x (y ++ r) (y ++ whereText n)
    have hnonempty : y.isEmpty = false := by simpa using hempty
    have htext : y ++ "WHERE ROWNUM <= ".toList ++ n = y ++ whereText n := by
      rw [List.append_assoc, whereText_eq]
    simp only [addFilterAt?, addBeforeClause?, hupTo, hwidth, hspace, hnonempty,
      Option.bind_eq_bind, Option.bind_some, Bool.false_eq_true, if_false, htext]
    have hsplit : q ++ (p ++ (whereText n ++ (y ++ r))) = x ++ (y ++ (whereText n ++ (y ++ r))) := by
      rw [← List.append_assoc, hxy, List.append_assoc]
    rw [← List.append_assoc, hxy, List.append_assoc, hinsert, List.nil_append, hsplit,
      List.append_assoc]

theorem addAtEnd?_eq {t d : Text} (h : PlainBlock t d) :
    ∃ c', addFilterAt? (q ++ (t ++ d)) n (.atEnd (Text.width q) (Text.width (q ++ t))) =
        some (q ++ c') ∧
      FilterAdded n q (t ++ d) (.atEnd (Text.width q) (Text.width (q ++ t))) c' := by
  obtain ⟨tail, ht, htail⟩ := Text.exists_eq_dropTrailing_append isBlockEnd t
  generalize hcontent : Text.dropTrailing isBlockEnd t = content at ht
  have hslice := Text.slice?_between q t d
  have hadd : addFilterAt? (q ++ (t ++ d)) n (.atEnd (Text.width q) (Text.width (q ++ t))) =
      some (q ++ (content ++ (separator content ++ (whereText n ++ (tail ++ d))))) := by
    have hinsert := Text.insert?_append (q ++ content) (tail ++ d) (separator content ++ whereText n)
    have htext : separator content ++ "WHERE ROWNUM <= ".toList ++ n =
        separator content ++ whereText n := by
      rw [List.append_assoc, whereText_eq]
    have hsql : q ++ (t ++ d) = q ++ content ++ (tail ++ d) := by
      rw [ht]
      simp only [List.append_assoc]
    simp only [addFilterAt?, addAtEnd?, hslice, hcontent, htext, Option.bind_eq_bind,
      Option.bind_some]
    rw [hsql, ← Text.width_append, hinsert]
    simp only [List.append_assoc]
  subst ht
  exact ⟨_, hadd, .atEnd h hcontent htail⟩

/-- The condition is put in at its place. -/
theorem exists_filterAdded (hq : code.after q = code)
    (hblank : ∃ q', q = q' ++ [' '] ∧ endsInWord (mask q') = true ∧ code.after q' = code) (c : Text) :
    ∃ place c', filterPlace? (q ++ c) (Text.width q) = some place ∧
      addRownumFilter? (q ++ c) (Text.width q) n = some (q ++ c') ∧ FilterAdded n q c place c' := by
  obtain ⟨b, d, hcut⟩ := exists_blockCut c
  obtain ⟨place, hplace, hin⟩ := exists_filterPlace hq hcut
  have hadd : addRownumFilter? (q ++ c) (Text.width q) n = addFilterAt? (q ++ c) n place := by
    rw [addRownumFilter?, hplace, Option.bind_eq_bind, Option.bind_some]
  refine ⟨place, ?_⟩
  rw [hadd, hplace]
  cases hin with
  | conditions h =>
    obtain ⟨c', hadd', h'⟩ := addToConditions?_eq n h
    exact ⟨c', rfl, hadd', h'⟩
  | clause h =>
    obtain ⟨c', hadd', h'⟩ := addBeforeClause?_eq n hq h hblank
    exact ⟨c', rfl, hadd', h'⟩
  | atEnd h =>
    obtain ⟨c', hadd', h'⟩ := addAtEnd?_eq n h
    exact ⟨c', rfl, hadd', h'⟩

end

/-! ## What is around the condition -/

theorem isPlain_of_stop {e : Char} (h : e = ')' ∨ e ∈ clauseHeads) : isPlain e = true := by
  rcases h with rfl | h
  · decide
  · exact isPlain_of_isWordChar (isWordChar_of_mem_clauseHeads h)

theorem mask_blockEnds_append {tail : Text} (h : ∀ e ∈ tail, isBlockEnd e = true) (r : Text) :
    mask (tail ++ r) = tail ++ mask r :=
  mask_plain_append (fun e he => isPlain_of_isBlockEnd (h e he)) r

namespace Conditions
variable {p kept tail r : Text} (h : Conditions p (kept ++ tail) r)
include h

theorem right_kept : beginsInWord (kept ++ (tail ++ r)) = false := by
  rw [← List.append_assoc]
  exact h.right

variable (htail : ∀ e ∈ tail, isBlockEnd e = true)
include htail

theorem isPlain_rest : ∀ e ∈ (tail ++ r).head?, isPlain e = true := by
  intro e he
  cases tail with
  | nil => exact isPlain_of_stop (h.stop e he).2
  | cons z tail =>
    obtain rfl : z = e := Option.some.inj he
    exact isPlain_of_isBlockEnd (htail z (by simp))

theorem apart_kept : Apart (mask kept) (mask (tail ++ r)) := by
  rw [mask_blockEnds_append htail]
  cases tail with
  | nil =>
    have := h.apart
    rwa [List.append_nil] at this
  | cons z tail =>
    have hz : beginsInWord (z :: tail ++ mask r) = false :=
      isWordChar_of_isBlockEnd (htail z (by simp))
    exact .of_begins hz _

/-- A comment or an open quote at the end of conditions is followed by the end of the query, at
least. -/
theorem beginsInWord_rest (hlive : (code.after kept).live = false) :
    beginsInWord (tail ++ r) = false := by
  cases tail with
  | cons z tail => exact isWordChar_of_isBlockEnd (htail z (by simp))
  | nil =>
    cases r with
    | nil => rfl
    | cons e r =>
      have := (h.stop e rfl).1
      rw [List.append_nil, hlive] at this
      exact absurd this (by decide)

end Conditions

theorem separator_eq (content : Text) : separator content = ['\n'] ∨ separator content = [' '] := by
  unfold separator
  split_ifs
  · exact .inl (by decide)
  · exact .inr (by decide)

theorem isBlank_of_mem_separator {content : Text} {c : Char} (h : c ∈ separator content) :
    Unicode.isBlank c = true := by
  rcases separator_eq content with hsep | hsep <;>
  · rw [hsep, List.mem_singleton] at h
    rw [h]
    decide

theorem separator_ne_nil (content : Text) : separator content ≠ [] := by
  rcases separator_eq content with h | h <;> rw [h] <;> decide

/-- The white space in front of a condition at the end of a block ends no literal and no comment
but a line comment. -/
theorem live_after_separator {content : Text} {s : LexState} :
    (s.after (separator content)).live = true ↔
      s.live = true ∨ s = line ∧ separator content = ['\n'] := by
  rcases separator_eq content with h | h <;> rw [h] <;>
    rcases s with _ | _ | _ | ⟨_ | _⟩ | ⟨_ | _⟩ | _ | _ | _ <;> decide

theorem joins_separator {content : Text} {s : LexState}
    (h : (s.after (separator content)).live = true) : s.joins (separator content) = true := by
  rcases live_after_separator.1 h with hlive | ⟨rfl, hfeed⟩
  · exact joins_of_head?_isPlain hlive fun c hc =>
      isPlain_of_isBlank (isBlank_of_mem_separator (List.mem_of_head? hc))
  · rw [hfeed]
    rfl

theorem isDull_of_mem_separator {content : Text} {s : LexState}
    (h : (s.after (separator content)).live = false) {c : Char} (hc : c ∈ separator content) :
    isDull s c = true := by
  have hplain : isPlain c = true := isPlain_of_isBlank (isBlank_of_mem_separator hc)
  rcases separator_eq content with hfeed | hspace
  · have hline : s ≠ line := by
      rintro rfl
      rw [live_after_separator.2 (.inr ⟨rfl, hfeed⟩)] at h
      exact absurd h (by decide)
    simp [isDull, hplain, hline]
  · rw [hspace, List.mem_singleton] at hc
    exact isDull_of_ne hplain (by rw [hc]; decide) _

theorem PlainBlock.live_of_ne_nil {t d : Text} (h : PlainBlock t d) (hd : d ≠ []) :
    (code.after t).live = true := by
  obtain ⟨e, d', rfl⟩ := List.exists_cons_of_ne_nil hd
  exact (h.cut.stop e rfl).1

end DialectBridge.ToOracle
