import DialectBridge.Proofs.ParallelListagg
import DialectBridge.Proofs.SkeletonWords
/-!
# What literals say steers no rule

A rule run on two queries without comments that differ inside literals leaves two queries that differ inside
literals again, and raises the same warnings (`differInLiterals_of_rule`). The placeholder of the rule for
`LISTAGG` must not open a literal in the skeleton: behind an open literal, code and the insides of literals
change places (`listagg_open_placeholder`).
-/
namespace DialectBridge
open Pattern LexState Segment

/-! ## Words and operators -/

section
variable {a b : Text} {f : Text → Text}

theorem differInLiterals_mapCode (hf : ∀ x, Recoded x (f x)) (h : DifferInLiterals a b) :
    DifferInLiterals (mapCode f a) (mapCode f b) := by
  rw [DifferInLiterals, segments_mapCode hf, segments_mapCode hf, List.forall₂_map_left_iff,
    List.forall₂_map_right_iff]
  refine List.Forall₂.imp (fun s s' hs => ?_) h
  by_cases hcode : s.kind = .code
  · have hcode' : s'.kind = .code := hs.kind ▸ hcode
    have htext : s.text = s'.text := hs.text (by simp [hcode])
    rw [hcode, hcode', htext]
    exact .refl _
  · have hcode' : ¬ s'.kind = .code := hs.kind ▸ hcode
    simpa [hcode, hcode'] using hs

theorem differInLiterals_toTsql_currentDatetime (h : DifferInLiterals a b) :
    DifferInLiterals (ToTsql.currentDatetime a) (ToTsql.currentDatetime b) := by
  refine differInLiterals_mapCode (recoded_emptyCall (by decide) (by decide) (by decide)) ?_
  refine differInLiterals_mapCode (recoded_keyword (by decide) (by decide) (by decide)) ?_
  exact differInLiterals_mapCode (recoded_keyword (by decide) (by decide) (by decide)) h

theorem differInLiterals_concatenation (h : DifferInLiterals a b) :
    DifferInLiterals (ToTsql.concatenation a) (ToTsql.concatenation b) :=
  differInLiterals_mapCode recoded_bars h

theorem differInLiterals_toTsql_setOperators (h : DifferInLiterals a b) :
    DifferInLiterals (ToTsql.setOperators a) (ToTsql.setOperators b) :=
  differInLiterals_mapCode (recoded_keyword (by decide) (by decide) (by decide)) h

end

/-! ## Queries without comments -/

section
variable {a b t : Text}

/-- Queries that differ inside literals have the same comments. -/
theorem DifferInLiterals.comments_eq (h : DifferInLiterals a b) : comments a = comments b := by
  have key : ∀ l l' : List Segment, List.Forall₂ Segment.DiffersInside l l' →
      (l.filter (·.kind == .comment)).map Segment.text = (l'.filter (·.kind == .comment)).map Segment.text := by
    intro l l' hl
    induction hl with
    | nil => rfl
    | @cons s s' _ _ hs _ ih =>
      by_cases hcomment : s.kind = .comment
      · have hcomment' : s'.kind = .comment := hs.kind ▸ hcomment
        simp [hcomment, hcomment', ih, hs.text (by simp [hcomment])]
      · have hcomment' : ¬ s'.kind = .comment := hs.kind ▸ hcomment
        simp [hcomment, hcomment', ih]
  exact key _ _ h

/-- A comment can be opened wherever the lexer is in no literal. -/
theorem step_open {s : LexState} (hcomment : s.isComment = false) (hquoted : ∀ q, s ≠ quoted q) :
    (s.step '/').step '*' = LexState.block := by
  cases s with
  | code | minus | slash => rfl
  | closed q => cases q <;> rfl
  | quoted q => exact absurd rfl (hquoted q)
  | line | block | star => exact absurd hcomment (by decide)

end

namespace ToTsql
variable {a b x w z : Text} {m : Match}

/-- In a query without comments no marker stands in front of code. -/
theorem isSuffixOf_regexpMarker {x : Text} (hquiet : Quiet code x) (hlive : (code.after x).live = true) :
    regexpMarker.isSuffixOf (Text.trimEnd x) = false := by
  rw [Bool.eq_false_iff]
  intro hsuffix
  obtain ⟨p, hp⟩ := List.isSuffixOf_iff_suffix.1 hsuffix
  obtain ⟨e, he, hblank⟩ := Text.exists_eq_dropTrailing_append Unicode.isBlank x
  change x = Text.trimEnd x ++ e at he
  rw [he, ← hp, List.append_assoc] at hquiet hlive
  by_cases hquoted : ∃ q, code.after p = quoted q
  · obtain ⟨q, hq⟩ := hquoted
    have hquotes : '\'' ∉ regexpMarker ∧ '"' ∉ regexpMarker :=
      Text.of_chars (p := fun t => '\'' ∉ t ∧ '"' ∉ t) (by decide)
    have hmarker : q.char ∉ regexpMarker := by
      cases q with
      | single => exact hquotes.1
      | double => exact hquotes.2
    have hblanks : q.char ∉ e := fun hmem => absurd (hblank _ hmem) (by cases q <;> decide)
    rw [after_append, hq, after_quoted (by simp [hmarker, hblanks])] at hlive
    exact absurd hlive (by simp [live])
  · obtain ⟨r, hr⟩ := exists_regexpMarker_eq
    obtain ⟨hp, hrest⟩ := quiet_append.1 hquiet
    rw [hr, List.cons_append, List.cons_append, quiet_cons, quiet_cons,
      step_open hp.after fun q hq => hquoted ⟨q, hq⟩] at hrest
    exact absurd hrest.2.2.isComment (by decide)

theorem markedName?_eq_some (hquiet : Quiet code (x ++ (w ++ z))) (hlive : (code.after x).live = true)
    (hstart : m.start = Text.width x) (hstop : m.stop = Text.width (x ++ w)) :
    markedName? (x ++ (w ++ z)) m = some (regexpMarker ++ " ".toList ++ w) := by
  refine (markedName?_eq hstart hstop).resolve_left fun hnone => ?_
  rw [markedName?, hstart, Text.upTo?_append, Option.getD_some,
    isSuffixOf_regexpMarker (quiet_append.1 hquiet).1 hlive] at hnone
  cases hnone

/-- A name with the text `u` in front of it that follows on the last name or on nothing. -/
theorem wordCut_of_name {sql p u w z : Text} {k : Nat} (hm : m ∈ regexpWord.findAll (mask sql)) (hquiet : Quiet code sql)
    (hsql : sql = p ++ (u ++ w ++ z)) (hk : k = Text.width p) (hp : code.after p = code)
    (hstart : m.start = k + Text.width u) (hstop : m.stop = m.start + Text.width w) :
    WordCut u w z ∧ markedName? sql m = some (regexpMarker ++ " ".toList ++ w) ∧
      m.stop = Text.width (p ++ u ++ w) ∧ code.after (p ++ u ++ w) = code := by
  have hsplit : sql = p ++ u ++ (w ++ z) := by rw [hsql]; simp
  have hstart' : m.start = Text.width (p ++ u) := by rw [hstart, hk, Text.width_append]
  have hstop' : m.stop = Text.width (p ++ u ++ w) := by rw [hstop, hstart', Text.width_append _ w]
  obtain ⟨hcut, -⟩ := wordCut_of_regexpWord hm hsplit hstart' hstop'
  rw [hsplit] at hquiet ⊢
  exact ⟨hcut.drop hp, markedName?_eq_some hquiet hcut.live hstart' hstop', hstop', hcut.after⟩

theorem unlined_regexpMarker : Unlined (regexpMarker ++ " ".toList) :=
  Text.of_chars (p := fun t => Unlined (t ++ " ".toList)) (by decide +kernel)

/-- Markers put in front of the same names. -/
theorem paired_of_replaced {ms : List Match} {k : Nat} {p p' t t' out out' : Text}
    (hout : Replaced (markedName? a) k ms t out) (hout' : Replaced (markedName? b) k ms t' out')
    (hms : ∀ m ∈ ms, m ∈ regexpWord.findAll (mask a)) (hmask : mask a = mask b) (hquiet : Quiet code a)
    (hquiet' : Quiet code b) (ha : a = p ++ t) (hb : b = p' ++ t') (hk : k = Text.width p) (hk' : k = Text.width p')
    (hp : code.after p = code) (hp' : code.after p' = code) (h : Paired t t') : Paired out out' := by
  induction hout generalizing p p' t' out' with
  | nil k t =>
    cases hout' with
    | nil => exact h
  | @cons k m ms u w rest out hstart hstop hrest ih =>
    cases hout' with
    | @cons _ _ _ u' w' rest' out' hstart' hstop' hrest' =>
    obtain ⟨hm, hms⟩ := List.forall_mem_cons.1 hms
    obtain ⟨hcut, hmark, hwidth, hcode⟩ := wordCut_of_name hm hquiet ha hk hp hstart hstop
    obtain ⟨hcut', hmark', hwidth', hcode'⟩ := wordCut_of_name (hmask ▸ hm) hquiet' hb hk' hp' hstart' hstop'
    -- the name stands in the same place, and is the same
    have hjoins : ∀ {u w z : Text}, WordCut u w z → ∀ y, (code.after u).joins (w ++ y) = true := fun hcut y =>
      joins_of_head?_isPlain hcut.live fun c hc => by
        rw [List.head?_append_of_ne_nil _ hcut.ne_nil] at hc
        exact hcut.isPlain c (List.mem_of_head? hc)
    rw [List.append_assoc, List.append_assoc] at h
    obtain ⟨hu, hnames⟩ := h.parts (hjoins hcut rest) (by omega)
    have hword : code.after w = code := after_of_all_isPlain rfl hcut.isPlain hcut.ne_nil
    obtain ⟨hw, hbehind⟩ := hnames.parts (by rw [hword, joins_code]) (by omega)
    obtain rfl : w' = w := hw.alike.eq_of_isPlain hcut.isPlain
    have hrest := ih hrest' hms (by rw [ha]; simp) (by rw [hb]; simp) hwidth hwidth' hcode hcode' hbehind
    -- the marker in front of it
    have hmarker := front_regexpMarker.code
    obtain ⟨r, hr⟩ := exists_regexpMarker_eq
    have hname := hw.append hrest (by rw [hword, joins_code]) (by rw [hword, joins_code])
    have hmarked := Paired.append ⟨rfl, unlined_regexpMarker, unlined_regexpMarker⟩ hname
      (by rw [hmarker, joins_code]) (by rw [hmarker, joins_code])
    have hall := hu.append hmarked (by rw [hr]; exact joins_slash hcut.live _) (by rw [hr]; exact joins_slash hcut'.live _)
    rw [hmark, hmark', Option.getD_some]
    simpa using hall

theorem parallel_regexpFunctions (h : Paired a b) (ha : Quiet code a) (hb : Quiet code b) :
    Parallel Paired (regexpFunctions a) (regexpFunctions b) := by
  have hframed : regexpWord.framed = true := framed_clauses _ (by simp)
  have hmask := h.alike.mask_eq
  obtain ⟨out, hout, hlog, hreplaced⟩ := exists_replaceSpans_of_pure hframed fun m hm => mark_eq_pure (m := m) hm
  obtain ⟨out', hout', hlog', hreplaced'⟩ := exists_replaceSpans_of_pure hframed fun m hm => mark_eq_pure (m := m) hm
  rw [← hmask] at hreplaced'
  have hpaired := paired_of_replaced hreplaced hreplaced' (fun _ => id) hmask ha hb (List.nil_append a).symm
    (List.nil_append b).symm rfl rfl rfl rfl h
  refine (parallel_of_gives hout hout' hlog hlog' hpaired).bind fun out out' h => ?_
  rw [hmask]
  split_ifs
  · exact (parallel_pure h).after_modify
  · exact parallel_pure h

end ToTsql

/-! ## The rules -/

instance (s s' : Segment) : Decidable (s.DiffersInside s') :=
  decidable_of_iff (s.kind = s'.kind ∧ Text.width s.text = Text.width s'.text ∧
      (s.kind ≠ .literal → s.text = s'.text) ∧ (bytes s.text).head? = (bytes s'.text).head? ∧
        (bytes s.text).getLast? = (bytes s'.text).getLast?)
    ⟨fun ⟨hkind, hwidth, htext, hfirst, hlast⟩ => ⟨hkind, hwidth, htext, hfirst, hlast⟩,
      fun h => ⟨h.kind, h.width, h.text, h.first, h.last⟩⟩

instance (a b : Text) : Decidable (DifferInLiterals a b) :=
  inferInstanceAs (Decidable (List.Forall₂ Segment.DiffersInside (segments a) (segments b)))

/-- The names of the rules that do not look inside literals. -/
def blindRules : List String :=
  ["nvl", "nvl2", "decode", "current_datetime", "concatenation", "date_functions", "string_functions", "listagg",
    "aggregates", "regexp_functions", "set_operators"]

section
variable {a b placeholder : Text} {r : Rule}

theorem parallel_of_rule (hr : r ∈ ToTsql.rules) (hname : r.name ∈ blindRules)
    (hplaceholder : r.name = "listagg" → Seam (ToTsql.skeletonEnd placeholder)) (h : DifferInLiterals a b)
    (hcomments : comments a = []) : Parallel DifferInLiterals (r.apply placeholder a) (r.apply placeholder b) := by
  have ha := comments_eq_nil_iff.1 hcomments
  have hb := comments_eq_nil_iff.1 (h.comments_eq ▸ hcomments)
  have hpaired : Paired a b := ⟨h.alike, ha.unlined, hb.unlined⟩
  have hcalls : ∀ {x y : Reporting Text}, Parallel Paired x y → Parallel DifferInLiterals x y := fun hxy =>
    hxy.mono fun _ _ hout => hout.alike.differInLiterals
  simp only [ToTsql.rules, List.mem_cons, List.not_mem_nil, or_false] at hr
  rcases hr with rfl | rfl | rfl | rfl | rfl | rfl | rfl | rfl | rfl | rfl | rfl | rfl | rfl | rfl | rfl | rfl | rfl |
    rfl | rfl
  · exact absurd hname (by decide)
  · exact absurd hname (by decide)
  · exact hcalls (ToTsql.parallel_nvl hpaired)
  · exact hcalls (ToTsql.parallel_nvl2 hpaired)
  · exact hcalls (ToTsql.parallel_decode hpaired)
  · exact parallel_pure (differInLiterals_toTsql_currentDatetime h)
  · exact parallel_pure (differInLiterals_concatenation h)
  · exact absurd hname (by decide)
  · exact absurd hname (by decide)
  · exact hcalls (ToTsql.parallel_dateFunctions hpaired)
  · exact absurd hname (by decide)
  · exact hcalls (ToTsql.parallel_stringFunctions hpaired)
  · exact hcalls (ToTsql.parallel_listagg (hplaceholder rfl) hpaired)
  · exact hcalls (ToTsql.parallel_aggregates hpaired)
  · exact hcalls (ToTsql.parallel_regexpFunctions hpaired ha hb)
  · exact parallel_pure (differInLiterals_toTsql_setOperators h)
  · exact absurd hname (by decide)
  · exact absurd hname (by decide)
  · exact absurd hname (by decide)

/-- On two queries without comments that differ inside literals such a rule raises the same warnings and leaves
two queries that differ inside literals, with one mask. The placeholder of the rule for `LISTAGG` is such that
the skeleton ends in code, and not in a comment to the end of the line. -/
theorem differInLiterals_of_rule (hr : r ∈ ToTsql.rules) (hname : r.name ∈ blindRules)
    (hplaceholder : r.name = "listagg" → Seam (ToTsql.skeletonEnd placeholder)) (h : DifferInLiterals a b)
    (hcomments : comments a = []) (raised : List Warning) :
    ∃ a' b' raised', (r.apply placeholder a).run raised = some (a', raised') ∧
      (r.apply placeholder b).run raised = some (b', raised') ∧ DifferInLiterals a' b' ∧
      Text.width a' = Text.width b' ∧ mask a' = mask b' := by
  obtain ⟨a', b', raised', ha, hb, hout⟩ := parallel_of_rule hr hname hplaceholder h hcomments raised
  exact ⟨a', b', raised', ha, hb, hout, hout.alike.width_eq, hout.alike.mask_eq⟩

/-- A separator and a condition that look like code are left in their literals. -/
theorem differInLiterals_of_listagg :
    (⟨"listagg", ToTsql.listagg⟩ : Rule) ∈ ToTsql.rules ∧ "listagg" ∈ blindRules ∧
      Seam (ToTsql.skeletonEnd "<source_table>") ∧
      DifferInLiterals "SELECT LISTAGG(DISTINCT x, ', ') FROM t WHERE y = 'ab'"
        "SELECT LISTAGG(DISTINCT x, '))') FROM t WHERE y = '--'" ∧
      comments "SELECT LISTAGG(DISTINCT x, ', ') FROM t WHERE y = 'ab'" = [] ∧
      ∃ a' b' raised',
        (ToTsql.listagg "<source_table>" "SELECT LISTAGG(DISTINCT x, ', ') FROM t WHERE y = 'ab'").run [] =
            some (a', raised') ∧
          (ToTsql.listagg "<source_table>" "SELECT LISTAGG(DISTINCT x, '))') FROM t WHERE y = '--'").run [] =
            some (b', raised') ∧
          DifferInLiterals a' b' ∧ Text.width a' = Text.width b' ∧ mask a' = mask b' := by
  have hr : (⟨"listagg", ToTsql.listagg⟩ : Rule) ∈ ToTsql.rules := by simp [ToTsql.rules]
  have hname : "listagg" ∈ blindRules := by decide
  have hplaceholder : Seam (ToTsql.skeletonEnd "<source_table>") := by decide +kernel
  have hdiffer : DifferInLiterals "SELECT LISTAGG(DISTINCT x, ', ') FROM t WHERE y = 'ab'"
      "SELECT LISTAGG(DISTINCT x, '))') FROM t WHERE y = '--'" := by
    decide +kernel
  have hcomments : comments "SELECT LISTAGG(DISTINCT x, ', ') FROM t WHERE y = 'ab'" = [] := by decide +kernel
  exact ⟨hr, hname, hplaceholder, hdiffer, hcomments,
    differInLiterals_of_rule hr hname (fun _ => hplaceholder) hdiffer hcomments []⟩

/-- Behind a placeholder that opens a literal, or a comment to the end of the line, the literals of the query
are read as code. -/
theorem listagg_open_placeholder :
    (DifferInLiterals "SELECT LISTAGG(DISTINCT y) WITHIN GROUP (ORDER BY LISTAGG(DISTINCT x) || 'aaaa') FROM t"
        "SELECT LISTAGG(DISTINCT y) WITHIN GROUP (ORDER BY LISTAGG(DISTINCT x) || ')))a') FROM t" ∧
      comments "SELECT LISTAGG(DISTINCT y) WITHIN GROUP (ORDER BY LISTAGG(DISTINCT x) || 'aaaa') FROM t" = [] ∧
      ((ToTsql.listagg "'" "SELECT LISTAGG(DISTINCT y) WITHIN GROUP (ORDER BY LISTAGG(DISTINCT x) || 'aaaa') FROM t").run
        []).map (fun r => Text.width r.1) = some 349 ∧
      ((ToTsql.listagg "'" "SELECT LISTAGG(DISTINCT y) WITHIN GROUP (ORDER BY LISTAGG(DISTINCT x) || ')))a') FROM t").run
        []).map (fun r => Text.width r.1) = some 167) ∧
    DifferInLiterals "SELECT LISTAGG(DISTINCT x) || 'a\nb' FROM t" "SELECT LISTAGG(DISTINCT x) || 'a b' FROM t" ∧
      comments "SELECT LISTAGG(DISTINCT x) || 'a\nb' FROM t" = [] ∧
      ((ToTsql.listagg "t --" "SELECT LISTAGG(DISTINCT x) || 'a\nb' FROM t").run []).map (fun r => mask r.1) ≠
        ((ToTsql.listagg "t --" "SELECT LISTAGG(DISTINCT x) || 'a b' FROM t").run []).map (fun r => mask r.1) := by
  repeat rewrite [String.toList_ofList]
  refine ⟨⟨?_, ?_, ?_, ?_⟩, ?_, ?_, ?_⟩ <;> decide +kernel

end

end DialectBridge
