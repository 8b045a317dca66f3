import DialectBridge.Proofs.SegmentEdits
import DialectBridge.Proofs.StepMeasures
import DialectBridge.Proofs.Totality
/-!
# Rules that lose comments

`FROM DUAL`, hints and an `OFFSET 0 ROWS` are found in the mask and taken out of the query with the
comments inside of them, and so are the row limits, one in each step. The comments of the query
survive just if nothing that is taken out holds one (`comments_survive_iff`). A step that moves a
`TOP` may write some comments twice; it keeps them all if the `TOP` holds none and its condition
lands in code.
-/
namespace DialectBridge
open Pattern LexState

/-! ## Where the clauses begin and end -/

theorem firm_dualClause : BeginsFirm ToTsql.dualClause ∧ EndsFirm ToTsql.dualClause := by
  constructor
  · iterate 3 refine .seq ?_ _
    exact beginsFirm_blanks_word (by decide)
  · exact ((endsFirm_word (by decide)).seq _).edge

theorem endsFirm_restOfList : EndsFirm ToOracle.restOfList := endsFirm_close.seq _

theorem firm_queryOption : BeginsFirm ToOracle.queryOption ∧ EndsFirm ToOracle.queryOption := by
  constructor
  · iterate 3 refine .seq ?_ _
    exact beginsFirm_blanks_word (by decide)
  · exact endsFirm_restOfList.seq _

theorem firm_tableHint : BeginsFirm ToOracle.tableHint ∧ EndsFirm ToOracle.tableHint := by
  constructor
  · refine .alt ?_ ?_
    · iterate 6 refine .seq ?_ _
      exact beginsFirm_blanks_word (by decide)
    · iterate 4 refine .seq ?_ _
      exact .of_blank (fun _ _ _ => isBlank_of_matches_blanks) beginsFirm_open
  · exact .alt (endsFirm_restOfList.seq _) (endsFirm_close.seq _)

theorem firm_offsetZeroFetch :
    BeginsFirm ToOracle.offsetZeroFetch ∧ EndsFirm ToOracle.offsetZeroFetch := by
  constructor
  · iterate 17 refine .seq ?_ _
    refine .of_blank (fun u w v h => ?_) (beginsFirm_word (by decide))
    simp [(matches_edge.1 h).1]
  · exact ((endsFirm_word (by decide)).seq _).edge

/-! ## Taking clauses out -/

/-- A clause that is taken out wherever it stands. -/
structure Removable (p : Pattern) : Prop where
  framed : p.framed = true
  begins : BeginsFirm p
  ends : EndsFirm p

theorem removable_dualClause : Removable ToTsql.dualClause :=
  ⟨framed_clauses _ (by simp), firm_dualClause.1, firm_dualClause.2⟩

theorem removable_tableHint : Removable ToOracle.tableHint :=
  ⟨framed_clauses _ (by simp), firm_tableHint.1, firm_tableHint.2⟩

theorem removable_queryOption : Removable ToOracle.queryOption :=
  ⟨framed_clauses _ (by simp), firm_queryOption.1, firm_queryOption.2⟩

/-- All comments outside of the matches survive, if the text behind every match can stand behind
any code. -/
theorem Removable.exists_comments {σ : Type} {p : Pattern} (hp : Removable p) (sql : Text) :
    ∃ out, Gives (replaceSpans sql p fun _ => return some [] : Editing σ Text) out ∧
      ((∀ m ∈ p.findAll (mask sql), clearBehind sql m = true) →
        (comments out).Sublist (comments sql) ∧
          (comments sql).length = (comments out).length + (commentsTaken p sql).length) := by
  have hgives : ∀ m ∈ p.findAll (mask sql), Gives (pure (some []) : Editing σ (Option Text)) (some []) :=
    fun _ _ => gives_pure _
  by_cases hclear : ∀ m ∈ p.findAll (mask sql), clearBehind sql m = true
  · obtain ⟨out, hout, hkept⟩ := exists_comments_replaceSpans hp.framed hp.begins hp.ends hgives
      fun m hm => ⟨[], rfl, by simp, fun _ => hclear m hm⟩
    exact ⟨out, hout, fun _ => hkept⟩
  · obtain ⟨out, hout, -⟩ := gives_replaceSpans hp.framed hgives
    exact ⟨out, hout, fun h => absurd h hclear⟩

theorem exists_comments_fromDual (sql : Text) : ∃ out, Gives (ToTsql.fromDual sql) out ∧
    ((∀ m ∈ ToTsql.dualClause.findAll (mask sql), clearBehind sql m = true) →
      ((comments sql).Sublist (comments out) ↔ commentsTaken ToTsql.dualClause sql = [])) := by
  obtain ⟨out, hout, hkept⟩ := removable_dualClause.exists_comments sql
  exact ⟨out, hout, fun hclear => sublist_iff_taken_eq_nil (hkept hclear).1 (hkept hclear).2⟩

namespace ToOracle

/-- The clause without its `OFFSET` is code wherever it stands, so that all comments outside of the
matches survive. -/
theorem exists_comments_offsetFetch (sql : Text) : ∃ out, Gives (offsetFetch sql) out ∧
    ((comments sql).Sublist (comments out) ↔ commentsTaken offsetZeroFetch sql = []) := by
  choose! span n hspan hslice hword using fun m (hm : m ∈ offsetZeroFetch.findAll (mask sql)) =>
    exists_offsetCount sql hm
  have hkept : ∃ out, Gives (offsetFetch sql) out ∧ (comments out).Sublist (comments sql) ∧
      (comments sql).length = (comments out).length + (commentsTaken offsetZeroFetch sql).length := by
    refine exists_comments_replaceSpans (g := fun m => some ("FETCH FIRST " ++ n m ++ " ROWS ONLY"))
      (framed_clauses _ (by simp)) firm_offsetZeroFetch.1 firm_offsetZeroFetch.2 (fun m hm => ?_)
      fun m hm => ⟨_, rfl, ?_, by simp⟩
    · rw [hspan m hm]
      exact (gives_lift (hslice m hm)).bind (gives_pure _)
    · simp only [List.forall_mem_append]
      exact ⟨⟨by decide, fun c hc => isPlain_of_isWordChar (hword m hm c hc)⟩, by decide⟩
  obtain ⟨out, hout, hsub, hlength⟩ := hkept
  exact ⟨out, hout, sublist_iff_taken_eq_nil hsub hlength⟩

/-- Hints are taken out first and options from what is left. -/
theorem exists_comments_tableHints (sql : Text) :
    ∃ once out, Gives (replaceSpans sql tableHint fun _ => return some [] : Reporting Text) once ∧
      Gives (tableHints sql) out ∧
      ((∀ m ∈ tableHint.findAll (mask sql), clearBehind sql m = true) →
        (∀ m ∈ queryOption.findAll (mask once), clearBehind once m = true) →
        ((comments sql).Sublist (comments out) ↔
          commentsTaken tableHint sql = [] ∧ commentsTaken queryOption once = [])) := by
  obtain ⟨once, honce, hkept⟩ := removable_tableHint.exists_comments sql
  obtain ⟨out, hout, hkept'⟩ := removable_queryOption.exists_comments once
  refine ⟨once, out, honce, honce.bind (hout.bind ?_), fun hclear hclear' => ?_⟩
  · split
    · exact (gives_warnOnce _ _).bind (gives_pure out)
    · exact gives_pure out
  obtain ⟨hsub, hlength⟩ := hkept hclear
  obtain ⟨hsub', hlength'⟩ := hkept' hclear'
  rw [← List.append_eq_nil_iff]
  exact sublist_iff_taken_eq_nil (hsub'.trans hsub) (by rw [List.length_append]; omega)

end ToOracle

/-! ## Steps -/

section
variable {α β : Type}

/-- The first of some things in which an edit finds something. -/
def firstFound (f : α → Reporting (Option β)) (l : List α) : Option α :=
  l.find? fun a => ((f a).run []).any fun r => r.1.isSome

theorem yields_firstFound {f : α → Reporting (Option β)} {l : List α} (hf : ∀ a ∈ l, Total (f a)) :
    Yields (l.findSomeM? f) fun r => ∀ b ∈ r, ∃ a ∈ l, firstFound f l = some a ∧ Gives (f a) (some b) := by
  induction l with
  | nil => exact yields_pure (by simp)
  | cons a l ih =>
    obtain ⟨r, hr⟩ := hf a (by simp)
    obtain ⟨log, hrun⟩ := hr []
    rw [List.findSomeM?]
    refine hr.yields_bind ?_
    cases r with
    | none =>
      obtain ⟨r, hr, hfound⟩ := ih fun a' ha' => hf a' (by simp [ha'])
      refine ⟨r, hr, fun b hb => ?_⟩
      obtain ⟨a', ha', hfirst, hgives⟩ := hfound b hb
      exact ⟨a', by simp [ha'], by simpa [firstFound, hrun] using hfirst, hgives⟩
    | some b =>
      refine yields_pure ?_
      rintro _ ⟨⟩
      exact ⟨a, by simp, by simp [firstFound, hrun], hr⟩

end

theorem Gives.of_yields {α : Type} {x : Reporting α} {a : α} {P : α → Prop} (hx : Gives x a) (h : Yields x P) : P a := by
  obtain ⟨b, hb, hP⟩ := h
  rwa [hx.unique hb []]

theorem sublist_of_cut (a c w : List Text) :
    (a ++ c).Sublist (a ++ (w ++ c)) ∧ ((a ++ (w ++ c)).Sublist (a ++ c) ↔ w = []) := by
  have hsub : (a ++ c).Sublist (a ++ (w ++ c)) := (List.sublist_append_right w c).append_left a
  exact ⟨hsub, sublist_iff_taken_eq_nil hsub (by simp only [List.length_append]; omega)⟩

/-- What a step takes out of a query: the text between two offsets. If it is `bare`, nothing is put in its place. -/
structure Deletion where
  start : Nat
  stop : Nat
  bare : Bool
  deriving DecidableEq, Repr

namespace Deletion

/-- The comments in the text that is taken out. -/
def lost (d : Deletion) (sql : Text) : List Text := comments ((Text.slice? sql d.start d.stop).getD [])

/-- Whether the text behind it can stand behind any code, if nothing is put in between. -/
def clear (d : Deletion) (sql : Text) : Bool :=
  !d.bare || (Text.from? sql d.stop).all fun z => z.head?.all isPlain

/-- The query loses the comments in the text that is taken out, and no other one. -/
def Loses (d : Deletion) (sql next : Text) : Prop :=
  d.clear sql = true → (comments next).Sublist (comments sql) ∧
    ((comments sql).Sublist (comments next) ↔ d.lost sql = [])

end Deletion

theorem Removed.loses {x w y r next : Text} {d : Deletion} (h : Removed x w y) (hstart : d.start = Text.width x)
    (hstop : d.stop = Text.width (x ++ w)) (hr : ∀ c ∈ r, isPlain c = true) (hbare : r = [] → d.bare = true)
    (hnext : comments next = comments (x ++ (r ++ y))) : d.Loses (x ++ (w ++ y)) next := by
  intro hclear
  have hstands : r = [] → Stands y := by
    intro hnil
    refine stands_of_isPlain fun c hc => ?_
    rw [Deletion.clear, hbare hnil, hstop, ← List.append_assoc, Text.from?_append] at hclear
    simpa [Option.mem_def.1 hc] using hclear
  have hlost : d.lost (x ++ (w ++ y)) = comments w := by
    rw [Deletion.lost, hstart, hstop, Text.slice?_between, Option.getD_some]
  rw [hnext, h.comments_replaced hr hstands, h.comments_eq, hlost]
  exact sublist_of_cut _ _ _

/-! ## All passes -/

section
variable {step : Text → Reporting (Option Text)} {deletion? : Text → Option Deletion} {texts : List Text} {sql out : Text}

/-- The comments in what the steps on a query take out. -/
def lostOn (step : Text → Reporting (Option Text)) (deletion? : Text → Option Deletion) (sql : Text) : List Text :=
  (passTexts step maxPasses sql).flatMap fun t => ((deletion? t).map (Deletion.lost · t)).getD []

/-- Whether what stands behind the text that a step takes out can stand there without it, for all steps on a query. -/
def clearOn (step : Text → Reporting (Option Text)) (deletion? : Text → Option Deletion) (sql : Text) : Bool :=
  (passTexts step maxPasses sql).all fun t => (deletion? t).all (Deletion.clear · t)

/-- Comments that one step loses are not written again by another one. -/
theorem Passes.comments_iff (h : Passes step texts sql out)
    (hstep : ∀ sql next, Makes step sql next → ∃ d, deletion? sql = some d ∧ d.Loses sql next)
    (hclear : ∀ t ∈ texts, (deletion? t).all (Deletion.clear · t) = true) :
    (comments out).Sublist (comments sql) ∧ ((comments sql).Sublist (comments out) ↔
      ∀ t ∈ texts, ((deletion? t).map (Deletion.lost · t)).getD [] = []) := by
  induction h with
  | nil => exact ⟨List.Sublist.refl _, iff_of_true (List.Sublist.refl _) (by simp)⟩
  | cons hmakes _ ih =>
    obtain ⟨d, hd, hloses⟩ := hstep _ _ hmakes
    simp only [List.forall_mem_cons, hd, Option.all_some, Option.map_some, Option.getD_some] at hclear ⊢
    obtain ⟨hsub, hlost⟩ := hloses hclear.1
    obtain ⟨hsub', hlost'⟩ := ih hclear.2
    refine ⟨hsub'.trans hsub, fun hkept => ⟨hlost.1 (hkept.trans hsub'), hlost'.1 (hsub.trans hkept)⟩, ?_⟩
    rintro ⟨hnil, hnil'⟩
    exact (hlost.2 hnil).trans (hlost'.2 hnil')

theorem exists_comments_fixpoint (htotal : ∀ sql, Total (step sql))
    (hstep : ∀ sql next, Makes step sql next → ∃ d, deletion? sql = some d ∧ d.Loses sql next) (sql : Text) :
    ∃ out, Gives (fixpoint step sql) out ∧ (clearOn step deletion? sql = true →
      ((comments sql).Sublist (comments out) ↔ lostOn step deletion? sql = [])) := by
  obtain ⟨out, hout, hpasses⟩ := exists_passes htotal maxPasses sql
  refine ⟨out, hout, fun hclear => ?_⟩
  rw [lostOn, List.flatMap_eq_nil_iff]
  exact (hpasses.comments_iff hstep (List.all_eq_true.1 hclear)).2

end

/-! ## Row limits of Oracle -/

namespace ToTsql

/-- A `TOP` in the heading leaves the comments as they are. -/
theorem comments_insertTop? {a c out : Text} {n : Nat} (hapart : Apart a c)
    (h : insertTop? (a ++ c) (Text.width a) n = some (some out)) : comments out = comments (a ++ c) := by
  obtain ⟨r, hr, hplace⟩ := exists_insertTop? a c n
  obtain rfl := Option.some.inj (hr.symm.trans h)
  obtain ⟨x, s, y, rfl, hs, -, -, hlive, rfl⟩ := hplace out rfl hapart
  have hne : s ≠ [] := by
    obtain ⟨t, ht, hspelled⟩ := hs.exists_name
    exact hspelled.ne_nil ht
  have hplain : ∀ e ∈ s ++ topText n, isPlain e = true := List.forall_mem_append.2 ⟨hs.isPlain, isPlain_topText n⟩
  have hnew := comments_between hlive hplain (by simp [hne]) (y ++ c)
  have hold := comments_between hlive hs.isPlain hne (y ++ c)
  simp only [List.append_assoc] at hnew hold ⊢
  rw [hnew, hold]

def nextRownum? (sql : Text) : Option (RownumForm × Match) := do
  let form ← firstFound (fun form => (form.pattern.findAll (mask sql)).findSomeM? fun m => moveRownum sql (mask sql) form m)
    rownumForms
  let m ← firstFound (moveRownum sql (mask sql) form) (form.pattern.findAll (mask sql))
  return (form, m)

/-- A test is taken out with the word in front of it or behind it; a `WHERE` may be left. -/
def rownumDeletion? (sql : Text) : Option Deletion :=
  (nextRownum? sql).map fun (form, m) => ⟨m.start, m.stop, form.kept.toList.isEmpty⟩

theorem yields_nextRownum (sql : Text) : Yields (rownumStep sql) fun r => ∀ next ∈ r, ∃ form ∈ rownumForms,
    ∃ m ∈ form.pattern.findAll (mask sql), nextRownum? sql = some (form, m) ∧
      Gives (moveRownum sql (mask sql) form m) (some next) := by
  have hmoves : ∀ form ∈ rownumForms, ∀ m ∈ form.pattern.findAll (mask sql), Total (moveRownum sql (mask sql) form m) :=
    fun form hform m hm => (exists_moveRownum hform hm).total
  obtain ⟨r, hr, hform⟩ := yields_firstFound fun form hform => total_findSomeM? (hmoves form hform)
  refine ⟨r, hr, fun next hnext => ?_⟩
  obtain ⟨form, hform, hfirst, hgives⟩ := hform next hnext
  obtain ⟨m, hm, hfirst', hgives'⟩ := hgives.of_yields (yields_firstFound (hmoves form hform)) next rfl
  exact ⟨form, hform, m, hm, by simp [nextRownum?, hfirst, hfirst'], hgives'⟩

theorem loses_rownumStep (sql next : Text) (h : Makes rownumStep sql next) :
    ∃ d, rownumDeletion? sql = some d ∧ d.Loses sql next := by
  refine Yields.of_makes (P := fun next => ∃ d, rownumDeletion? sql = some d ∧ d.Loses sql next) ?_ h
  obtain ⟨r, hr, hmoved⟩ := yields_nextRownum sql
  refine ⟨r, hr, fun next hnext => ?_⟩
  obtain ⟨form, hform, m, hm, hfound, hgives⟩ := hmoved next hnext
  obtain ⟨a, w, c, n, hsql, hstart, hstop, -, -, hinsert⟩ := hgives.of_yields (exists_moveRownum hform hm) next rfl
  obtain ⟨hapart, -⟩ := occurrences_rownum_lt hform hm hsql hstart hstop
  obtain ⟨hbegin, hend⟩ := firm_of_mem_rownumForms hform
  have hplain : ∀ form ∈ rownumForms, ∀ c ∈ form.kept.toList, isPlain c = true := by decide
  rw [List.append_assoc] at hsql hinsert
  refine ⟨_, by rw [rownumDeletion?, hfound]; rfl, ?_⟩
  have hremoved := removed_of_mem_findAll (framed_of_mem_rownumForms form hform) hbegin hend hm hsql hstart hstop
  rw [hsql]
  exact hremoved.loses hstart hstop (hplain form hform) List.isEmpty_iff.2 (comments_insertTop? hapart hinsert)

theorem comments_of_inert {t t' : Text} (h : inert t = inert t') : comments t = comments t' := by
  have hcomments : ∀ t, comments t = ((inert t).filter fun s => s.kind == .comment).map Segment.text := by
    intro t
    rw [comments, inert, List.filter_filter]
    congr 2
    funext s
    cases s.kind <;> rfl
  rw [hcomments, hcomments, h]

/-- A `ROWNUM` that is left goes without a comment. -/
theorem exists_comments_rownumLimit (sql : Text) : ∃ out, Gives (rownumLimit sql) out ∧
    (clearOn rownumStep rownumDeletion? sql = true →
      ((comments sql).Sublist (comments out) ↔ lostOn rownumStep rownumDeletion? sql = [])) := by
  obtain ⟨out, hout, hkept⟩ := exists_comments_fixpoint total_rownumStep loses_rownumStep sql
  by_cases hleft : (keyword "ROWNUM").occursIn (mask out) = true
  · refine ⟨replaceCode (keyword "ROWNUM") "ROW_NUMBER() OVER (ORDER BY (SELECT NULL))" out, hout.bind ?_, ?_⟩
    · rw [if_pos hleft]
      exact (gives_warn _ _).bind (gives_pure _)
    · rwa [comments_of_inert (inert_replaceWord (by decide) (by decide) (by decide) out)]
  · exact ⟨out, hout.bind (by rw [if_neg hleft]; exact gives_pure out), hkept⟩

theorem firm_fetchFirstClause : BeginsFirm fetchFirstClause ∧ EndsFirm fetchFirstClause := by
  constructor
  · iterate 10 refine .seq ?_ _
    refine .of_blank (fun u w v h => ?_) (beginsFirm_word (by decide))
    obtain ⟨b, e, rfl, hb, he⟩ := matches_seq.1 h
    obtain ⟨rfl, -⟩ := matches_edge.1 he
    rw [List.append_nil]
    exact isBlank_of_matches_blanks (matches_group.1 hb)
  · exact ((endsFirm_word (by decide)).seq _).edge

def nextFetch? (sql : Text) : Option Match := firstFound (moveFetch sql (mask sql)) (fetchFirstClause.findAll (mask sql))

def isOrdered (sql : Text) (place : Nat) : Bool :=
  (depthZeroMatches? (mask sql) (scopeStart (mask sql) place) place orderBy).any fun orders => !orders.isEmpty

/-- In an ordered block a clause gives way to another one; elsewhere it is taken out with the white space in front. -/
def fetchDeletion? (sql : Text) : Option Deletion := do
  let m ← nextFetch? sql
  let space ← m.groupSpan? 1
  return if isOrdered sql space.stop then ⟨space.stop, m.stop, false⟩ else ⟨m.start, m.stop, true⟩

theorem FetchCut.removed {sql a b f y o c : Text} (h : FetchCut sql a b f y o c) : Removed (a ++ b) (f ++ (y ++ o)) c := by
  have hfetch : ∀ e ∈ f, isPlain e = true := fun e he => isPlain_of_isWordChar (h.fetch.isWordChar (by decide) e he)
  have honly : ∀ e ∈ o, isPlain e = true := fun e he => isPlain_of_isWordChar (h.only.isWordChar (by decide) e he)
  have hne := h.fetch.ne_nil (by decide)
  have hcode : (code.after (a ++ b)).after f = code := after_of_all_isPlain h.live hfetch hne
  refine ⟨h.live, joins_of_head?_isPlain h.live fun e he => ?_, ?_⟩
  · rw [List.append_assoc, List.head?_append_of_ne_nil _ hne] at he
    exact hfetch e (List.mem_of_head? he)
  · rw [after_append, after_append, after_append, hcode,
      after_of_all_isPlain h.inner honly (h.only.ne_nil (by decide))]

theorem loses_fetchStep (sql next : Text) (h : Makes fetchStep sql next) :
    ∃ d, fetchDeletion? sql = some d ∧ d.Loses sql next := by
  refine Yields.of_makes (P := fun next => ∃ d, fetchDeletion? sql = some d ∧ d.Loses sql next) ?_ h
  obtain ⟨r, hr, hmoved⟩ := yields_firstFound fun m (hm : m ∈ fetchFirstClause.findAll (mask sql)) => (exists_moveFetch hm).total
  refine ⟨r, hr, fun next hnext => ?_⟩
  obtain ⟨m, hm, hfirst, hgives⟩ := hmoved next hnext
  obtain ⟨a, b, f, y, o, c, n, hfound⟩ := exists_fetchFound hm
  cases hread : Text.readNat? 10 (Nat.pow 2 64) n with
  | none => exact absurd (hgives.unique (hfound.gives_none (.inr hread)) []) (by simp)
  | some limit =>
  cases hoffset : offsetBefore.occursIn (mask (a ++ b)) with
  | true => exact absurd (hgives.unique (hfound.gives_none (.inl hoffset)) []) (by simp)
  | false =>
  obtain ⟨orders, horders⟩ :=
    exists_depthZeroMatches?_scopeStart (mask (a ++ b)) (f ++ mask (y ++ (o ++ c))) orderBy
  rw [← hfound.mask_eq, width_mask] at horders
  obtain ⟨r, hinsert, -⟩ := exists_insertTop? a c limit
  have hsame := hgives.unique (hfound.gives_moveFetch hread hoffset horders hinsert) []
  have hdeletion : fetchDeletion? sql = some (if (!orders.isEmpty) = true then ⟨Text.width (a ++ b), m.stop, false⟩
      else ⟨m.start, m.stop, true⟩) := by
    simp only [fetchDeletion?, nextFetch?, hfirst, hfound.space, isOrdered, horders, Option.bind_eq_bind, Option.bind_some,
      Option.any_some, Option.pure_def]
  refine ⟨_, hdeletion, ?_⟩
  have hsplit := hfound.split
  split_ifs at hsame ⊢ with horder
  · obtain rfl := Option.some.inj hsame
    have hsql : sql = a ++ b ++ ((f ++ (y ++ o)) ++ c) := by rw [hsplit]; simp
    have hloses := hfound.toFetchCut.removed.loses (d := ⟨Text.width (a ++ b), m.stop, false⟩) rfl hfound.stop
      (isPlain_offsetText limit) (fun hnil => absurd hnil (offsetText_ne_nil limit)) rfl
    rwa [← hsql] at hloses
  · subst hsame
    have hsql : sql = a ++ ((b ++ (f ++ (y ++ o))) ++ c) := by rw [hsplit]; simp
    have hstop : m.stop = Text.width (a ++ (b ++ (f ++ (y ++ o)))) := by rw [hfound.stop]; simp only [List.append_assoc]
    have hremoved := removed_of_mem_findAll (by decide) firm_fetchFirstClause.1 firm_fetchFirstClause.2 hm hsql
      hfound.start hstop
    have hloses := hremoved.loses (d := ⟨m.start, m.stop, true⟩) (r := []) hfound.start hstop (by simp) (fun _ => rfl)
      (comments_insertTop? (.of_begins hfound.right a) hinsert)
    rwa [← hsql] at hloses

theorem exists_comments_fetchFirst (sql : Text) : ∃ out, Gives (fetchFirst sql) out ∧
    (clearOn fetchStep fetchDeletion? sql = true →
      ((comments sql).Sublist (comments out) ↔ lostOn fetchStep fetchDeletion? sql = [])) :=
  exists_comments_fixpoint total_fetchStep loses_fetchStep sql

end ToTsql

/-! ## Row limits of T-SQL -/

namespace ToOracle

/-- What is taken out with a `TOP`: all that stands between the heading with its quantifier and the select list. -/
def topDeletion? (sql : Text) : Option Deletion :=
  (nextTop? sql).map fun m => ⟨(m.groupSpan? 1).elim (m.start + 6) Span.stop, m.stop, false⟩

/-- Whether what is added at a place gets into no comment and no comment gets shorter. -/
def filterClear? (sql : Text) : FilterPlace → Option Bool
  | .conditions start stop => do
    let before ← Text.upTo? sql start
    let kept := Text.dropTrailing isBlockEnd (← Text.slice? sql start stop)
    let ors ← depthZeroMatches? (mask sql) start (start + Text.width kept) (keyword "OR")
    return ors.isEmpty || (code.after (before ++ kept)).live
  | .clause _ => some true
  | .atEnd body stop => do
    let before ← Text.upTo? sql body
    let block ← Text.slice? sql body stop
    let content := Text.dropTrailing isBlockEnd block
    let tail ← Text.from? block (Text.width content)
    let state := code.after (before ++ content)
    return state.joins (separator content) && state.joins tail

/-- Whether the condition that the next step adds gets into no comment. -/
def topClear? (sql : Text) : Option Bool := do
  let m ← nextTop? sql
  let (dropped, body) ← dropTop? sql m
  filterClear? dropped (← filterPlace? dropped body)

/-- With a `TOP` go the comments in front of it and inside of it. -/
theorem TopCut.comments_eq {sql n a k s d f b c : Text} {m : Match} (h : TopCut sql m n a k s d f b c) :
    ∃ x, comments (a ++ (k ++ d) ++ [' '] ++ c) = x ++ comments c ∧
      comments sql = x ++ (comments (f ++ b) ++ comments c) := by
  have hkeyword : ∀ e ∈ k ++ s, isPlain e = true := fun e he => isPlain_of_isWordChar (h.keyword_word e he)
  have hold := comments_between h.live hkeyword (by simp [h.keyword_ne_nil]) (d ++ (f ++ (b ++ c)))
  have hnew := comments_between h.live (fun e he => hkeyword e (List.mem_append_left s he)) h.keyword_ne_nil
    (d ++ ([' '] ++ c))
  have hd : ∀ t, comments (d ++ t) = comments d ++ comments t := fun t =>
    comments_append (by rw [h.inner]; exact joins_code t)
  have hf : ∀ t, comments (f ++ t) = comments f ++ comments t := fun t =>
    comments_append (by rw [h.behind]; exact joins_code t)
  have hspace : comments ([' '] ++ c) = comments c := by
    have := comments_between (x := []) (r := [' ']) rfl (by decide) (by decide) c
    simpa [comments_of_isPlain] using this
  refine ⟨comments a ++ comments d, ?_, ?_⟩
  · simp only [List.append_assoc] at hnew ⊢
    rw [hnew, hd, hspace]
  · rw [h.split, hold, hd, hf, hf, comments_append h.joins]
    simp only [List.append_assoc]

theorem TopCut.deletion_eq {sql n a k s d f b c : Text} {m : Match} (h : TopCut sql m n a k s d f b c)
    (hnext : nextTop? sql = some m) : ((topDeletion? sql).map (Deletion.lost · sql)).getD [] = comments (f ++ b) := by
  rw [topDeletion?, hnext, Option.map_some, Option.map_some, Option.getD_some, Deletion.lost]
  dsimp only
  rcases h.quantifier with ⟨rfl, hnone⟩ | ⟨-, hsome⟩
  · have hs : ∀ e ∈ s, isPlain e = true := fun e he => isPlain_of_isWordChar (h.keyword_word e (List.mem_append_right k he))
    have hstart : m.start + 6 = Text.width (a ++ k) := by rw [h.start, Text.width_append, h.width]
    have hstop : m.stop = Text.width (a ++ k ++ (s ++ (f ++ b))) := by
      rw [h.stop]
      simp only [List.append_assoc, List.nil_append]
    have hsql : sql = a ++ k ++ (s ++ (f ++ b) ++ c) := by
      rw [h.split]
      simp only [List.append_assoc, List.nil_append]
    rw [hnone, Option.elim_none, hstart, hstop, hsql, Text.slice?_between, Option.getD_some]
    cases s with
    | nil => rfl
    | cons e s =>
      have := comments_between (x := []) rfl hs (List.cons_ne_nil e s) (f ++ b)
      simpa [comments_of_isPlain] using this
  · have hstop : m.stop = Text.width (a ++ (k ++ s) ++ d ++ (f ++ b)) := by
      rw [h.stop]
      simp only [List.append_assoc]
    have hsql : sql = a ++ (k ++ s) ++ d ++ (f ++ b ++ c) := by
      rw [h.split]
      simp only [List.append_assoc]
    rw [hsome, Option.elim_some, hstop, hsql, Text.slice?_between, Option.getD_some]

section
variable {n : Text} (hn : IsNumeral n)
include hn

/-- Conditions that end in code get their parentheses in code. -/
theorem Conditions.comments_enclosed {p kept tail r : Text} (h : Conditions p (kept ++ tail) r)
    (htail : ∀ e ∈ tail, isBlockEnd e = true) (hlive : (code.after kept).live = true) :
    comments (p ++ (openText n ++ (Text.trimStart kept ++ ')' :: (tail ++ r)))) = comments (p ++ (kept ++ tail ++ r)) := by
  obtain ⟨b, hsplit, hb, hcode⟩ := exists_trimStart kept
  have hblank : comments kept = comments (Text.trimStart kept) := by
    conv_lhs => rw [hsplit]
    rw [comments_append (by rw [hcode]; exact joins_code _),
      comments_of_isPlain fun e he => isPlain_of_isBlank (hb e he), List.nil_append]
  have htrimmed : (code.after (Text.trimStart kept)).live = true := by
    rwa [hsplit, after_append, hcode] at hlive
  have hbehind : (code.after p).live = true := by rw [h.behind]; rfl
  have hold : comments (p ++ (kept ++ tail ++ r)) = comments p ++ (comments kept ++ comments (tail ++ r)) := by
    rw [comments_append (by rw [h.behind]; exact joins_code _), List.append_assoc,
      comments_append (joins_of_head?_isPlain hlive (h.isPlain_rest htail))]
  have hclose := comments_between htrimmed (r := [')']) (by decide) (by decide) (tail ++ r)
  rw [hold, comments_between hbehind (isPlain_of_mem_openText hn) (openText_ne_nil n), ← List.singleton_append, hclose,
    hblank]

/-- The white space in front of a clause may be written twice, with its comments. -/
theorem BeforeClause.comments_added {p s s' r : Text} (h : BeforeClause p r) (hs : ∀ c ∈ s, Unicode.isBlank c = true)
    (hlive : (code.after s').live = true) :
    comments (p ++ (s ++ (whereText n ++ (s' ++ r)))) = comments p ++ (comments s' ++ comments r) := by
  have hplain : ∀ e ∈ s ++ whereText n, isPlain e = true :=
    List.forall_mem_append.2 ⟨fun e he => isPlain_of_isBlank (hs e he), isPlain_of_mem_whereText hn⟩
  have hadded := comments_between h.live hplain (by simp [whereText_ne_nil]) (s' ++ r)
  rw [List.append_assoc] at hadded
  rw [hadded, comments_append (joins_of_head?_isPlain hlive h.isPlain_head)]

/-- A block gets its `WHERE` in code if its end and what stands behind it begin in code. -/
theorem PlainBlock.comments_added {content tail d : Text} (h : PlainBlock (content ++ tail) d)
    (hseparator : (code.after content).joins (separator content) = true) (htail : (code.after content).joins tail = true) :
    comments (content ++ (separator content ++ (whereText n ++ (tail ++ d)))) = comments (content ++ tail ++ d) := by
  have hrest : (code.after content).joins (tail ++ d) = true := by
    cases tail with
    | cons e tail => rwa [joins_cons_append]
    | nil =>
      cases d with
      | nil => exact joins_nil _
      | cons e d =>
        obtain rfl := h.stop e rfl
        have hlive := h.live_of_ne_nil (List.cons_ne_nil _ _)
        rw [List.append_nil] at hlive
        exact joins_of_live hlive (by decide)
  have hadded : (code.after content).joins (separator content ++ (whereText n ++ (tail ++ d))) = true := by
    rwa [joins_append (separator_ne_nil content)]
  have hplain : ∀ e ∈ separator content ++ whereText n, isPlain e = true :=
    List.forall_mem_append.2 ⟨fun e he => isPlain_of_isBlank (isBlank_of_mem_separator he), isPlain_of_mem_whereText hn⟩
  have hcondition := comments_between (x := []) rfl hplain (by simp [whereText_ne_nil]) (tail ++ d)
  rw [List.nil_append, List.append_assoc, comments_of_isPlain (t := []) (by simp), List.nil_append] at hcondition
  rw [List.append_assoc, comments_append hrest, comments_append hadded, hcondition]

/-- A condition that gets into no comment leaves them all. -/
theorem FilterAdded.comments_sublist {q c c' : Text} {place : FilterPlace} (hq : code.after q = code)
    (h : FilterAdded n q c place c') (hclear : filterClear? (q ++ c) place = some true) :
    (comments (q ++ c)).Sublist (comments (q ++ c')) := by
  have hbehind : ∀ t, comments (q ++ t) = comments q ++ comments t := fun t =>
    comments_append (by rw [hq]; exact joins_code t)
  rw [hbehind, hbehind]
  refine List.Sublist.append_left ?_ _
  cases h with
  | @conditions p kept tail r ors h hkept htail hors =>
    obtain ⟨hslice, hbefore⟩ := cuts_conditions q p (kept ++ tail) r
    have hafter : code.after (q ++ p ++ kept) = code.after kept := by
      rw [after_append, after_append, hq, h.behind]
    simp only [filterClear?, hslice, hbefore, hkept, hors, hafter, Option.bind_eq_bind, Option.bind_some,
      Option.pure_def, Option.some.injEq, Bool.or_eq_true] at hclear
    split_ifs with hempty
    · have hlive : (code.after p).live = true := by rw [h.behind]; rfl
      rw [comments_between hlive (isPlain_of_mem_andText hn) (List.cons_ne_nil _ _),
        comments_append (by rw [h.behind]; exact joins_code _)]
    · rw [h.comments_enclosed hn htail (hclear.resolve_left hempty)]
  | @clause p s s' r h hs hs' hne hlive =>
    rw [h.comments_added hn hs hlive, comments_append (joins_of_head?_isPlain h.live h.isPlain_head)]
    exact (List.sublist_append_right _ _).append_left _
  | @atEnd content tail d h hcontent htail =>
    have hslice := Text.slice?_between q (content ++ tail) d
    have hafter : code.after (q ++ content) = code.after content := by rw [after_append, hq]
    simp only [filterClear?, hslice, Text.upTo?_append, hcontent, Text.from?_append, hafter, Option.bind_eq_bind,
      Option.bind_some, Option.pure_def, Option.some.injEq, Bool.and_eq_true] at hclear
    rw [h.comments_added hn hclear.1 hclear.2]

end

theorem loses_topStep {sql next : Text} (h : Makes topStep sql next) (hclear : topClear? sql = some true)
    (hlost : ((topDeletion? sql).map (Deletion.lost · sql)).getD [] = []) : (comments sql).Sublist (comments next) := by
  obtain ⟨log, log', hrun⟩ := h
  cases hnext : nextTop? sql with
  | none => simp [topClear?, hnext] at hclear
  | some m =>
    obtain ⟨n, a, k, s, d, f, b, c, hcut⟩ := exists_topCut (mem_of_nextTop? hnext)
    have hdropped := hcut.dropped
    obtain ⟨place, c', hplace, hadd, hadded⟩ := exists_filterAdded n hdropped.behind hdropped.blank c
    obtain ⟨log'', hrun'⟩ := exists_run_topStep hnext hcut.number hdropped hadd log
    obtain rfl : a ++ (k ++ d) ++ [' '] ++ c' = next := by
      rw [hrun] at hrun'
      simpa using (congrArg (Option.map Prod.fst) hrun').symm
    have hfilter : filterClear? (a ++ (k ++ d) ++ [' '] ++ c) place = some true := by
      simpa only [topClear?, hnext, hdropped.drop, hplace, Option.bind_eq_bind, Option.bind_some] using hclear
    obtain ⟨x, hnew, hold⟩ := hcut.comments_eq
    rw [hcut.deletion_eq hnext] at hlost
    rw [hold, hlost, List.nil_append, ← hnew]
    exact hadded.comments_sublist hdropped.number hdropped.behind hfilter

theorem exists_comments_topToRownum (sql : Text) : ∃ out, Gives (topToRownum sql) out ∧
    (((passTexts topStep maxPasses sql).all fun t => topClear? t == some true) = true →
      lostOn topStep topDeletion? sql = [] → (comments sql).Sublist (comments out)) := by
  obtain ⟨out, hout, hpasses⟩ := exists_passes total_topStep maxPasses sql
  refine ⟨out, hout, fun hclear hlost => ?_⟩
  rw [List.all_eq_true] at hclear
  rw [lostOn, List.flatMap_eq_nil_iff] at hlost
  generalize passTexts topStep maxPasses sql = texts at hpasses hclear hlost
  clear hout
  induction hpasses with
  | nil => exact List.Sublist.refl _
  | cons hmakes _ ih =>
    rw [List.forall_mem_cons] at hclear hlost
    exact (loses_topStep hmakes (by simpa using hclear.1) hlost.1).trans (ih hclear.2 hlost.2)

end ToOracle

/-! ## All rules -/

/-- The comments of a query survive a rule that takes clauses out just if none stands in what it takes out; where
nothing is put in its place, the text behind must be able to stand behind any code. They survive the rule that moves
`TOP` if none stands in one and no condition is put into a comment. -/
theorem comments_survive_iff (sql : Text) :
    (∃ out, Gives (ToTsql.fromDual sql) out ∧
      ((∀ m ∈ ToTsql.dualClause.findAll (mask sql), clearBehind sql m = true) →
        ((comments sql).Sublist (comments out) ↔ commentsTaken ToTsql.dualClause sql = []))) ∧
    (∃ out, Gives (ToTsql.rownumLimit sql) out ∧
      (clearOn ToTsql.rownumStep ToTsql.rownumDeletion? sql = true →
        ((comments sql).Sublist (comments out) ↔ lostOn ToTsql.rownumStep ToTsql.rownumDeletion? sql = []))) ∧
    (∃ out, Gives (ToTsql.fetchFirst sql) out ∧
      (clearOn ToTsql.fetchStep ToTsql.fetchDeletion? sql = true →
        ((comments sql).Sublist (comments out) ↔ lostOn ToTsql.fetchStep ToTsql.fetchDeletion? sql = []))) ∧
    (∃ out, Gives (ToOracle.topToRownum sql) out ∧
      (((passTexts ToOracle.topStep maxPasses sql).all fun t => ToOracle.topClear? t == some true) = true →
        lostOn ToOracle.topStep ToOracle.topDeletion? sql = [] → (comments sql).Sublist (comments out))) ∧
    (∃ once out,
      Gives (replaceSpans sql ToOracle.tableHint fun _ => return some [] : Reporting Text) once ∧
      Gives (ToOracle.tableHints sql) out ∧
      ((∀ m ∈ ToOracle.tableHint.findAll (mask sql), clearBehind sql m = true) →
        (∀ m ∈ ToOracle.queryOption.findAll (mask once), clearBehind once m = true) →
        ((comments sql).Sublist (comments out) ↔ commentsTaken ToOracle.tableHint sql = [] ∧
          commentsTaken ToOracle.queryOption once = []))) ∧
    ∃ out, Gives (ToOracle.offsetFetch sql) out ∧
      ((comments sql).Sublist (comments out) ↔ commentsTaken ToOracle.offsetZeroFetch sql = []) :=
  ⟨exists_comments_fromDual sql, ToTsql.exists_comments_rownumLimit sql, ToTsql.exists_comments_fetchFirst sql,
    ToOracle.exists_comments_topToRownum sql, ToOracle.exists_comments_tableHints sql,
    ToOracle.exists_comments_offsetFetch sql⟩

/-- The comment inside of a test is lost, and the one in the select list is not. -/
example :
    let sql : Text := "SELECT a /* x */ FROM t WHERE ROWNUM /* y */ <= 5 AND b = 1"
    clearOn ToTsql.rownumStep ToTsql.rownumDeletion? sql = true ∧
      lostOn ToTsql.rownumStep ToTsql.rownumDeletion? sql = ["/* y */".toList] := by
  decide +kernel

/-- A comment in front of `FROM DUAL` goes with it. -/
theorem fromDual_loses_comment :
    ∃ out, (ToTsql.fromDual "SELECT 1 /* c */ FROM DUAL").run [] = some (out, []) ∧
      ¬ (comments "SELECT 1 /* c */ FROM DUAL").Sublist (comments out) := by
  rw [String.toList_ofList]
  exact ⟨"SELECT 1".toList, by decide +kernel, by decide +kernel⟩

end DialectBridge
