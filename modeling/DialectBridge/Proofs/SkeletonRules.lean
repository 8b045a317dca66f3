import DialectBridge.Proofs.ListaggParts
import DialectBridge.Proofs.Logs
import DialectBridge.Proofs.SkeletonMarks
/-!
# Skeletons under the rules

The rule for `LISTAGG` writes a skeleton for every call with `DISTINCT` and raises a warning. `Found`
says of a query that it has the marks of a skeleton if the warning was raised; the rule establishes it
(`found_listagg`), and every rule behind it keeps it.
-/
namespace DialectBridge
open Pattern LexState

def skeletonComments : List Text := ["/* correlate with the outer query */"]

def limitWords : List String := ["DUAL", "ROWNUM", "FETCH"]

/-- A query that has the marks of a skeleton if the warning on skeletons was raised. -/
structure Found (sql : Text) (raised : List Warning) : Prop where
  sane : Sane skeletonComments limitWords sql
  marked : .listaggDistinct ∈ raised.map Warning.category → Marked skeletonMarks (codePieces sql)

section
variable {name sql x h inside y z : Text} {m : Match} {closing : Nat} {ps gs parts : List Text}
  {raised raised' : List Warning}

theorem Found.of_raised (h : Found sql raised)
    (hsub : ∀ w ∈ raised', w.category = .listaggDistinct → w ∈ raised) : Found sql raised' := by
  refine ⟨h.sane, fun hmem => h.marked ?_⟩
  obtain ⟨w, hw, hk⟩ := List.mem_map.1 hmem
  exact List.mem_map.2 ⟨w, hsub w hw hk, hk⟩

/-- A call can be written anew with the same parts in the same order. -/
theorem Found.restitch (hfound : Found sql raised) (hcut : CallCut name sql m closing x h inside y ps)
    (hz : Sane skeletonComments limitWords z)
    (hold : ∃ l, codePieces sql = codePieces x ++ (l ++ codePieces z) ∧ Sewn IsFiller (parts.map codePieces) l)
    (hgs : Joints skeletonComments limitWords gs) (hlength : gs.length = parts.length + 1)
    (hparts : ∀ p ∈ parts, SanePart skeletonComments limitWords p) :
    Found (x ++ (stitch gs parts ++ z)) raised := by
  obtain ⟨hjoint, hpieces⟩ := isJoint_stitch parts hgs hlength hparts
  obtain ⟨hsane, hbetween⟩ := hjoint.between (hcut.sane_sides hfound.sane).1 hcut.live hcut.left hz
  refine ⟨hsane, fun hmem => ?_⟩
  obtain ⟨l, hl, hsewn⟩ := hold
  have hmarked := hfound.marked hmem
  rw [hl] at hmarked
  rw [hbetween, hpieces]
  exact hmarked.resew isMark_skeletonMarks hsewn (sewn_stitch (by simpa using hlength))

/-- A text stitched together from all the arguments of a call, or from the text between its parentheses. -/
def Restitches (call : Call) (t : Text) : Prop :=
  ∃ gs parts, t = stitch gs parts ∧ Joints skeletonComments limitWords gs ∧ gs.length = parts.length + 1 ∧
    (parts = [call.inner] ∨ parts = call.args ∧ parts ≠ [])

theorem found_replaceCalls {f : Call → Reporting (Option Text)} (hname : isName name = true)
    (hunmarked : Unmarked name) (hsilent : ∀ call, Silent .listaggDistinct (f call))
    (hf : ∀ call raised, Leads (f call) raised fun r _ => ∀ t ∈ r, Restitches call t) (hfound : Found sql raised) :
    Leads (replaceCalls sql name f) raised Found := by
  refine leads_replaceCallsBefore hname (I := Found) (fun {sql raised m closing x h inside y ps} hcut hfound => ?_) _ hfound
  refine .bind fun r raised' hrun => leads_pure ?_
  have hlog := hsilent _ raised r raised' hrun
  cases r with
  | none => exact hfound.of_raised hlog
  | some t =>
  rintro k z hy hk
  obtain ⟨rfl, rfl⟩ : k = [] ∧ z = y := Text.append_inj_of_width (by simpa using hy.symm) hk
  refine Found.of_raised ?_ hlog
  obtain ⟨gs, parts, rfl, hgs, hlength, hparts⟩ := hf _ raised _ raised' hrun t rfl
  obtain ⟨l, hl, hinner, hargs⟩ := hcut.exists_sewn hname hunmarked hfound.sane.clean
  obtain ⟨hinside, htrimmed⟩ := hcut.sane_parts hname hunmarked hfound.sane
  have hy := (hcut.sane_sides hfound.sane).2
  rcases hparts with rfl | ⟨rfl, hne⟩
  · exact hfound.restitch hcut hy ⟨l, hl, hinner⟩ hgs hlength (by simpa using hinside)
  · split_ifs at hne hlength ⊢ with hempty
    · exact absurd rfl hne
    · exact hfound.restitch hcut hy ⟨l, hl, hargs⟩ hgs hlength htrimmed

theorem found_renameCalls {old new : Text} (hold : isName old = true) (hunmarked : Unmarked old)
    (hnew : Joints skeletonComments limitWords [new ++ "(".toList, ")".toList]) (hfound : Found sql raised) :
    Leads (renameCalls sql old new) raised Found := by
  refine found_replaceCalls hold hunmarked (fun _ => silent_pure _) (fun call raised => leads_pure ?_) hfound
  rintro _ ⟨⟩
  exact ⟨_, [call.inner], by simp [stitch], hnew, rfl, .inl rfl⟩

end

namespace ToTsql
variable {sql : Text} {raised : List Warning}

/-- The joints of a skeleton. -/
def skeletonJoints (descending : Bool) : List Text :=
  let direction : Text := if descending then " DESC" else ""
  ["(SELECT STRING_AGG(dv.", ", ", ") WITHIN GROUP (ORDER BY dv.", direction ++ ") FROM (SELECT DISTINCT ", " AS ",
    " FROM <source_table> WHERE 1 = 1 /* correlate with the outer query */) AS dv)"]

theorem distinctSkeleton_eq (value separator : Text) (order : Option Text) :
    distinctSkeleton defaultPlaceholder value separator order =
      stitch (skeletonJoints (order.any descending.occursIn))
        [skeletonColumn value, separator, skeletonColumn value, value, skeletonColumn value] := by
  have htable : " FROM <source_table> WHERE 1 = 1 /* correlate with the outer query */) AS dv)".toList =
      " FROM ".toList ++ (defaultPlaceholder ++ " WHERE 1 = 1 /* correlate with the outer query */) AS dv)".toList) := by
    decide
  unfold distinctSkeleton skeletonJoints
  rw [stitch, stitch, stitch, stitch, stitch, stitch_singleton, htable]
  simp only [List.append_assoc]

/-- A skeleton is sane, and has its marks. -/
theorem isJoint_distinctSkeleton {value separator : Text} (hvalue : SanePart skeletonComments limitWords value)
    (hseparator : SanePart skeletonComments limitWords separator) (order : Option Text) :
    IsJoint skeletonComments limitWords (distinctSkeleton defaultPlaceholder value separator order) ∧
      Marked skeletonMarks (codePieces (distinctSkeleton defaultPlaceholder value separator order)) := by
  have hjoints : ∀ d, Joints skeletonComments limitWords (skeletonJoints d) := by
    unfold skeletonJoints skeletonComments
    repeat rewrite [String.toList_ofList]
    decide +kernel
  have hmarks : ∀ d, ∃ g₀ g₁ g₂ g₃ g₄ g₅, (skeletonJoints d).map codePieces = [g₀, g₁, g₂, g₃, g₄, g₅] ∧
      pieces "SELECT STRING_AGG(dv" <:+: g₀ ∧ pieces "FROM (SELECT DISTINCT" <:+: g₃ ∧
        pieces "<source_table>" <:+: g₅ := by
    intro d
    refine ⟨_, _, _, _, _, _, rfl, ?_⟩
    repeat rewrite [String.toList_ofList]
    revert d
    decide +kernel
  have hcolumn := sanePart_skeletonColumn hvalue (by decide)
  obtain ⟨hjoint, hpieces⟩ := isJoint_stitch
    [skeletonColumn value, separator, skeletonColumn value, value, skeletonColumn value]
    (hjoints (order.any descending.occursIn)) rfl
    (by simp [hvalue, hseparator, hcolumn])
  obtain ⟨g₀, g₁, g₂, g₃, g₄, g₅, hg, h₀, h₃, h₅⟩ := hmarks (order.any descending.occursIn)
  rw [distinctSkeleton_eq]
  refine ⟨hjoint, ?_⟩
  rw [hpieces, hg]
  refine .cons h₀ (.append_left (.append_left (.append_left (.append_left (.append_left (.cons h₃ ?_) _) _) _) _) _)
  have hlast : Marked [pieces "<source_table>"] (g₅ ++ []) := .cons h₅ trivial
  exact .append_left (.append_left (.append_left hlast _) _) _

/-- A call and the clause behind it are sewn of the arguments and of the list. -/
theorem exists_callTail {name sql x h inside y : Text} {m : Match} {closing : Nat} {ps : List Text}
    {S : List Text} {names : List String} {clause : Option (Text × Nat)}
    (hname : isName name = true) (hunmarked : Unmarked name) (hcut : CallCut name sql m closing x h inside y ps)
    (hsane : Sane S names sql) (hclause : withinGroup? y = some clause) :
    ∃ k z, y = k ++ z ∧ Text.width k = (clause.map Prod.snd).getD 0 ∧ Sane S names z ∧
      (∀ o ∈ clause.map Prod.fst, SanePart S names o) ∧
      ∃ l, codePieces sql = codePieces x ++ (l ++ codePieces z) ∧
        Sewn IsFiller ((ps.map Text.trim ++ (clause.map Prod.fst).toList).map codePieces) l := by
  obtain ⟨l, hl, -, hargs⟩ := hcut.exists_sewn hname hunmarked hsane.clean
  have hy := (hcut.sane_sides hsane).2
  cases clause with
  | none => exact ⟨[], y, rfl, rfl, hy, by simp, l, hl, by simpa using hargs⟩
  | some clause =>
    obtain ⟨order, n⟩ := clause
    obtain ⟨horder, k, z, rfl, hk, hfront, hsewn⟩ := hy.exists_withinGroup hclause
    refine ⟨k, z, rfl, hk, hy.right (hfront.splits z), by simpa using horder, l ++ codePieces k, ?_, ?_⟩
    · rw [hl, (hfront.splits z).codePieces_eq]
      simp
    · simpa using hargs.append hsewn

/-- `STRING_AGG` is stitched together from the arguments and the list of the clause. -/
theorem exists_stringAgg_eq {args : List Text} {expr separator : Text} (order : Option Text)
    (hargs : args = [expr] ∧ separator = "''".toList ∨ args = [expr, separator]) :
    ∃ gs, Joints skeletonComments limitWords gs ∧ gs.length = (args ++ order.toList).length + 1 ∧
      "STRING_AGG(" ++ expr ++ ", " ++ separator ++ ")" ++
        (match order with
          | some order => " WITHIN GROUP (ORDER BY " ++ order ++ ")"
          | none => []) = stitch gs (args ++ order.toList) := by
  have hjoints : ∀ gs ∈ [["STRING_AGG(".toList, ", '')".toList],
      ["STRING_AGG(".toList, ", '') WITHIN GROUP (ORDER BY ".toList, ")".toList],
      ["STRING_AGG(".toList, ", ".toList, ")".toList],
      ["STRING_AGG(".toList, ", ".toList, ") WITHIN GROUP (ORDER BY ".toList, ")".toList]],
      Joints skeletonComments limitWords gs := by
    repeat rewrite [String.toList_ofList]
    decide +kernel
  simp only [List.forall_mem_cons] at hjoints
  obtain ⟨h, ho, hs, hso, -⟩ := hjoints
  rcases hargs with ⟨rfl, rfl⟩ | rfl <;> rcases order with _ | order
  · exact ⟨_, h, rfl, by simp [stitch]⟩
  · exact ⟨_, ho, rfl, by simp [stitch]⟩
  · exact ⟨_, hs, rfl, by simp [stitch]⟩
  · exact ⟨_, hso, rfl, by simp [stitch]⟩

theorem found_listagg (hfound : Found sql raised) : Leads (listagg defaultPlaceholder sql) raised Found := by
  refine leads_replaceCallsBefore (by decide) (I := Found) (fun {sql raised m closing x h inside y ps} hcut hfound => ?_)
    _ hfound
  obtain ⟨-, hargs⟩ := hcut.sane_parts (by decide) (by decide) hfound.sane
  lift_lets
  intro parts
  have hparts : ∀ expr separator, parts = some (expr, separator) →
      ps.map Text.trim = [expr] ∧ separator = "''".toList ∨ ps.map Text.trim = [expr, separator] := by
    have hread : ∀ {a l}, (if ps.map Text.trim = [[]] then [] else ps.map Text.trim) = a :: l →
        ps.map Text.trim = a :: l := fun h => by
      split_ifs at h
      exact h
    intro expr separator hsome
    simp only [parts] at hsome
    split at hsome
    · rename_i heq
      obtain ⟨rfl, rfl⟩ := Prod.mk.inj (Option.some.inj hsome)
      exact .inl ⟨hread heq, rfl⟩
    · rename_i heq
      obtain ⟨rfl, rfl⟩ := Prod.mk.inj (Option.some.inj hsome)
      exact .inr (hread heq)
    · cases hsome
  clear_value parts
  rcases parts with _ | ⟨expr, separator⟩
  · exact leads_pure hfound
  have hparts := hparts expr separator rfl
  refine .bind (leads_lift fun clause hclause => ?_)
  obtain ⟨k, z, rfl, hk, hz, horder, hold⟩ := exists_callTail (by decide) (by decide) hcut hfound.sane hclause
  split
  · refine leads_pure fun k' z' hsplit hk' => ?_
    obtain ⟨rfl, rfl⟩ := Text.append_inj_of_width hsplit.symm (hk'.trans hk.symm)
    obtain ⟨gs, hgs, hlength, htext⟩ := exists_stringAgg_eq (clause.map Prod.fst) hparts
    have hrestitched := hfound.restitch hcut hz hold hgs hlength fun p hp =>
      (List.mem_append.1 hp).elim (hargs p) fun hp => horder p (by simpa using hp)
    rw [← htext] at hrestitched
    exact hrestitched
  · rename_i hdistinct
    refine .bind (leads_modify (leads_pure fun k' z' hsplit hk' => ?_))
    obtain ⟨rfl, rfl⟩ := Text.append_inj_of_width hsplit.symm (hk'.trans hk.symm)
    have hexpr : SanePart skeletonComments limitWords expr := by
      rcases hparts with ⟨hps, -⟩ | hps <;> exact hargs expr (by simp [hps])
    have hseparator : SanePart skeletonComments limitWords separator := by
      rcases hparts with ⟨-, rfl⟩ | hps
      · exact ⟨⟨⟨by decide, by decide +kernel⟩, by decide +kernel⟩, by decide⟩
      · exact hargs separator (by simp [hps])
    obtain ⟨hjoint, hmarked⟩ := isJoint_distinctSkeleton (sanePart_distinctValue hexpr hdistinct) hseparator
      (clause.map Prod.fst)
    obtain ⟨hsane, hpieces⟩ := hjoint.between (hcut.sane_sides hfound.sane).1 hcut.live hcut.left hz
    refine ⟨hsane, fun _ => ?_⟩
    rw [hpieces]
    exact (hmarked.append_right _).append_left _

theorem found_aggregates (hfound : Found sql raised) : Leads (aggregates sql) raised Found := by
  have hnames : ∀ names ∈ aggregateNames, isName names.1.toList = true ∧ Unmarked names.1.toList ∧
      Joints skeletonComments limitWords [names.2.toList ++ "(".toList, ")".toList] := by
    decide +kernel
  have hwindow : ∀ window ∈ ["".toList, " OVER ()".toList], Joints skeletonComments limitWords
      ["PERCENTILE_CONT(0.5) WITHIN GROUP (ORDER BY ".toList, ")".toList ++ window] := by
    repeat rewrite [String.toList_ofList]
    decide +kernel
  refine .bind ((leads_foldlM (I := Found) (fun names hmem sql raised hfound => ?_) hfound).mono
    fun sql raised hfound => ?_)
  · obtain ⟨hold, hunmarked, hnew⟩ := hnames names hmem
    exact found_renameCalls hold hunmarked hnew hfound
  · refine found_replaceCalls (by decide) (by decide) (fun call => ?_) (fun call raised => ?_) hfound
    · split
      · exact silent_warnOnce_then (by decide) _ (silent_pure _)
      · exact silent_pure _
    · split
      · rename_i value hargs
        refine .bind (leads_modify (leads_pure ?_))
        rintro _ ⟨⟩
        refine ⟨_, [value], ?_, hwindow (if overAhead.occursIn call.tail then "".toList else " OVER ()".toList) ?_, rfl,
          .inr ⟨hargs.symm, by simp⟩⟩
        · simp only [stitch, List.flatten_cons, List.flatten_nil, List.append_assoc, List.append_nil]
        · split_ifs <;> simp
      · exact leads_pure (by simp)

end ToTsql

end DialectBridge
