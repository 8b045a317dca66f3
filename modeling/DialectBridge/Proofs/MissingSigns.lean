import DialectBridge.Proofs.ListConversion
/-!
# Signs that are missing

A pattern that asks for a sign has no match in a text without it. So the rules from T-SQL to Oracle that
look for calls, for a plus sign or for hints in parentheses leave a query alone that has no such sign in its
code.
-/
namespace DialectBridge
open Pattern Cursor

section
variable {σ : Type} {p q : Pattern} {t sql r : Text} {c : Char}

theorem Avoids.behind (h : Avoids q t) (p : Pattern) : Avoids (p ++ q) t := by
  rintro u w v rfl hw
  obtain ⟨a, b, rfl, -, hb⟩ := matches_seq.1 hw
  exact h (u ++ a) b v (by simp) hb

theorem avoids_sym (h : c ∉ t) : Avoids (sym c) t := by
  rintro u w v rfl hw
  obtain rfl := matches_sym.1 hw
  simp at h

theorem avoids_oneOf {ps : List Pattern} (h : ∀ p ∈ ps, Avoids p t) : Avoids (oneOf ps) t := by
  intro u w v hsplit hw
  obtain ⟨p, hp, hw⟩ := matches_oneOf.1 hw
  exact h p hp u w v hsplit hw

/-- Without a parenthesis there are no calls. -/
theorem replaceCallsWithTail_of_not_mem (h : '(' ∉ mask sql) (name : Text)
    (f : Call → Editing σ (Option (Text × Nat))) : replaceCallsWithTail sql name f = pure sql := by
  have hnone : Avoids (Call.head name) (mask sql) := (avoids_sym h).behind _
  refine replaceCallsBefore_of_none ?_
  rw [Call.lastBefore?, hnone.findAll]
  rfl

theorem replaceCalls_of_not_mem (h : '(' ∉ mask sql) (name : Text) (f : Call → Editing σ (Option Text)) :
    replaceCalls sql name f = pure sql := replaceCallsWithTail_of_not_mem h name _

theorem renameCalls_of_not_mem (h : '(' ∉ mask sql) (old new : Text) :
    renameCalls sql old new = (pure sql : Editing σ Text) := replaceCalls_of_not_mem h old _

/-- A pattern that asks for a sign replaces nothing in code without it. -/
theorem replaceCode_of_not_mem (hp : ∀ t, c ∉ t → Avoids p t) (h : c ∉ mask sql) : replaceCode p r sql = sql := by
  refine mapCode_eq_self fun x hx => (hp x fun hc => h ?_).replaceAll
  rw [← flatten_pieces x] at hc
  obtain ⟨q, hq, hcq⟩ := List.mem_flatten.1 hc
  rw [← flatten_pieces (mask sql)]
  exact List.mem_flatten.2 ⟨q, hx q hq, hcq⟩

end

/-! ## The rules from T-SQL to Oracle -/

theorem Detection.gives_detectTsql (sql : Text) : Gives (detectTsql sql) sql := by
  obtain ⟨⟨⟩, hchecks⟩ := total_runChecks (mask sql) tsqlChecks
  exact hchecks.bind (gives_pure sql)

namespace ToOracle

variable {sql : Text}

/-- The rules that do nothing but replace calls. -/
def callRules : List (Text → Reporting Text) :=
  [nullFunctions, dateFunctions, conversionFunctions, stringFunctions, stringAgg, aggregates]

theorem callRules_of_not_mem (h : '(' ∉ mask sql) : ∀ rule ∈ callRules, rule sql = pure sql := by
  simp only [callRules, List.mem_cons, List.not_mem_nil, or_false, forall_eq_or_imp, forall_eq, nullFunctions,
    dateFunctions, castTypes, dateAdd, dateDiff, conversionFunctions, stringFunctions, stringAgg, aggregates,
    aggregateNames, List.foldlM_cons, List.foldlM_nil, renameCalls_of_not_mem h, replaceCalls_of_not_mem h,
    replaceCallsWithTail_of_not_mem h, pure_bind, and_self]

theorem currentDatetime_of_not_mem (h : '(' ∉ mask sql) : currentDatetime sql = sql := by
  have hnone : ∀ name r, replaceCode (emptyCall name) r sql = sql := fun name r =>
    replaceCode_of_not_mem (fun t ht => (((avoids_sym ht).behind _).seq _).seq _) h
  simp only [currentDatetime, hnone]

theorem concatenation_of_not_mem (hopen : '(' ∉ mask sql) (hplus : '+' ∉ mask sql) :
    concatenation sql = pure sql := by
  have hnone : Avoids plusByLiteral (mask sql) := by
    refine avoids_oneOf fun p hp => ?_
    simp only [List.mem_cons, List.not_mem_nil, or_false] at hp
    rcases hp with rfl | rfl
    · exact (avoids_sym hplus).behind _
    · exact ((avoids_sym hplus).seq _).seq _
  rw [concatenation, replaceCalls_of_not_mem hopen, pure_bind, hnone.replaceSpans, pure_bind]
  simp [hplus]

/-- Hints and options end in a parenthesis. -/
theorem tableHints_of_not_mem (h : ')' ∉ mask sql) : tableHints sql = pure sql := by
  have hrest : Avoids restOfList (mask sql) := (avoids_sym h).behind _
  have hhint : Avoids tableHint (mask sql) := by
    refine avoids_oneOf fun p hp => ?_
    simp only [List.mem_cons, List.not_mem_nil, or_false] at hp
    rcases hp with rfl | rfl
    · exact hrest.behind _
    · exact (avoids_sym h).behind _
  have hoption : Avoids queryOption (mask sql) := hrest.behind _
  rw [tableHints, hhint.replaceSpans, pure_bind, hoption.replaceSpans, pure_bind, hhint.occursIn, hoption.occursIn]
  rfl

end ToOracle
end DialectBridge
