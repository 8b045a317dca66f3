import DialectBridge.Proofs.Commentless
import DialectBridge.Proofs.SaneRules
import DialectBridge.Proofs.TermLists
/-!
# Queries without comments under the rules for words and types

Where plain texts of code give way to plain texts no comment begins (`sane_replaceCode`). A type may be
rewritten inside a literal, since the rule looks for it in the raw text; the lexer stays in the literal
(`keeps_castTypes`).
-/
namespace DialectBridge
open Pattern Cursor LexState

section
variable {p : Pattern} {names : List String} {r u x : Text} {ms : List Match}

/-- Whether what a pattern matches are plain texts between the words of a text. -/
def TakesPlain (p : Pattern) : Prop := ∀ u w v, Matches p u w v →
  (∀ c ∈ w, isPlain c = true) ∧ w ≠ [] ∧ endsInWord u = false ∧ Apart w v

theorem replaceMatches_induction {motive : Text → Text → Prop} (same : ∀ x, motive x x)
    (step : ∀ u a w v v', Matches p (u ++ a) w v → motive v v' → motive (a ++ (w ++ v)) (a ++ (r ++ v')))
    (hms : ∀ m ∈ ms, ∃ a b, x = a ++ b ∧ p.matchAt? (between (u ++ a) b) = some m)
    (hsorted : ms.Pairwise fun m m' => m.stop ≤ m'.start) :
    motive x (replaceMatches (fun _ => r) (between u x) ms) := by
  induction ms generalizing u x with
  | nil => exact same x
  | cons m ms ih =>
    obtain ⟨a, b, rfl, hm⟩ := hms m (by simp)
    obtain ⟨w, v, rfl, hfirst, hlast, htakes⟩ := matchAt?_eq_some hm
    obtain ⟨hbefore, hsorted⟩ := List.pairwise_cons.1 hsorted
    have hstop : m.stop = Text.width (u ++ a ++ w) := by rw [Match.stop, hlast, offset_between]
    have hmore : ∀ m' ∈ ms, ∃ c d, v = c ++ d ∧ p.matchAt? (between (u ++ a ++ w ++ c) d) = some m' := by
      intro m' hm'
      obtain ⟨c, d, hcd, hat⟩ := hms m' (by simp [hm'])
      have hle := hbefore m' hm'
      rw [hstop, start_of_matchAt? hat, List.append_assoc, Text.width_append, Text.width_append u] at hle
      have hcut : a ++ w ++ v = c ++ d := by simpa using hcd
      obtain ⟨e, rfl, hrest⟩ := Text.exists_of_width_le hcut (by omega)
      exact ⟨e, d, hrest, by simpa using hat⟩
    rw [replaceMatches, hfirst, hlast, upTo_between, List.append_assoc]
    exact step u a w v _ ⟨_, _, htakes⟩ (ih hmore hsorted)

/-- What holds of a text and of itself, and stays true where a match is replaced in front, holds of a text
and of what the replacing makes of it. -/
theorem replaceAll_induction {motive : Text → Text → Prop} (hr : '$' ∉ r) (same : ∀ x, motive x x)
    (step : ∀ u a w v v', Matches p (u ++ a) w v → motive v v' → motive (a ++ (w ++ v)) (a ++ (r ++ v')))
    (x : Text) : motive x (p.replaceAll r x) := by
  have hexpand : expandAt [] r = fun _ => r := funext (expandAt_of_noDollar hr)
  rw [replaceAll, replaceAllBy, hexpand]
  refine replaceMatches_induction (u := []) same step (fun m hm => ?_) (pairwise_findAll p x)
  simpa using exists_of_mem_findAll hm

theorem exchanged_replaceAll (hp : TakesPlain p) (hr : '$' ∉ r) (x : Text) : Exchanged r x (p.replaceAll r x) := by
  refine replaceAll_induction hr .same (fun u a w v v' hmatch h => ?_) x
  obtain ⟨hplain, hne, hleft, hright⟩ := hp _ _ _ hmatch
  have hapart : ∀ t, Apart a t := fun t => by
    by_cases hnil : a = []
    · rw [hnil]
      exact apart_nil_left t
    · exact .of_ends (by rwa [endsInWord_append hnil] at hleft) t
  exact .step hplain hne ⟨hapart w, hapart r⟩ hright h

theorem sane_replaceCode (hp : TakesPlain p) (hdollar : '$' ∉ r) (hr : ∀ c ∈ r, isPlain c = true) (hne : r ≠ [])
    (hend : endsInWord r = false) (hspares : Spares names r) {sql : Text} (h : Sane [] names sql) :
    Sane [] names (replaceCode p r sql) :=
  sane_mapCode (fun x => (exchanged_replaceAll hp hdollar x).codeRun hr hne hend hspares) h

theorem takesPlain_keyword {name : Text} (hname : isName name = true) : TakesPlain (keyword name) := by
  intro u w v h
  obtain ⟨hw, hu, hv⟩ := (matches_keyword hname).1 h
  exact ⟨fun c hc => isPlain_of_isWordChar (hw.isWordChar hname c hc), hw.ne_nil hname, hu, .of_begins hv w⟩

end

/-! ## Empty calls -/

/-- A pair of parentheses with nothing but white space in it, and in front of it. -/
def EmptyParens (s : Text) : Prop :=
  ∃ b b', (∀ c ∈ b, Unicode.isBlank c = true) ∧ (∀ c ∈ b', Unicode.isBlank c = true) ∧
    s = b ++ '(' :: (b' ++ [')'])

theorem EmptyParens.beginsInWord {s : Text} (h : EmptyParens s) (v : Text) : beginsInWord (s ++ v) = false := by
  obtain ⟨b, b', hb, -, rfl⟩ := h
  rw [List.append_assoc]
  exact beginsInWord_blanks hb rfl

theorem EmptyParens.mem {s : Text} (h : EmptyParens s) : ∀ c ∈ s, Unicode.isBlank c = true ∨ c = '(' ∨ c = ')' := by
  obtain ⟨b, b', hb, hb', rfl⟩ := h
  simp only [List.mem_append, List.mem_cons, List.not_mem_nil, or_false]
  rintro c (hc | rfl | hc | rfl)
  · exact .inl (hb c hc)
  · exact .inr (.inl rfl)
  · exact .inl (hb' c hc)
  · exact .inr (.inr rfl)

theorem EmptyParens.endsInWord {s : Text} (h : EmptyParens s) (u : Text) : endsInWord (u ++ s) = false := by
  obtain ⟨b, b', -, -, rfl⟩ := h
  have hlast : u ++ (b ++ '(' :: (b' ++ [')'])) = u ++ (b ++ '(' :: b') ++ [')'] := by simp
  rw [hlast, endsInWord_append (by simp), endsInWord_singleton]
  decide

/-- An empty call is a name with empty parentheses. -/
theorem ToOracle.matches_emptyCall_iff {name u w v : Text} (hname : isName name = true) :
    Matches (ToOracle.emptyCall name) u w v ↔
      ∃ n s, w = n ++ s ∧ Spelled name n ∧ EmptyParens s ∧ endsInWord u = false := by
  have hedge : ∀ {n t : Text}, Spelled name n → (endsInWord u ≠ beginsInWord (n ++ t) ↔ endsInWord u = false) := by
    intro n t hn
    rw [hn.beginsInWord hname, ne_eq, Bool.not_eq_true]
  constructor
  · intro h
    obtain ⟨w, c, rfl, hw, hc⟩ := matches_seq.1 h
    obtain rfl := matches_sym.1 hc
    obtain ⟨w, b', rfl, hw, hb'⟩ := matches_seq.1 hw
    obtain ⟨w, o, rfl, hw, ho⟩ := matches_seq.1 hw
    obtain rfl := matches_sym.1 ho
    obtain ⟨w, b, rfl, hw, hb⟩ := matches_seq.1 hw
    obtain ⟨e, n, rfl, he, hn⟩ := matches_seq.1 hw
    obtain ⟨rfl, hends⟩ := matches_edge.1 he
    have hn := matches_word.1 hn
    refine ⟨n, b ++ '(' :: (b' ++ [')']), by simp, hn, ?_, (hedge hn).1 hends⟩
    exact ⟨b, b', matches_many_one.1 hb, matches_many_one.1 hb', rfl⟩
  · rintro ⟨n, s, rfl, hn, ⟨b, b', hb, hb', rfl⟩, hu⟩
    refine matches_seq.2 ⟨n ++ b ++ ['('] ++ b', [')'], by simp, ?_, matches_sym.2 rfl⟩
    refine matches_seq.2 ⟨n ++ b ++ ['('], b', rfl, ?_, matches_many_one.2 hb'⟩
    refine matches_seq.2 ⟨n ++ b, ['('], rfl, ?_, matches_sym.2 rfl⟩
    refine matches_seq.2 ⟨n, b, rfl, ?_, matches_many_one.2 hb⟩
    exact matches_seq.2 ⟨[], n, rfl, matches_edge.2 ⟨rfl, (hedge hn).2 hu⟩, matches_word.2 hn⟩

/-- An empty call begins in its name and ends in a parenthesis. -/
theorem ToOracle.matches_emptyCall {name u w v : Text} (hname : isName name = true)
    (h : Matches (ToOracle.emptyCall name) u w v) :
    (∀ c ∈ w, isPlain c = true) ∧ beginsInWord w = true ∧ endsInWord w = false ∧ endsInWord u = false := by
  obtain ⟨n, s, rfl, hn, hs, hu⟩ := (matches_emptyCall_iff hname).1 h
  refine ⟨fun c hc => ?_, hn.beginsInWord hname s, hs.endsInWord n, hu⟩
  rcases List.mem_append.1 hc with hc | hc
  · exact isPlain_of_isWordChar (hn.isWordChar hname c hc)
  · rcases hs.mem c hc with hc | rfl | rfl
    · exact isPlain_of_isBlank hc
    · decide
    · decide

namespace ToTsql

theorem takesPlain_sysGuid : TakesPlain sysGuid := fun u w v h => by
  have hcall : Matches (ToOracle.emptyCall "SYS_GUID".toList) u w v := h
  obtain ⟨hplain, hbegin, hend, hu⟩ := ToOracle.matches_emptyCall (by decide) hcall
  exact ⟨hplain, ne_nil_of_beginsInWord hbegin, hu, .of_ends hend v⟩

theorem keeps_currentDatetime : Keeps [] limitWords fun sql => return currentDatetime sql := by
  refine fun sql _ h => leads_pure ?_
  refine sane_replaceCode takesPlain_sysGuid (by decide) (by decide) (by decide) (by decide) (by decide) ?_
  refine sane_replaceCode (takesPlain_keyword (by decide)) (by decide) (by decide) (by decide) (by decide) (by decide) ?_
  exact sane_replaceCode (takesPlain_keyword (by decide)) (by decide) (by decide) (by decide) (by decide) (by decide) h

/-- The induction of `replaceAll_induction` for `||`, which becomes `+`; the text `a` is read already. -/
theorem bars_induction {motive : Text → Text → Prop} (same : ∀ x, motive x x)
    (step : ∀ a v v', motive v v' → motive (a ++ ("||".toList ++ v)) (a ++ ("+".toList ++ v'))) (a x : Text) :
    motive (a ++ x) (a ++ Text.replaceAll "||" "+" x) := by
  induction hn : x.length using Nat.strongRecOn generalizing a x with
  | ind n ih =>
    subst hn
    cases x with
    | nil => exact same _
    | cons c x =>
      rw [Text.replaceAll, Text.replaceFrom]
      split_ifs with hbars
      · obtain ⟨x, rfl⟩ : ∃ y, x = '|' :: y := by
          rw [isPrefixOf_bars, Bool.and_eq_true, beq_iff_eq] at hbars
          exact List.head?_eq_some_iff.1 (beq_iff_eq.1 hbars.2)
        obtain rfl : c = '|' := by
          rw [isPrefixOf_bars, Bool.and_eq_true, beq_iff_eq] at hbars
          exact hbars.1
        exact step a x _ (ih x.length (by simp only [List.length_cons]; omega) [] x rfl)
      · have := ih x.length (by simp) (a ++ [c]) x rfl
        simpa [Text.replaceAll] using this

theorem exchanged_bars (x : Text) : Exchanged "+" x (Text.replaceAll "||" "+" x) :=
  bars_induction .same (fun a v _ h => .step (by decide) (by decide)
    ⟨.of_begins (by decide) a, .of_begins (by decide) a⟩ (.of_ends (by decide) v) h) [] x

theorem keeps_concatenation : Keeps [] limitWords fun sql => return concatenation sql := by
  refine fun sql _ h => leads_pure (sane_mapCode (fun x => ?_) h)
  exact (exchanged_bars x).codeRun (by decide) (by decide) (by decide) (by decide)

end ToTsql

end DialectBridge
