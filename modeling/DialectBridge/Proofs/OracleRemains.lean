import DialectBridge.Proofs.CallHeads
import DialectBridge.Proofs.MissingWords
/-!
# What of Oracle is reported

The check looks for the calls and for the keywords in two searches, each with one pattern for all names. Such
a pattern misses no place where one of its names stands (`mem_found_iff`). What it finds is matched in either
case of Unicode, and then compared with the table after its ASCII letters were made capital. The two agree on
a name in ASCII letters and on nothing else (`Spelled.upper_eq`): a name that stands in the text only with a
long s is matched and then dropped (`missesNothing_iff`).
-/
namespace DialectBridge.Pattern
open Cursor

variable {name n t : Text} {names : List String} {tail : Pattern}

/-! ## Names and what stands behind them -/

/-- A name stands in a text, written as `n`, with no word in front of it and `tail` behind it. -/
def StandsAs (tail : Pattern) (t name n : Text) : Prop :=
  ∃ u w v, t = u ++ (n ++ (w ++ v)) ∧ endsInWord u = false ∧ Spelled name n ∧ Matches tail (u ++ n) w v

def callTail : Pattern := blanks ++ sym '('

/-- Names that a search can tell apart from what stands behind them: the tail remembers nothing, takes nothing
of a word and lets no word go on. -/
structure Ended (names : List String) (tail : Pattern) : Prop where
  isName : ∀ name ∈ names, isName name.toList = true
  groupless : tail.groupless = true
  behind : BehindWord tail
  signs : ∀ u w v, Matches tail u w v → ∀ c ∈ w, Unicode.isWordChar c = false

/-! ## A search for all names at once -/

/-- One of some names, as group 1, and what stands behind it. -/
def oneOfNames (names : List String) (tail : Pattern) : Pattern :=
  edge ++ .group 1 (oneOf (names.map fun name => word name.toList)) ++ tail

/-- A search for the names, however its pattern is put together. -/
def SearchFor (names : List String) (tail p : Pattern) : Prop :=
  ∀ {u w v : Text} {g g' : Groups}, Takes p u w v g g' ↔ Takes (oneOfNames names tail) u w v g g'

section
variable {p : Pattern} {u v w : Text} {g g' : Groups} (he : Ended names tail) (hp : SearchFor names tail p)
include he

/-- No word goes on behind a name. -/
theorem Ended.beginsInWord_eq (hname : Pattern.isName name = true) (hn : Spelled name n) (hw : Matches tail (u ++ n) w v) :
    beginsInWord (w ++ v) = false := he.behind _ _ _ hw (hn.endsInWord hname u)

include hp

/-- What a search for the names takes, and what it remembers. -/
theorem SearchFor.exists_of_takes (hw : Takes p u w v g g') : ∃ name ∈ names, ∃ n b, w = n ++ b ∧
    Spelled name.toList n ∧ endsInWord u = false ∧ Matches tail (u ++ n) b v ∧
      g'.lookup 1 = some (between u (n ++ (b ++ v)), between (u ++ n) (b ++ v)) := by
  obtain ⟨a, b, g₁, rfl, ⟨e, n, g₂, rfl, hempty, hn⟩, hb⟩ := hp.1 hw
  obtain ⟨⟨rfl, hedge⟩, rfl⟩ := takes_edge hempty
  obtain ⟨g₃, hn, rfl⟩ := hn
  obtain ⟨q, hq, hword⟩ := matches_oneOf.1 ⟨_, _, hn⟩
  obtain ⟨name, hname, rfl⟩ := List.mem_map.1 hq
  have hspelled := matches_word.1 hword
  rw [hspelled.beginsInWord (he.isName name hname)] at hedge
  obtain rfl := hb.groups_eq he.groupless
  refine ⟨name, hname, n, b, rfl, hspelled, by simpa using hedge, by simpa using ⟨_, _, hb⟩, ?_⟩
  simp

theorem SearchFor.matches_of_spelled {name : String} (hname : name ∈ names) (hu : endsInWord u = false)
    (hn : Spelled name.toList n) (hw : Matches tail (u ++ n) w v) : Matches p u (n ++ w) v := by
  have hmatch : Matches (oneOfNames names tail) u (n ++ w) v := by
    refine matches_seq.2 ⟨n, w, rfl, matches_seq.2 ⟨[], n, rfl, matches_edge.2 ⟨rfl, ?_⟩, ?_⟩, hw⟩
    · rw [hu, hn.beginsInWord (he.isName name hname)]
      simp
    · refine matches_group.2 (matches_oneOf.2 ⟨_, List.mem_map.2 ⟨name, hname, rfl⟩, ?_⟩)
      exact matches_word.2 (by simpa using hn)
  obtain ⟨g, g', hw⟩ := hmatch
  exact ⟨g, g', hp.2 hw⟩

theorem SearchFor.consuming : p.Consuming := by
  rintro u w v ⟨g, g', hw⟩ rfl
  obtain ⟨name, hname, n, b, hnil, hn, -⟩ := hp.exists_of_takes he hw
  exact hn.ne_nil (he.isName name hname) (List.append_eq_nil_iff.1 hnil.symm).1

/-- No name begins inside of what is found at another one. -/
theorem SearchFor.isolated : p.Isolated := by
  rintro u a b v ha hb ⟨g, g', hw⟩ w v' hsplit ⟨k, k', hw'⟩
  obtain ⟨name, hname, n, c, hnc, hn, -, hc, -⟩ := hp.exists_of_takes he hw
  obtain ⟨name', hname', n', c', rfl, hn', hleft, -⟩ := hp.exists_of_takes he hw'
  rw [endsInWord_append ha] at hleft
  have hbegins : beginsInWord b = true := by
    rw [← beginsInWord_append hb v, hsplit, List.append_assoc]
    exact hn'.beginsInWord (he.isName name' hname') _
  rcases List.append_eq_append_iff.1 hnc with ⟨r, rfl, -⟩ | ⟨r, rfl, rfl⟩
  · -- the second name would begin inside of the first one
    rw [endsInWord_of_all ha fun d hd => hn.isWordChar (he.isName name hname) d (by simp [hd])] at hleft
    cases hleft
  · -- or in its tail, which has nothing of a word
    obtain ⟨d, b, rfl⟩ := List.exists_cons_of_ne_nil hb
    have hd := he.signs _ _ _ hc d (by simp)
    rw [show Unicode.isWordChar d = true from hbegins] at hd
    cases hd

/-- **A search for the names finds every place where one of them stands**, and remembers how it is written
there. -/
theorem SearchFor.mem_found_iff :
    n ∈ (p.findAll t).map (·.groupD 1) ↔ ∃ name ∈ names, StandsAs tail t name.toList n := by
  have hfind : ∀ {m : Match}, m ∈ p.findAll t ↔ ∃ u x, t = u ++ x ∧ p.matchAt? (between u x) = some m :=
    mem_findAll_iff (hp.consuming he) (hp.isolated he)
  constructor
  · intro hmem
    obtain ⟨m, hm, rfl⟩ := List.mem_map.1 hmem
    obtain ⟨u, x, rfl, hat⟩ := hfind.1 hm
    obtain ⟨w, v, rfl, -, -, hw⟩ := matchAt?_eq_some hat
    obtain ⟨name, hname, n, b, rfl, hn, hu, hb, hgroup⟩ := hp.exists_of_takes he hw
    rw [Match.groupD_eq (by decide) hgroup]
    exact ⟨name, hname, u, b, v, by simp, hu, hn, hb⟩
  · rintro ⟨name, hname, u, w, v, rfl, hu, hn, hw⟩
    obtain ⟨g, g', htakes⟩ := hp.matches_of_spelled he hname hu hn hw
    obtain ⟨m, hm⟩ := Option.isSome_iff_exists.1
      (isSome_matchAt?_iff.2 ⟨n ++ w, v, g, g', (List.append_assoc n w v).symm, htakes⟩)
    refine List.mem_map.2 ⟨m, hfind.2 ⟨u, _, rfl, hm⟩, ?_⟩
    -- the match at this place may be for another name, but the words end at the same place
    obtain ⟨w', v', hsplit, -, -, hw'⟩ := matchAt?_eq_some hm
    obtain ⟨name', hname', n', b', rfl, hn', -, hb', hgroup⟩ := hp.exists_of_takes he hw'
    rw [Match.groupD_eq (by decide) hgroup]
    have hisName := he.isName name hname
    have hisName' := he.isName name' hname'
    rw [List.append_assoc] at hsplit
    exact (word_inj (hn'.isWordChar hisName') (hn.isWordChar hisName) (he.beginsInWord_eq hisName' hn' hb')
      (he.beginsInWord_eq hisName hn hw) hsplit.symm).1

/-- Nothing is found where no name stands. -/
theorem SearchFor.occursIn_iff :
    p.occursIn t = true ↔ ∃ name ∈ names, ∃ n, StandsAs tail t name.toList n := by
  constructor
  · intro hoccurs
    obtain ⟨m, hm⟩ := Option.isSome_iff_exists.1 hoccurs
    obtain ⟨u, x, rfl, hat⟩ := exists_of_find? hm
    obtain ⟨w, v, rfl, -, -, hw⟩ := matchAt?_eq_some hat
    obtain ⟨name, hname, n, b, rfl, hn, hu, hb, -⟩ := hp.exists_of_takes he hw
    exact ⟨name, hname, n, u, b, v, by simp, hu, hn, hb⟩
  · rintro ⟨name, hname, n, u, w, v, rfl, hu, hn, hw⟩
    rw [← List.append_assoc n]
    exact occursIn_of_matches (hp.matches_of_spelled he hname hu hn hw)

end

def isCapital (name : Text) : Bool := isName name && name.all fun c => !c.isLower

/-- In ASCII letters, what matches a name in capital letters gives it when its letters are made capital. -/
theorem Spelled.upper_eq (h : Spelled name n) (hname : isCapital name = true)
    (hascii : ∀ c ∈ Text.upper n, c.toNat < 128) : Text.upper n = name := by
  have key : ∀ c : Char, c.toNat < 128 → (!c.isLower) = true → ((Unicode.caseVariants c).all fun d =>
      d.toUpper == c || decide (128 ≤ d.toUpper.toNat)) = true := of_ascii (by decide +kernel)
  rw [isCapital, isName, Bool.and_eq_true, Bool.and_eq_true, List.all_eq_true, List.all_eq_true] at hname
  obtain ⟨⟨-, hchars⟩, hlower⟩ := hname
  induction h with
  | nil => rfl
  | @cons c d name n hd _ ih =>
    have hsmall := toNat_lt_of_isNameChar (hchars c (by simp))
    have hone := List.all_eq_true.1 (key c hsmall (hlower c (by simp))) d hd
    have hupper : d.toUpper.toNat < 128 := hascii d.toUpper (by simp [Text.upper])
    have hhead : d.toUpper = c := by
      rcases Bool.or_eq_true_iff.1 hone with hone | hone
      · exact beq_iff_eq.1 hone
      · exact absurd (of_decide_eq_true hone) (by omega)
    have htail : Text.upper n = name := ih (fun e he => hascii e (List.mem_cons_of_mem _ he))
      (fun e he => hlower e (List.mem_cons_of_mem _ he)) fun e he => hchars e (List.mem_cons_of_mem _ he)
    rw [← hhead, ← htail]
    rfl

/-- The long s, which equals an s up to case. -/
def longS : Char := '\u017F'

/-- What matches a name is in ASCII if it has no long s. (The letter K has a third form as well, the kelvin
sign; no name of the tables has a K.) -/
theorem Spelled.upper_ascii (h : Spelled name n) (hname : isCapital name = true) (hk : 'K' ∉ name)
    (hs : longS ∉ n) : ∀ c ∈ Text.upper n, c.toNat < 128 := by
  have key : ∀ c : Char, c.toNat < 128 → ((!c.isLower) = true ∧ c ≠ 'K') →
      ((Unicode.caseVariants c).all fun d => decide (d.toUpper.toNat < 128) || d == longS) = true :=
    of_ascii (by decide +kernel)
  rw [isCapital, isName, Bool.and_eq_true, Bool.and_eq_true, List.all_eq_true, List.all_eq_true] at hname
  obtain ⟨⟨-, hchars⟩, hlower⟩ := hname
  intro e he
  obtain ⟨d, hd, rfl⟩ := List.mem_map.1 he
  obtain ⟨i, hi, rfl⟩ := List.mem_iff_getElem.1 hd
  have hi' : i < name.length := by rwa [List.Forall₂.length_eq h]
  have hmem := List.getElem_mem hi'
  have hvariant := (List.forall₂_iff_get.1 h).2 i hi' hi
  have hone := List.all_eq_true.1 (key name[i] (toNat_lt_of_isNameChar (hchars _ hmem))
    ⟨hlower _ hmem, fun heq => hk (heq ▸ hmem)⟩) _ hvariant
  rcases Bool.or_eq_true_iff.1 hone with hone | hone
  · exact of_decide_eq_true hone
  · exact absurd (beq_iff_eq.1 hone ▸ hd) hs

/-- What is found gives a name of the table if the name stands in the text in ASCII letters. -/
theorem SearchFor.mem_found_upper_iff {p : Pattern} (he : Ended names tail) (hp : SearchFor names tail p)
    (hcapital : ∀ name ∈ names, isCapital name.toList = true) {name : String}
    (hascii : ∀ c ∈ name.toList, c.toNat < 128) :
    (∃ n ∈ (p.findAll t).map (·.groupD 1), Text.upper n = name.toList) ↔
      name ∈ names ∧ ∃ n, StandsAs tail t name.toList n ∧ Text.upper n = name.toList := by
  constructor
  · rintro ⟨n, hn, hupper⟩
    obtain ⟨name', hname', hstands⟩ := (hp.mem_found_iff he).1 hn
    have hspelled : Spelled name'.toList n := by
      obtain ⟨u, w, v, -, -, hspelled, -⟩ := hstands
      exact hspelled
    obtain rfl : name' = name := by
      refine String.toList_inj.1 ?_
      rw [← hupper, hspelled.upper_eq (hcapital name' hname') (by rwa [hupper])]
    exact ⟨hname', n, hstands, hupper⟩
  · rintro ⟨hname, n, hstands, hupper⟩
    exact ⟨n, (hp.mem_found_iff he).2 ⟨name, hname, hstands⟩, hupper⟩

end DialectBridge.Pattern

namespace DialectBridge.Checklist
open Pattern

variable {name n t : Text}

/-! ## The two searches of the check -/

theorem ended_functions : Ended oracleFunctions callTail where
  isName := by decide
  groupless := rfl
  behind := behindWord_parenthesis
  signs := by
    intro u w v h c hc
    obtain ⟨b, s, rfl, hb, hs⟩ := matches_seq.1 h
    rcases List.mem_append.1 hc with hc | hc
    · exact isWordChar_of_isBlank (matches_many_one.1 hb c hc)
    · rw [matches_sym.1 hs, List.mem_singleton] at hc
      rw [hc]
      rfl

theorem ended_keywords : Ended oracleKeywords edge where
  isName := by decide
  groupless := rfl
  behind := behindWord_edge
  signs := by
    intro u w v h c hc
    rw [(matches_edge.1 h).1] at hc
    cases hc

theorem searchFor_functions : SearchFor oracleFunctions callTail oracleCall := takes_seq_assoc

theorem searchFor_keywords : SearchFor oracleKeywords edge oracleKeyword := Iff.rfl

/-! ## The table and what is found -/

theorem occursIn_head_iff (hname : isName name = true) :
    (Call.head name).occursIn t = true ↔ ∃ n, StandsAs callTail t name n := by
  constructor
  · intro hoccurs
    obtain ⟨m, hm⟩ := Option.isSome_iff_exists.1 hoccurs
    obtain ⟨u, x, rfl, hat⟩ := exists_of_find? hm
    obtain ⟨w, v, rfl, -, -, hw⟩ := matchAt?_eq_some hat
    obtain ⟨n, b, rfl, hn, hb, hu⟩ := (matches_head hname).1 ⟨_, _, hw⟩
    refine ⟨n, u, b ++ ['('], v, by simp, hu, hn, ?_⟩
    exact matches_seq.2 ⟨b, ['('], rfl, matches_many_one.2 hb, matches_sym.2 rfl⟩
  · rintro ⟨n, u, w, v, rfl, hu, hn, hw⟩
    obtain ⟨b, s, rfl, hb, hs⟩ := matches_seq.1 hw
    obtain rfl := matches_sym.1 hs
    rw [← List.append_assoc n]
    exact occursIn_of_matches ((matches_head hname).2 ⟨n, b, rfl, hn, matches_many_one.1 hb, hu⟩)

theorem occursIn_keyword_iff_standsAs (hname : isName name = true) :
    (keyword name).occursIn t = true ↔ ∃ n, StandsAs edge t name n := by
  constructor
  · intro hoccurs
    obtain ⟨m, hm⟩ := Option.isSome_iff_exists.1 hoccurs
    obtain ⟨u, x, rfl, hat⟩ := exists_of_find? hm
    obtain ⟨n, v, rfl, -, -, hw⟩ := matchAt?_eq_some hat
    obtain ⟨hn, hu, hv⟩ := (matches_keyword hname).1 ⟨_, _, hw⟩
    refine ⟨n, u, [], v, rfl, hu, hn, matches_edge.2 ⟨rfl, ?_⟩⟩
    rw [hn.endsInWord hname, hv]
    decide
  · rintro ⟨n, u, w, v, rfl, hu, hn, hw⟩
    obtain ⟨rfl, hedge⟩ := matches_edge.1 hw
    rw [hn.endsInWord hname] at hedge
    exact occursIn_of_matches ((matches_keyword hname).2 ⟨hn, hu, by simpa using hedge⟩)

def table : List String := oracleFunctions ++ oracleKeywords

/-- What stands behind a name where it counts: a parenthesis behind a function, the end of the word behind a
keyword. -/
def tailOf (name : String) : Pattern := if name ∈ oracleFunctions then callTail else edge

def patternOf (name : String) : Pattern :=
  if name ∈ oracleFunctions then Call.head name.toList else keyword name.toList

/-- The names that have a match in a text, in the order of the table, and then the bars. -/
def present (t : Text) : List String :=
  table.filter (fun name => (patternOf name).occursIn t) ++ if Text.has "||" t then ["||"] else []

/-- The check passes just where nothing has a match, and otherwise it names all that has one. -/
def MissesNothing (t : Text) : Prop :=
  ((checkOracleFunctions t).passed = true ↔
    oracleCall.occursIn t = false ∧ oracleKeyword.occursIn t = false ∧ Text.has "||" t = false) ∧
  ((checkOracleFunctions t).passed = false → (checkOracleFunctions t).message =
    "Oracle functions still present: " ++ Text.join ", " ((present t).map String.toList))

/-- A name stands somewhere where it counts, in ASCII letters. -/
def StandsPlainly (t : Text) (name : String) : Prop :=
  ∃ n, StandsAs (tailOf name) t name.toList n ∧ Text.upper n = name.toList

/-! ## The names one by one -/

theorem mem_table {name : String} : name ∈ table ↔ name ∈ oracleFunctions ∨ name ∈ oracleKeywords :=
  List.mem_append

theorem not_mem_functions : ∀ w ∈ oracleKeywords, w ∉ oracleFunctions := by decide

theorem isCapital_of_mem : ∀ name ∈ table, isCapital name.toList = true := by decide

theorem occursIn_patternOf_iff {name : String} (hname : name ∈ table) :
    (patternOf name).occursIn t = true ↔ ∃ n, StandsAs (tailOf name) t name.toList n := by
  rw [patternOf, tailOf]
  split_ifs with hf
  · exact occursIn_head_iff (ended_functions.isName name hf)
  · exact occursIn_keyword_iff_standsAs (ended_keywords.isName name ((mem_table.1 hname).resolve_left hf))

/-- The spellings that the two searches find, in capital letters. -/
def seen (t : Text) : List Text :=
  (oracleCall.findAll t ++ oracleKeyword.findAll t).map fun m => Text.upper (m.groupD 1)

/-- A name of the table is seen where it stands in ASCII letters. -/
theorem mem_seen_iff {name : String} (hname : name ∈ table) : name.toList ∈ seen t ↔ StandsPlainly t name := by
  have hascii : ∀ name ∈ table, ∀ c ∈ name.toList, c.toNat < 128 := by decide
  have hcall := searchFor_functions.mem_found_upper_iff ended_functions (t := t)
    (fun f hf => isCapital_of_mem f (mem_table.2 (.inl hf))) (hascii name hname)
  have hword := searchFor_keywords.mem_found_upper_iff ended_keywords (t := t)
    (fun w hw => isCapital_of_mem w (mem_table.2 (.inr hw))) (hascii name hname)
  have hseen : name.toList ∈ seen t ↔
      (∃ n ∈ (oracleCall.findAll t).map (·.groupD 1), Text.upper n = name.toList) ∨
      (∃ n ∈ (oracleKeyword.findAll t).map (·.groupD 1), Text.upper n = name.toList) := by
    simp only [seen, List.map_append, List.mem_append, List.mem_map, exists_exists_and_eq_and]
  rw [hseen, hcall, hword, StandsPlainly, tailOf]
  by_cases hf : name ∈ oracleFunctions
  · have hw : name ∉ oracleKeywords := fun hw => not_mem_functions name hw hf
    simp [hf, hw]
  · have hw := (mem_table.1 hname).resolve_left hf
    simp [hf, hw]

/-- A name that stands in ASCII letters has a match. -/
theorem occursIn_of_standsPlainly {name : String} (hname : name ∈ table) (h : StandsPlainly t name) :
    (patternOf name).occursIn t = true := by
  obtain ⟨n, hstands, -⟩ := h
  exact (occursIn_patternOf_iff hname).2 ⟨n, hstands⟩

/-! ## What is reported -/

theorem oracleRemains_eq (t : Text) : oracleRemains t =
    table.filter (fun name => (seen t).contains name.toList) ++ if Text.has "||" t then ["||"] else [] := rfl

/-- **All that has a match is reported** just where every name that has one stands somewhere in ASCII
letters. -/
theorem oracleRemains_eq_present_iff : oracleRemains t = present t ↔
    ∀ name ∈ table, (patternOf name).occursIn t = true → StandsPlainly t name := by
  rw [oracleRemains_eq, present, List.append_cancel_right_eq]
  constructor
  · intro h name hname hoccurs
    have hmem : name ∈ table.filter fun name => (seen t).contains name.toList := by
      rw [h]
      exact List.mem_filter.2 ⟨hname, hoccurs⟩
    exact (mem_seen_iff hname).1 (List.contains_iff_mem.1 (List.mem_filter.1 hmem).2)
  · intro h
    refine List.filter_congr fun name hname => Bool.eq_iff_iff.2 ?_
    rw [List.contains_iff_mem, mem_seen_iff hname]
    exact ⟨occursIn_of_standsPlainly hname, h name hname⟩

/-- What is reported has a match. -/
theorem oracleRemains_sublist (t : Text) : (oracleRemains t).Sublist (present t) := by
  have hfilter : table.filter (fun name => (seen t).contains name.toList) =
      (table.filter fun name => (patternOf name).occursIn t).filter fun name =>
        (seen t).contains name.toList := by
    rw [List.filter_filter]
    refine List.filter_congr fun name hname => ?_
    cases hseen : (seen t).contains name.toList with
    | false => rfl
    | true =>
      rw [occursIn_of_standsPlainly hname ((mem_seen_iff hname).1 (List.contains_iff_mem.1 hseen))]
      rfl
  rw [oracleRemains_eq, present, hfilter]
  exact List.filter_sublist.append (.refl _)

/-- The two searches find something just where one of the names has a match. -/
theorem exists_occursIn_iff : (∃ name ∈ table, (patternOf name).occursIn t = true) ↔
    oracleCall.occursIn t = true ∨ oracleKeyword.occursIn t = true := by
  rw [searchFor_functions.occursIn_iff ended_functions, searchFor_keywords.occursIn_iff ended_keywords]
  constructor
  · rintro ⟨name, hname, hoccurs⟩
    have hstands := (occursIn_patternOf_iff hname).1 hoccurs
    rw [tailOf] at hstands
    split_ifs at hstands with hf
    · exact .inl ⟨name, hf, hstands⟩
    · exact .inr ⟨name, (mem_table.1 hname).resolve_left hf, hstands⟩
  · rintro (⟨f, hf, hstands⟩ | ⟨w, hw, hstands⟩)
    · refine ⟨f, mem_table.2 (.inl hf), (occursIn_patternOf_iff (mem_table.2 (.inl hf))).2 ?_⟩
      rwa [tailOf, if_pos hf]
    · refine ⟨w, mem_table.2 (.inr hw), (occursIn_patternOf_iff (mem_table.2 (.inr hw))).2 ?_⟩
      rwa [tailOf, if_neg (not_mem_functions w hw)]

theorem present_eq_nil_iff : present t = [] ↔
    oracleCall.occursIn t = false ∧ oracleKeyword.occursIn t = false ∧ Text.has "||" t = false := by
  have hnone : (∀ name ∈ table, ¬ (patternOf name).occursIn t = true) ↔
      oracleCall.occursIn t = false ∧ oracleKeyword.occursIn t = false := by
    rw [← Bool.not_eq_true, ← Bool.not_eq_true, ← not_or, ← exists_occursIn_iff]
    simp
  rw [present, List.append_eq_nil_iff, List.filter_eq_nil_iff, hnone, and_assoc]
  simp

theorem passed_iff : (checkOracleFunctions t).passed = true ↔ oracleRemains t = [] := by
  rw [checkOracleFunctions]
  cases oracleRemains t <;> simp [Outcome.pass, Outcome.fail]

theorem message_of_ne_nil (h : oracleRemains t ≠ []) : (checkOracleFunctions t).message =
    "Oracle functions still present: " ++ Text.join ", " ((oracleRemains t).map String.toList) := by
  obtain ⟨name, names, hnames⟩ := List.exists_cons_of_ne_nil h
  rw [checkOracleFunctions, hnames]
  rfl

/-- A joined list shows how long it is. -/
theorem count_join {parts : List Text} (hne : parts ≠ []) (h : ∀ p ∈ parts, ',' ∉ p) :
    (Text.join ", " parts).count ',' + 1 = parts.length := by
  induction parts with
  | nil => exact absurd rfl hne
  | cons p parts ih =>
    obtain ⟨hp, hparts⟩ := List.forall_mem_cons.1 h
    cases parts with
    | nil => simp [Text.join, List.intercalate, List.count_eq_zero.2 hp]
    | cons q parts =>
      have hsep : (", " : Text).count ',' = 1 := by decide
      have hrest := ih (by simp) hparts
      rw [Text.join_cons (by simp), List.count_append, List.count_append, hsep, List.count_eq_zero.2 hp]
      simp only [List.length_cons] at hrest ⊢
      omega

theorem not_mem_of_mem_present {name : String} (h : name ∈ present t) : ',' ∉ name.toList := by
  have htable : ∀ name ∈ table ++ ["||"], ',' ∉ name.toList := by decide
  refine htable name ?_
  rw [present] at h
  rcases List.mem_append.1 h with h | h
  · exact List.mem_append_left _ (List.mem_filter.1 h).1
  · split_ifs at h
    · exact List.mem_append_right _ h
    · cases h

/-- A report with the text of all that has a match is one of all that has a match. -/
theorem eq_present_of_join_eq (hne : oracleRemains t ≠ [])
    (h : Text.join ", " ((oracleRemains t).map String.toList) = Text.join ", " ((present t).map String.toList)) :
    oracleRemains t = present t := by
  have hsub := oracleRemains_sublist t
  have hpresent : present t ≠ [] := fun hnil => hne (List.sublist_nil.1 (hnil ▸ hsub))
  have hcomma : ∀ {l : List String}, l.Sublist (present t) → ∀ p ∈ l.map String.toList, ',' ∉ p := by
    intro l hl p hp
    obtain ⟨name, hname, rfl⟩ := List.mem_map.1 hp
    exact not_mem_of_mem_present (hl.subset hname)
  have hcount := count_join (by simpa using hne) (hcomma hsub)
  rw [h, count_join (by simpa using hpresent) (hcomma (.refl _)), List.length_map, List.length_map] at hcount
  exact hsub.eq_of_length hcount.symm

theorem missesNothing_iff_eq : MissesNothing t ↔ oracleRemains t = present t := by
  rw [MissesNothing, passed_iff, ← present_eq_nil_iff]
  constructor
  · rintro ⟨hpass, hmessage⟩
    by_cases hnil : oracleRemains t = []
    · rw [hnil, hpass.1 hnil]
    · have hfail : (checkOracleFunctions t).passed = false := by
        rw [Bool.eq_false_iff, ne_eq, passed_iff]
        exact hnil
      have heq := hmessage hfail
      rw [message_of_ne_nil hnil] at heq
      exact eq_present_of_join_eq hnil (List.append_cancel_left heq)
  · intro h
    rw [h]
    refine ⟨Iff.rfl, fun hfail => ?_⟩
    rw [← h]
    refine message_of_ne_nil fun hnil => ?_
    rw [passed_iff.2 hnil] at hfail
    cases hfail

/-- Without a long s in the text, nothing is missed. -/
theorem missesNothing_of_not_mem (h : longS ∉ t) : MissesNothing t := by
  have hk : ∀ name ∈ table, 'K' ∉ name.toList := by decide
  rw [missesNothing_iff_eq, oracleRemains_eq_present_iff]
  intro name hname hoccurs
  obtain ⟨n, hstands⟩ := (occursIn_patternOf_iff hname).1 hoccurs
  refine ⟨n, hstands, ?_⟩
  obtain ⟨u, w, v, rfl, -, hspelled, -⟩ := hstands
  have hs : longS ∉ n := fun hmem => h (by simp [hmem])
  have hcapital := isCapital_of_mem name hname
  exact hspelled.upper_eq hcapital (hspelled.upper_ascii hcapital (hk name hname) hs)

/-- **When the check misses nothing**: just where every name that has a match also has one that is written in
ASCII letters. -/
theorem missesNothing_iff : MissesNothing t ↔
    ∀ name ∈ table, (patternOf name).occursIn t = true → StandsPlainly t name := by
  rw [missesNothing_iff_eq, oracleRemains_eq_present_iff]

/-- A long s is an s for the search and not for the table: the check passes with `SYSDATE` in the query. -/
theorem not_missesNothing_longS : ¬ MissesNothing (mask "SELECT \u017FYSDATE FROM t") := by
  rw [missesNothing_iff_eq]
  decide +kernel

end DialectBridge.Checklist
