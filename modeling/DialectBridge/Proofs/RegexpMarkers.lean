import DialectBridge.Proofs.Replacing
import DialectBridge.Proofs.SkeletonWords
import Mathlib.Data.List.TakeWhile
/-!
# Markers of regular expression functions

The marker is put in front of the names in code that do not have it yet (`Marking`), and once it is there it stays
the last thing in front of its name: the result is read like the query, name by name, so a second run finds a marker
in front of every name and leaves the query alone (`regexpFunctions_marks_once`).
-/
namespace DialectBridge.ToTsql
open Pattern LexState Text

/-- The rule finds the name `w` in the code of `x ++ (w ++ z)`, behind `x`. -/
def ShowsName (x w z : Text) : Prop :=
  ∃ m ∈ regexpWord.findAll (mask (x ++ (w ++ z))), m.start = width x ∧ m.stop = width (x ++ w)

/-- `out` is `t`, which stands behind `x`, with the marker in front of each name that does not have it there. -/
inductive Marking : Text → Text → Text → Prop
  | nil (x : Text) : Marking x [] []
  | keep {x t out : Text} (c : Char)
      (hmarked : ∀ w z, c :: t = w ++ z → ShowsName x w z → regexpMarker <:+ trimEnd x)
      (hrest : Marking (x ++ [c]) t out) : Marking x (c :: t) (c :: out)
  | mark {x w z out : Text} (hname : ShowsName x w z) (hunmarked : ¬ regexpMarker <:+ trimEnd x)
      (hrest : Marking (x ++ w) z out) : Marking x (w ++ z) (regexpMarker ++ " ".toList ++ (w ++ out))

/-! ## Names in code -/

section
variable {t u v w x y z : Text}

theorem takesWords_regexpWord : TakesWords regexpWord := fun u w v h => by
  obtain ⟨n, -, hname, hspelled, hu, hv⟩ := matches_regexpWord h
  exact ⟨hspelled.ne_nil hname, hspelled.isWordChar hname, hu, hv⟩

/-- `REGEXP_` and the rest of a name. -/
theorem matches_regexpName (h : ∃ n ∈ regexpFunctionNames, Spelled n.toList w) :
    Matches ("REGEXP_" ++ regexpNames) u w v := by
  obtain ⟨n, hn, hspelled⟩ := h
  have hsplits : ∀ n ∈ regexpFunctionNames, ∃ s ∈ ["LIKE", "SUBSTR", "REPLACE", "INSTR", "COUNT"],
      n.toList = "REGEXP_".toList ++ s.toList := by decide
  obtain ⟨s, hs, hsplit⟩ := hsplits n hn
  rw [hsplit] at hspelled
  have hhead := List.forall₂_take_append _ _ _ hspelled.flip
  have htail := List.forall₂_drop_append _ _ _ hspelled.flip
  have hmem : word s.toList ∈ ["LIKE", "SUBSTR", "REPLACE", "INSTR", "COUNT"].map fun s => word s.toList :=
    List.mem_map_of_mem hs
  exact matches_seq.2 ⟨_, _, (List.take_append_drop "REGEXP_".toList.length w).symm, matches_word.2 hhead.flip,
    matches_oneOf.2 ⟨_, hmem, matches_word.2 htail.flip⟩⟩

/-- A name is shown where a word of code spells it. -/
theorem showsName_iff : ShowsName x w z ↔ (code.after x).live = true ∧ endsInWord x = false ∧
    (∃ n ∈ regexpFunctionNames, Spelled n.toList w) ∧ beginsInWord z = false := by
  constructor
  · rintro ⟨m, hm, hstart, hstop⟩
    obtain ⟨hcut, hname⟩ := exists_name_of_regexpWord hm rfl hstart hstop
    exact ⟨hcut.live, by rw [← endsInWord_mask hcut.live, hcut.left], hname, hcut.right⟩
  · rintro ⟨hlive, hleft, hname, hright⟩
    have hwords : ∀ n ∈ regexpFunctionNames, isName n.toList = true := by decide
    obtain ⟨n, hn, hspelled⟩ := hname
    have hplain : ∀ c ∈ w, isPlain c = true := fun c hc => isPlain_of_isWordChar (hspelled.isWordChar (hwords n hn) c hc)
    have hmatch : Matches regexpWord (mask x) w (mask z) :=
      matches_regexpWord_iff.2 ⟨matches_regexpName ⟨n, hn, hspelled⟩, by rwa [endsInWord_mask hlive],
        by rwa [beginsInWord_mask]⟩
    obtain ⟨m, hm, -, hstart, hstop⟩ := takesWords_regexpWord.exists_mem_findAll hmatch
    rw [← mask_plain_between hlive hplain (hspelled.ne_nil (hwords n hn))] at hm
    exact ⟨m, hm, by rw [hstart, width_mask], by rw [hstop, width_append, width_mask, width_append]⟩

theorem ShowsName.wordCut (h : ShowsName x w z) : WordCut x w z := by
  obtain ⟨m, hm, hstart, hstop⟩ := h
  exact (exists_name_of_regexpWord hm rfl hstart hstop).1

theorem ShowsName.left (h : ShowsName x w z) : endsInWord x = false := (showsName_iff.1 h).2.1

theorem exists_mem_of_spelled {n : Text} (h : Spelled n w) {c : Char} (hc : c ∈ n) :
    ∃ d ∈ w, d ∈ Unicode.caseVariants c := by
  induction h with
  | nil => cases hc
  | @cons b d n w hd _ ih =>
    rcases List.mem_cons.1 hc with rfl | hc
    · exact ⟨d, by simp, hd⟩
    · obtain ⟨e, he, hvariant⟩ := ih hc
      exact ⟨e, List.mem_cons_of_mem d he, hvariant⟩

theorem ShowsName.underscore (h : ShowsName x w z) : '_' ∈ w := by
  have hnames : ∀ n ∈ regexpFunctionNames, '_' ∈ n.toList := by decide
  have hvariants : ∀ d ∈ Unicode.caseVariants '_', d = '_' := by decide
  obtain ⟨-, -, ⟨n, hn, hspelled⟩, -⟩ := showsName_iff.1 h
  obtain ⟨d, hd, hvariant⟩ := exists_mem_of_spelled hspelled (hnames n hn)
  rwa [← hvariants d hvariant]

/-! ## Where the marker ends -/

def wordless (t : Text) : Bool :=
  (List.range t.length).all fun k => !(code.after (t.take k)).live || !beginsInWord (t.drop k)

theorem wordless_regexpMarker : wordless (regexpMarker ++ " ".toList) = true :=
  Text.of_chars (p := fun t => wordless (t ++ " ".toList) = true) (by decide +kernel)

/-- In the marker no word of code begins. -/
theorem beginsInWord_in_marker (h : regexpMarker ++ " ".toList = x ++ y) (hlive : (code.after x).live = true) :
    beginsInWord y = false := by
  by_cases hy : y = []
  · rw [hy]
    rfl
  have hwordless := wordless_regexpMarker
  have hlength : x.length < (x ++ y).length := by
    rw [List.length_append]
    exact Nat.lt_add_of_pos_right (List.length_pos_iff.2 hy)
  rw [h] at hwordless
  have hplace := List.all_eq_true.1 hwordless x.length (List.mem_range.2 hlength)
  rw [List.take_left, List.drop_left, hlive] at hplace
  simpa using hplace

/-- The marker is read as it stands, whatever code it is put behind. -/
theorem live_in_marker (h : regexpMarker ++ " ".toList = u ++ v) (hy : (code.after y).live = true)
    (hlive : (code.after (y ++ u)).live = true) : (code.after u).live = true := by
  obtain ⟨r, hr⟩ := exists_regexpMarker_eq
  cases u with
  | nil => rfl
  | cons c u =>
    rw [hr] at h
    obtain ⟨rfl, -⟩ := List.cons.inj h
    rwa [after_append, after_of_joins (joins_slash hy _) (by simp)] at hlive

theorem underscore_not_mem_regexpMarker : '_' ∉ regexpMarker := Text.of_chars (p := fun t => '_' ∉ t) (by decide)

theorem trimEnd_append {c : Char} (hc : c ∈ y) (hblank : Unicode.isBlank c = false) (x : Text) :
    trimEnd (x ++ y) = x ++ trimEnd y := by
  have hne : (y.reverse.dropWhile Unicode.isBlank).isEmpty = false := by
    rw [Bool.eq_false_iff, ne_eq, List.isEmpty_iff, List.dropWhile_eq_nil_iff]
    intro hall
    rw [hall c (List.mem_reverse.2 hc)] at hblank
    cases hblank
  simp [trimEnd, dropTrailing, List.dropWhile_append, hne]

/-- Behind a marker there is the marker, but for white space. -/
theorem suffix_trimEnd_regexpMarker (x : Text) : regexpMarker <:+ trimEnd (x ++ (regexpMarker ++ " ".toList)) := by
  obtain ⟨r, hr⟩ := exists_regexpMarker_eq
  have htrim : trimEnd (regexpMarker ++ " ".toList) = regexpMarker :=
    Text.of_chars (p := fun t => trimEnd (t ++ " ".toList) = t) (by decide)
  rw [trimEnd_append (c := '/') (by simp [hr]) (by decide), htrim]
  exact List.suffix_append x regexpMarker

/-! ## Texts with and without markers -/

/-- `y` is `x` with markers: both end in the same text, back to the name behind the last marker. -/
structure Follows (x y : Text) : Prop where
  state : code.after y = code.after x
  ends : endsInWord y = endsInWord x
  tail : x = y ∨ ∃ a b s, '_' ∈ s ∧ x = a ++ s ∧ y = b ++ s

theorem follows_refl (x : Text) : Follows x x := ⟨rfl, rfl, .inl rfl⟩

theorem Follows.keep (h : Follows x y) (c : Char) : Follows (x ++ [c]) (y ++ [c]) := by
  refine ⟨by rw [after_append, after_append, h.state], by
    rw [endsInWord_append (by simp), endsInWord_append (by simp)], ?_⟩
  rcases h.tail with rfl | ⟨a, b, s, hs, rfl, rfl⟩
  · exact .inl rfl
  · exact .inr ⟨a, b, s ++ [c], by simp [hs], by simp, by simp⟩

theorem Follows.mark (h : Follows x y) (hname : ShowsName x w z) :
    Follows (x ++ w) (y ++ (regexpMarker ++ " ".toList ++ w)) := by
  have hcut := hname.wordCut
  obtain ⟨r, hr⟩ := exists_regexpMarker_eq
  refine ⟨?_, ?_, .inr ⟨x, y ++ (regexpMarker ++ " ".toList), w, hname.underscore, rfl, by simp⟩⟩
  · have hword : code.after w = code := after_of_all_isPlain rfl hcut.isPlain hcut.ne_nil
    have hjoins : (code.after y).joins (regexpMarker ++ " ".toList ++ w) = true := by
      rw [hr]
      exact joins_slash (h.state ▸ hcut.live) _
    rw [hcut.after, after_append, after_of_joins hjoins (by simp [hr]), after_append, front_regexpMarker.code, hword]
  · rw [← List.append_assoc, endsInWord_append hcut.ne_nil, endsInWord_append hcut.ne_nil]

/-- A marker in front of a name does not cover another name, so it is seen in both texts. -/
theorem Follows.marked (h : Follows x y) (hx : regexpMarker <:+ trimEnd x) : regexpMarker <:+ trimEnd y := by
  rcases h.tail with rfl | ⟨a, b, s, hs, rfl, rfl⟩
  · exact hx
  rw [trimEnd_append hs (by decide)] at hx ⊢
  have hmem : '_' ∈ trimEnd s := by
    obtain ⟨e, he, hblank⟩ := Text.exists_eq_dropTrailing_append Unicode.isBlank s
    rw [he, List.mem_append] at hs
    exact hs.resolve_right fun hmem => absurd (hblank _ hmem) (by decide)
  rcases List.suffix_or_suffix_of_suffix hx (List.suffix_append a _) with hmarker | hmarker
  · exact hmarker.trans (List.suffix_append b _)
  · exact absurd (hmarker.subset hmem) underscore_not_mem_regexpMarker

/-! ## What is marked -/

/-- Inside a word nothing is put: the word goes on in the result just as in the query. -/
theorem Marking.word_behind (h : Marking x t v) (hx : endsInWord x = true)
    (hw : ∀ c ∈ w, Unicode.isWordChar c = true) (hv : v = w ++ z) (hz : beginsInWord z = false) :
    ∃ z', t = w ++ z' ∧ beginsInWord z' = false := by
  induction h generalizing w with
  | nil x =>
    obtain ⟨rfl, rfl⟩ := List.append_eq_nil_iff.1 hv.symm
    exact ⟨[], rfl, rfl⟩
  | mark hname =>
    rw [hname.left] at hx
    cases hx
  | @keep x t out c _ _ ih =>
    cases w with
    | nil =>
      obtain rfl : c :: out = z := hv
      exact ⟨c :: t, rfl, hz⟩
    | cons d w =>
      obtain ⟨rfl, hout⟩ := List.cons.inj hv
      have hends : endsInWord (x ++ [c]) = true := by
        rw [endsInWord_append (by simp)]
        exact hw c (by simp)
      obtain ⟨z', rfl, hz'⟩ := ih hends (fun e he => hw e (List.mem_cons_of_mem c he)) hout
      exact ⟨z', rfl, hz'⟩

/-- A name of the result that begins where a character of the query is kept is a name of the query. -/
theorem Marking.name_behind {c : Char} (h : Marking (x ++ [c]) t v) (hxy : Follows x y) (hv : c :: v = w ++ z)
    (hname : ShowsName y w z) : ∃ z', c :: t = w ++ z' ∧ ShowsName x w z' := by
  obtain ⟨hlive, hleft, hspelled, hright⟩ := showsName_iff.1 hname
  have hcut := hname.wordCut
  obtain ⟨d, w, rfl⟩ := List.exists_cons_of_ne_nil hcut.ne_nil
  obtain ⟨rfl, hout⟩ := List.cons.inj hv
  have hends : endsInWord (x ++ [c]) = true := by
    rw [endsInWord_append (by simp)]
    exact hcut.word c (by simp)
  obtain ⟨z', rfl, hz'⟩ := h.word_behind hends (fun e he => hcut.word e (List.mem_cons_of_mem c he)) hout hright
  exact ⟨z', rfl, showsName_iff.2 ⟨hxy.state ▸ hlive, by rw [← hxy.ends, hleft], hspelled, hz'⟩⟩

/-- Every name of the result has the marker in front of it. -/
theorem Marking.marked (h : Marking x t v) (hxy : Follows x y) (hv : v = u ++ (w ++ z))
    (hname : ShowsName (y ++ u) w z) : regexpMarker <:+ trimEnd (y ++ u) := by
  induction h generalizing y u with
  | nil x =>
    obtain ⟨-, hnil⟩ := List.append_eq_nil_iff.1 hv.symm
    exact absurd (List.append_eq_nil_iff.1 hnil).1 hname.wordCut.ne_nil
  | @keep x t out c hmarked hrest ih =>
    cases u with
    | nil =>
      rw [List.append_nil] at hname ⊢
      rw [List.nil_append] at hv
      obtain ⟨z', ht, hold⟩ := hrest.name_behind hxy hv hname
      exact hxy.marked (hmarked w z' ht hold)
    | cons d u =>
      obtain ⟨rfl, hout⟩ := List.cons.inj hv
      have hsame : y ++ c :: u = y ++ [c] ++ u := by simp
      rw [hsame] at hname ⊢
      exact ih (hxy.keep c) hout hname
  | @mark x w' z' out hold _ _ ih =>
    have hbehind := suffix_trimEnd_regexpMarker y
    rcases List.append_eq_append_iff.1 hv with ⟨r, hu, hbehindMarker⟩ | ⟨r, hmarker, hinMarker⟩
    · rw [hu] at hname ⊢
      rcases List.append_eq_append_iff.1 hbehindMarker with ⟨u, rfl, hout⟩ | ⟨q, rfl, -⟩
      · -- behind the name that got the marker
        have hsame : y ++ (regexpMarker ++ " ".toList ++ (w' ++ u)) = y ++ (regexpMarker ++ " ".toList ++ w') ++ u := by
          simp
        rw [hsame] at hname ⊢
        exact ih (hxy.mark hold) hout hname
      · -- in this name, where only its beginning is a place for a name
        by_cases hr : r = []
        · rwa [hr, List.append_nil]
        have hleft := hname.left
        have hends : endsInWord r = true := endsInWord_of_all hr fun d hd => hold.wordCut.word d (by simp [hd])
        rw [← List.append_assoc, endsInWord_append hr, hends] at hleft
        cases hleft
    · -- in the marker, where no word of code begins
      by_cases hr : r = []
      · rw [hr, List.append_nil] at hmarker
        rwa [hmarker] at hbehind
      have hy : (code.after y).live = true := hxy.state ▸ hold.wordCut.live
      have hbegins := beginsInWord_in_marker hmarker (live_in_marker hmarker hy hname.wordCut.live)
      obtain ⟨c, w, rfl⟩ := List.exists_cons_of_ne_nil hname.wordCut.ne_nil
      obtain ⟨d, r, rfl⟩ := List.exists_cons_of_ne_nil hr
      obtain ⟨rfl, -⟩ := List.cons.inj hinMarker
      rw [beginsInWord_cons, hname.wordCut.word c (by simp)] at hbegins
      cases hbegins

/-- Characters before which no name begins are kept. -/
theorem Marking.append (h : Marking (x ++ w) t v)
    (hkept : ∀ a c b, w = a ++ c :: b → ∀ w' z, c :: (b ++ t) = w' ++ z → ShowsName (x ++ a) w' z →
      regexpMarker <:+ trimEnd (x ++ a)) : Marking x (w ++ t) (w ++ v) := by
  induction w generalizing x with
  | nil => simpa using h
  | cons c w ih =>
    have hrest : Marking (x ++ [c]) (w ++ t) (w ++ v) := ih (by simpa using h) fun a d b hw w' z hsplit hname => by
      have hsame : x ++ [c] ++ a = x ++ c :: a := by simp
      rw [hsame] at hname ⊢
      exact hkept (c :: a) d b (by rw [hw]; rfl) w' z hsplit hname
    refine .keep c (fun w' z hsplit hname => ?_) hrest
    have hhere := hkept [] c w rfl w' z hsplit
    rw [List.append_nil] at hhere
    exact hhere hname

end

section
variable {sql x t out : Text} {k : Nat} {ms : List Match}

/-- What the rule puts in is the marker, in front of the names that do not have it. -/
theorem marking_of_replaced (h : Replaced (markedName? sql) k ms t out) (hsql : sql = x ++ t) (hk : k = width x)
    (hms : ∀ m ∈ ms, m ∈ regexpWord.findAll (mask sql))
    (hall : ∀ m ∈ regexpWord.findAll (mask sql), k ≤ m.start → m ∈ ms) : Marking x t out := by
  induction h generalizing x with
  | nil k t =>
    have hkept : Marking x (t ++ []) (t ++ []) := .append (.nil _) fun a c b ht w z hsplit hname => by
      rw [List.append_nil] at hsplit
      obtain ⟨m, hm, hstart, -⟩ := hname
      rw [← hsplit, List.append_assoc, ← ht, ← hsql] at hm
      have hmem := hall m hm (by rw [hk, hstart, width_append]; omega)
      cases hmem
    simpa using hkept
  | @cons k m ms a w rest out hstart hstop hrest ih =>
    obtain ⟨hm, hms⟩ := List.forall_mem_cons.1 hms
    have hsplit : sql = x ++ a ++ (w ++ rest) := by rw [hsql]; simp
    have hstart' : m.start = width (x ++ a) := by rw [hstart, hk, width_append]
    have hstop' : m.stop = width (x ++ a ++ w) := by rw [hstop, hstart', width_append _ w]
    have hname : ShowsName (x ++ a) w rest := ⟨m, hsplit ▸ hm, hstart', hstop'⟩
    have hpos := width_pos hname.wordCut.ne_nil
    have htail : Marking (x ++ a ++ w) rest out := by
      refine ih (by rw [hsplit]; simp) hstop' hms fun m' hm' hle => ?_
      refine (List.mem_cons.1 (hall m' hm' (by omega))).resolve_left ?_
      rintro rfl
      omega
    -- no name begins in front of the first one
    have hfront : ∀ b c d, a = b ++ c :: d → ∀ w' z, c :: (d ++ (w ++ rest)) = w' ++ z → ¬ ShowsName (x ++ b) w' z := by
      rintro b c d rfl w' z heq ⟨m', hm', hplace, -⟩
      have hsql' : x ++ b ++ (w' ++ z) = sql := by rw [← heq, hsplit]; simp
      have hc := c.utf8Size_pos
      simp only [width_append, width_cons] at hplace hstart'
      rw [hsql'] at hm'
      rcases List.mem_cons.1 (hall m' hm' (by omega)) with rfl | hmem
      · omega
      · have := hrest.le_start m' hmem
        omega
    rw [hsplit, markedName?_eq_ite hstart' hstop', List.append_assoc a w rest, List.append_assoc a _ out]
    split_ifs with hmarked
    · -- the name is kept, and no other one begins in it
      have hword : Marking (x ++ a) (w ++ rest) (w ++ out) := by
        refine .append htail fun b c d hw w' z _ hname' => ?_
        by_cases hb : b = []
        · rwa [hb, List.append_nil]
        have hends : endsInWord b = true := endsInWord_of_all hb fun e he => hname.wordCut.word e (by simp [hw, he])
        have hleft := hname'.left
        rw [endsInWord_append hb, hends] at hleft
        cases hleft
      exact .append hword fun b c d ha w' z heq hname' => absurd hname' (hfront b c d ha w' z heq)
    · have hword := Marking.mark hname hmarked htail
      rw [Option.getD_some, List.append_assoc (regexpMarker ++ " ".toList)]
      exact .append hword fun b c d ha w' z heq hname' => absurd hname' (hfront b c d ha w' z heq)

end

/-! ## The rule -/

/-- What the rule finds in the mask is a name. -/
theorem exists_showsName_of_mem {sql : Text} {m : Match} (hm : m ∈ regexpWord.findAll (mask sql)) :
    ∃ x w z, sql = x ++ (w ++ z) ∧ m.start = width x ∧ m.stop = width (x ++ w) ∧ ShowsName x w z := by
  obtain ⟨hstart, hstop, hlt⟩ := isBoundary_of_mem_findAll (framed_clauses _ (by simp)) hm
  obtain ⟨x, w, z, hsql, hx, hw⟩ := exists_cuts hstart hstop (Nat.le_of_lt hlt)
  rw [List.append_assoc] at hsql
  have hstop' : m.stop = width (x ++ w) := by rw [width_append, hw]
  exact ⟨x, w, z, hsql, hx.symm, hstop', m, hsql ▸ hm, hx.symm, hstop'⟩

theorem occursIn_regexpWord_iff (sql : Text) :
    regexpWord.occursIn (mask sql) = true ↔ ∃ x w z, sql = x ++ (w ++ z) ∧ ShowsName x w z := by
  have hnil := findAll_eq_nil_iff (t := mask sql) takesWords_regexpWord.consuming
  constructor
  · intro hoccurs
    have hne : regexpWord.findAll (mask sql) ≠ [] := fun h => by
      rw [hnil.1 h] at hoccurs
      cases hoccurs
    obtain ⟨m, hm⟩ := List.exists_mem_of_ne_nil _ hne
    obtain ⟨x, w, z, hsql, -, -, hname⟩ := exists_showsName_of_mem hm
    exact ⟨x, w, z, hsql, hname⟩
  · rintro ⟨x, w, z, rfl, m, hm, -, -⟩
    by_contra hnone
    rw [hnil.2 (Bool.eq_false_iff.2 hnone)] at hm
    cases hm

/-- A warning that stands under a condition is raised if it holds. -/
theorem run_warnOnce_if (b : Bool) (category : Category) (message out : Text) :
    (do
      if b then warnOnce category message
      return out : Reporting Text).run [] = some (out, if b then [⟨category, message⟩] else []) := by
  cases b
  · rfl
  · simp [warnOnce]

/-- The result of the rule, and its warnings. -/
theorem exists_regexpFunctions (sql : Text) : ∃ out,
    Replaced (markedName? sql) 0 (regexpWord.findAll (mask sql)) sql out ∧ Gives (regexpFunctions sql) out ∧
    ∃ log, (regexpFunctions sql).run [] = some (out, log) ∧
      (regexpWord.occursIn (mask sql) = true ↔ .regexpLike ∈ log.map Warning.category) := by
  have hframed : regexpWord.framed = true := framed_clauses _ (by simp)
  obtain ⟨out, hout, hlog, hreplaced⟩ := exists_replaceSpans_of_pure hframed
    fun m (hm : m ∈ regexpWord.findAll (mask sql)) => mark_eq_pure hm
  have hspans := hout []
  obtain ⟨log, hspans⟩ := hspans
  obtain rfl := hlog [] out log hspans
  refine ⟨out, hreplaced, hout.bind ?_, ?_⟩
  · split_ifs
    · exact (gives_warnOnce _ _).bind (gives_pure out)
    · exact gives_pure out
  rw [regexpFunctions, StateT.run_bind, hspans]
  refine ⟨_, run_warnOnce_if _ _ _ _, ?_⟩
  split_ifs with hoccurs
  · exact iff_of_true hoccurs (List.mem_singleton_self _)
  · exact iff_of_false hoccurs List.not_mem_nil

/-- The names of a marked query have their marker, so nothing is put in front of them. -/
theorem Marking.markedName?_eq_none {sql out : Text} (h : Marking [] sql out) :
    ∀ m ∈ regexpWord.findAll (mask out), markedName? out m = none := by
  intro m hm
  obtain ⟨x, w, z, rfl, hstart, hstop, hname⟩ := exists_showsName_of_mem hm
  rw [markedName?_eq_ite hstart hstop, if_pos]
  exact h.marked (follows_refl []) rfl hname

/-- In front of the names of regular expression functions in code the marker is put, where it is not there yet, and
nothing else is changed; each name of the result has it, and a second run leaves the result alone. A warning is raised
if and only if there is such a name. -/
theorem regexpFunctions_marks_once (sql : Text) : ∃ out,
    Gives (regexpFunctions sql) out ∧ Marking [] sql out ∧
    (∀ x w z, out = x ++ (w ++ z) → ShowsName x w z → regexpMarker <:+ trimEnd x) ∧
    Gives (regexpFunctions out) out ∧
    ∃ log, (regexpFunctions sql).run [] = some (out, log) ∧
      ((∃ x w z, sql = x ++ (w ++ z) ∧ ShowsName x w z) ↔ .regexpLike ∈ log.map Warning.category) := by
  obtain ⟨out, hreplaced, hout, log, hrun, hwarned⟩ := exists_regexpFunctions sql
  have hmarking := marking_of_replaced hreplaced (List.nil_append sql).symm rfl (fun _ => id) fun _ hm _ => hm
  obtain ⟨again, hagain, hgives, -⟩ := exists_regexpFunctions out
  obtain rfl := hagain.eq_self hmarking.markedName?_eq_none
  refine ⟨_, hout, hmarking, fun x w z hsplit hname => ?_, hgives, log, hrun, ?_⟩
  · exact hmarking.marked (follows_refl []) hsplit hname
  · rw [← occursIn_regexpWord_iff, hwarned]

-- a slash in front of the marker is no part of its comment
example : ((regexpFunctions "/REGEXP_LIKE(a)").run []).map Prod.fst =
    some ("/" ++ regexpMarker ++ " REGEXP_LIKE(a)") := by decide +kernel

end DialectBridge.ToTsql
