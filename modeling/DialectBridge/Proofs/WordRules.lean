import DialectBridge.Proofs.Replacing
import DialectBridge.Proofs.SegmentEdits
/-!
# Rules that put a text in the place of a name

A rule takes a name where it stands as a word, or takes it with the empty parentheses behind it (`WordRule`). What it
makes of a text is read off word by word (`run_sign`, `run_word`, `run_taken`), so the rules of a list do not meet
where each of them passes by what the others take and put in. Where each text that is put in is taken by a later rule,
which puts back what was there, the rules together leave the text alone (`runAll_eq_self`).

The rules of the two dialects for the current time and for a new identifier are seven word rules, one after the other.
Each word of Oracle becomes a call that a rule of the way back takes, and no other rule takes the word or the call, so
the words come back (`currentDatetime_roundTrip`).
-/
namespace DialectBridge
open Pattern Cursor LexState

/-! ## Empty parentheses -/

theorem EmptyParens.unique {s s' v v' : Text} (hs : EmptyParens s) (hs' : EmptyParens s') (h : s ++ v = s' ++ v') :
    s = s' := by
  have hhead : ∀ {c : Char} (t : Text), Unicode.isBlank c = false → ∀ d ∈ (c :: t).head?, Unicode.isBlank d = false := by
    rintro c t hc d ⟨⟩
    exact hc
  obtain ⟨b, i, hb, hi, rfl⟩ := hs
  obtain ⟨b', i', hb', hi', rfl⟩ := hs'
  simp only [List.append_assoc, List.cons_append, List.nil_append] at h
  obtain ⟨rfl, hrest⟩ := append_inj_of_all hb hb' (hhead (c := '(') _ (by decide)) (hhead (c := '(') _ (by decide)) h
  obtain ⟨rfl, -⟩ := append_inj_of_all hi hi' (hhead (c := ')') _ (by decide)) (hhead (c := ')') _ (by decide))
    (List.cons.inj hrest).2
  rfl

/-- A text is empty, or goes on behind a sign or behind a word. -/
@[elab_as_elim]
theorem words_induction {P : Text → Prop} (nil : P [])
    (sign : ∀ c y, Unicode.isWordChar c = false → P y → P (c :: y))
    (word : ∀ w y, w ≠ [] → (∀ d ∈ w, Unicode.isWordChar d = true) → beginsInWord y = false → P y → P (w ++ y))
    (t : Text) : P t := by
  induction hlength : t.length using Nat.strongRecOn generalizing t with
  | ind k ih =>
    subst hlength
    cases ht : beginsInWord t with
    | false =>
      cases t with
      | nil => exact nil
      | cons c y => exact sign c y ht (ih y.length (by simp) y rfl)
    | true =>
      obtain ⟨w, y, rfl, hne, hw, hy⟩ := exists_first_word ht
      refine word w y hne hw hy (ih y.length ?_ y rfl)
      have hpos := List.length_pos_iff.2 hne
      rw [List.length_append]
      omega

/-! ## Rules -/

/-- A rule that puts a text in the place of a name, or of a name with empty parentheses. -/
structure WordRule where
  name : Text
  /-- Whether the parentheses are taken with the name. -/
  call : Bool
  text : Text
  isName : isName name = true
  plain : ∀ c ∈ text, isPlain c = true
  begins : beginsInWord text = true
  noDollar : '$' ∉ text

namespace WordRule

def pattern (e : WordRule) : Pattern := if e.call then ToOracle.emptyCall e.name else keyword e.name

/-- What the rule takes behind the name. -/
def Tail (e : WordRule) (s : Text) : Prop := if e.call then EmptyParens s else s = []

/-- Whether the rule takes the word `w` in front of `y`. -/
def Takes (e : WordRule) (w y : Text) : Prop := Spelled e.name w ∧ ∃ s z, y = s ++ z ∧ e.Tail s

/-- A run of code under the rule. -/
def run (e : WordRule) (x : Text) : Text := e.pattern.replaceAll e.text x

variable {e e' f b : WordRule} {s u u' v w x y z : Text}

theorem Tail.sign (h : e.Tail s) : ∀ c ∈ s, Unicode.isWordChar c = false := by
  intro c hc
  rw [Tail] at h
  split_ifs at h
  · rcases h.mem c hc with hblank | rfl | rfl
    · exact isWordChar_of_isBlank hblank
    · decide
    · decide
  · simp [h] at hc

theorem Tail.unique (h : e.Tail s) (h' : e.Tail u) (heq : s ++ v = u ++ z) : s = u := by
  rw [Tail] at h h'
  split_ifs at h h'
  · exact h.unique h' heq
  · rw [h, h']

theorem matches_pattern_iff : Matches e.pattern u w v ↔ ∃ n s, w = n ++ s ∧ Spelled e.name n ∧ e.Tail s ∧
    endsInWord u = false ∧ beginsInWord (s ++ v) = false := by
  rw [pattern]
  simp only [Tail]
  split_ifs
  · rw [ToOracle.matches_emptyCall_iff e.isName]
    constructor
    · rintro ⟨n, s, hw, hn, hs, hu⟩
      exact ⟨n, s, hw, hn, hs, hu, hs.beginsInWord v⟩
    · rintro ⟨n, s, hw, hn, hs, hu, -⟩
      exact ⟨n, s, hw, hn, hs, hu⟩
  · rw [matches_keyword e.isName]
    constructor
    · rintro ⟨hn, hu, hv⟩
      exact ⟨w, [], (List.append_nil w).symm, hn, rfl, hu, hv⟩
    · rintro ⟨n, s, rfl, hn, rfl, hu, hv⟩
      rw [List.append_nil]
      exact ⟨hn, hu, hv⟩

/-- What is taken begins in a word. -/
theorem beginsInWord_of_matches (h : Matches e.pattern u w v) : w ≠ [] ∧ beginsInWord (w ++ v) = true := by
  obtain ⟨n, s, rfl, hn, -, -, -⟩ := matches_pattern_iff.1 h
  rw [List.append_assoc]
  exact ⟨List.append_ne_nil_of_left_ne_nil (hn.ne_nil e.isName) s, hn.beginsInWord e.isName _⟩

/-- Behind what is taken no word goes on. -/
theorem apart_of_matches (h : Matches e.pattern u w v) : Apart w v := by
  obtain ⟨n, s, rfl, -, hs, -, hv⟩ := matches_pattern_iff.1 h
  by_cases hnil : s = []
  · exact .of_begins (by simpa [hnil] using hv) _
  · exact .of_ends (endsInWord_signs hnil hs.sign n) v

theorem consuming (e : WordRule) : e.pattern.Consuming := fun _ _ _ h => (beginsInWord_of_matches h).1

theorem matches_congr (h : Matches e.pattern u w v) (hu : endsInWord u' = endsInWord u) : Matches e.pattern u' w v := by
  obtain ⟨n, s, hw, hn, hs, hend, hv⟩ := matches_pattern_iff.1 h
  exact matches_pattern_iff.2 ⟨n, s, hw, hn, hs, hu.trans hend, hv⟩

/-- What is taken in a text is taken behind another one, if no word goes on there. -/
theorem matches_behind {a : Text} (h : Matches e.pattern u w v) (ha : Apart a (u ++ (w ++ v))) :
    Matches e.pattern (a ++ u) w v := by
  refine matches_congr h ?_
  by_cases hu : u = []
  · rw [hu, List.append_nil, endsInWord_nil, Bool.eq_false_iff]
    intro hend
    have hbegin := ha hend
    rw [hu, List.nil_append, (beginsInWord_of_matches h).2] at hbegin
    cases hbegin
  · exact endsInWord_append hu a

theorem matches_unique {w' v' : Text} (h : Matches e.pattern u w v) (h' : Matches e.pattern u' w' v')
    (heq : w ++ v = w' ++ v') : w = w' ∧ v = v' := by
  obtain ⟨n, s, rfl, hn, hs, -, hv⟩ := matches_pattern_iff.1 h
  obtain ⟨n', s', rfl, hn', hs', -, hv'⟩ := matches_pattern_iff.1 h'
  rw [List.append_assoc, List.append_assoc] at heq
  obtain ⟨rfl, hrest⟩ := word_inj (hn.isWordChar e.isName) (hn'.isWordChar e.isName) hv hv' heq
  obtain rfl := hs.unique hs' hrest
  exact ⟨rfl, List.append_cancel_left hrest⟩

theorem exists_matchAt? (h : Matches e.pattern u w v) : ∃ m, e.pattern.matchAt? (between u (w ++ v)) = some m ∧
    m.first = between u (w ++ v) ∧ m.last = between (u ++ w) v := by
  obtain ⟨g, g', htakes⟩ := h
  obtain ⟨m, hm⟩ := Option.isSome_iff_exists.1 (isSome_matchAt?_iff.2 ⟨w, v, g, g', rfl, htakes⟩)
  obtain ⟨w', v', hsplit, hfirst, hlast, htakes'⟩ := matchAt?_eq_some hm
  obtain ⟨rfl, rfl⟩ := matches_unique ⟨g, g', htakes⟩ ⟨_, _, htakes'⟩ hsplit
  exact ⟨m, hm, hfirst, hlast⟩

theorem matchAt?_eq_none (h : ∀ w v, x = w ++ v → ¬ Matches e.pattern u w v) :
    e.pattern.matchAt? (between u x) = none := by
  by_contra hne
  obtain ⟨m, hm⟩ := Option.ne_none_iff_exists'.1 hne
  obtain ⟨w, v, hsplit, -, -, htakes⟩ := matchAt?_eq_some hm
  exact h w v hsplit ⟨_, _, htakes⟩

theorem matches_of_matchAt? {m : Match} (h : e.pattern.matchAt? (between u (w ++ v)) = some m)
    (hlast : m.last = between (u ++ w) v) : Matches e.pattern u w v := by
  obtain ⟨w', v', -, -, hlast', htakes⟩ := matchAt?_eq_some h
  obtain ⟨hw, rfl⟩ := between_inj.1 (hlast'.symm.trans hlast)
  obtain rfl := List.append_cancel_left hw
  exact ⟨_, _, htakes⟩

/-! ## What a rule makes of a text -/

theorem run_eq_replaceFrom (e : WordRule) (x : Text) :
    e.run x = e.pattern.replaceFrom (fun _ => e.text) [] x := by
  rw [run, replaceAll, funext (expandAt_of_noDollar e.noDollar), replaceAllBy_eq_replaceFrom]

theorem replaceFrom_of_matches (h : Matches e.pattern u w v) :
    e.pattern.replaceFrom (fun _ => e.text) u (w ++ v) =
      e.text ++ e.pattern.replaceFrom (fun _ => e.text) (u ++ w) v := by
  obtain ⟨m, hm, -, hlast⟩ := exists_matchAt? h
  exact replaceFrom_of_some e.consuming hm hlast

/-- What stands in front of a text does not matter, if no word goes on there. -/
theorem replaceFrom_eq_run (h : Apart u x) : e.pattern.replaceFrom (fun _ => e.text) u x = e.run x := by
  suffices hcongr : ∀ u', (beginsInWord x = true → endsInWord u' = endsInWord u) →
      e.pattern.replaceFrom (fun _ => e.text) u x = e.pattern.replaceFrom (fun _ => e.text) u' x by
    rw [run_eq_replaceFrom]
    refine hcongr [] fun hbegin => ?_
    by_contra hend
    rw [h (by simpa using Ne.symm hend)] at hbegin
    cases hbegin
  clear h
  induction u, x using walk_induction e.consuming with
  | nil u => simp [replaceFrom_nil e.consuming]
  | skip u c t hnone ih =>
    intro u' hends
    have hnone' : e.pattern.matchAt? (between u' (c :: t)) = none := by
      refine matchAt?_eq_none fun w v hsplit hmatch => ?_
      have hbegin := (beginsInWord_of_matches hmatch).2
      rw [← hsplit] at hbegin
      obtain ⟨m, hm, -⟩ := exists_matchAt? (matches_congr hmatch (hends hbegin).symm)
      rw [← hsplit, hnone] at hm
      cases hm
    have hrest := ih (u' ++ [c]) fun _ => by rw [endsInWord_append (by simp), endsInWord_append (by simp)]
    rw [replaceFrom_cons_of_none hnone, replaceFrom_cons_of_none hnone', hrest]
  | found u w v m hm _ hlast ih =>
    intro u' hends
    have hmatch := matches_of_matchAt? hm hlast
    obtain ⟨hne, hbegin⟩ := beginsInWord_of_matches hmatch
    have hrest := ih (u' ++ w) fun _ => by rw [endsInWord_append hne, endsInWord_append hne]
    rw [replaceFrom_of_matches hmatch, replaceFrom_of_matches (matches_congr hmatch (hends hbegin)), hrest]

@[simp] theorem run_nil (e : WordRule) : e.run [] = [] := by rw [run_eq_replaceFrom, replaceFrom_nil e.consuming]

/-- A sign stays. -/
theorem run_sign {c : Char} (hc : Unicode.isWordChar c = false) (y : Text) : e.run (c :: y) = c :: e.run y := by
  have hnone : e.pattern.matchAt? (between [] (c :: y)) = none := by
    refine matchAt?_eq_none fun w v hsplit hmatch => ?_
    have hbegin := (beginsInWord_of_matches hmatch).2
    rw [← hsplit, beginsInWord_cons, hc] at hbegin
    cases hbegin
  rw [run_eq_replaceFrom, replaceFrom_cons_of_none hnone, replaceFrom_eq_run (.of_ends (by simpa using hc) y)]

/-- A word that is not taken stays. -/
theorem run_word (hw : ∀ c ∈ w, Unicode.isWordChar c = true) (hy : beginsInWord y = false) (h : ¬ e.Takes w y) :
    e.run (w ++ y) = w ++ e.run y := by
  have hnone : ∀ a c b, w = a ++ c :: b → e.pattern.matchAt? (between ([] ++ a) (c :: (b ++ y))) = none := by
    rintro a c b rfl
    refine matchAt?_eq_none fun w' v hsplit hmatch => ?_
    obtain ⟨n, s, rfl, hn, hs, hend, hv⟩ := matches_pattern_iff.1 hmatch
    have hsplit' : c :: b ++ y = n ++ (s ++ v) := by simpa using hsplit
    obtain ⟨rfl, rfl⟩ := word_inj (fun d hd => hw d (List.mem_append_right a hd)) (hn.isWordChar e.isName) hy hv hsplit'
    by_cases ha : a = []
    · exact h ⟨by rwa [ha], s, v, rfl, hs⟩
    · rw [List.nil_append, endsInWord_of_all ha fun d hd => hw d (List.mem_append_left _ hd)] at hend
      cases hend
  rw [run_eq_replaceFrom, replaceFrom_append_of_none hnone, replaceFrom_eq_run (.of_begins hy _)]

/-- A name that is taken gives way to the text. -/
theorem run_taken (hw : Spelled e.name w) (hs : e.Tail s) (hz : beginsInWord (s ++ z) = false) :
    e.run (w ++ (s ++ z)) = e.text ++ e.run z := by
  have hmatch : Matches e.pattern [] (w ++ s) z := matches_pattern_iff.2 ⟨w, s, rfl, hw, hs, rfl, hz⟩
  rw [run_eq_replaceFrom, ← List.append_assoc, replaceFrom_of_matches hmatch, List.nil_append,
    replaceFrom_eq_run (apart_of_matches hmatch)]

/-- Signs in front of a text stay. -/
theorem run_signs (hs : ∀ c ∈ s, Unicode.isWordChar c = false) (y : Text) : e.run (s ++ y) = s ++ e.run y := by
  induction s with
  | nil => rfl
  | cons c s ih =>
    obtain ⟨hc, hs⟩ := List.forall_mem_cons.1 hs
    rw [List.cons_append, run_sign hc, ih hs, List.cons_append]

/-- A text is read word by word. -/
theorem run_cases (e : WordRule) (hw : ∀ c ∈ w, Unicode.isWordChar c = true)
    (hy : beginsInWord y = false) : (¬ e.Takes w y ∧ e.run (w ++ y) = w ++ e.run y) ∨
      ∃ s z, y = s ++ z ∧ Spelled e.name w ∧ e.Tail s ∧ e.run (w ++ y) = e.text ++ e.run z := by
  by_cases h : e.Takes w y
  · obtain ⟨hspelled, s, z, rfl, hs⟩ := h
    exact .inr ⟨s, z, rfl, hspelled, hs, run_taken hspelled hs hy⟩
  · exact .inl ⟨h, run_word hw hy h⟩

theorem beginsInWord_run (e : WordRule) (x : Text) : beginsInWord (e.run x) = beginsInWord x := by
  induction x using words_induction with
  | nil => rw [run_nil]
  | sign c y hc _ => rw [run_sign hc]; rfl
  | word w y hne hw hy _ =>
    obtain ⟨c, w, rfl⟩ := List.exists_cons_of_ne_nil hne
    have hbegins : beginsInWord (c :: w ++ y) = true := hw c (by simp)
    rcases e.run_cases hw hy with ⟨-, hrun⟩ | ⟨s, z, -, -, -, hrun⟩
    · rw [hrun, hbegins]
      exact hw c (by simp)
    · rw [hrun, hbegins, beginsInWord_append (ne_nil_of_beginsInWord e.begins), e.begins]

/-- Signs in front of what comes out stand in front of the text. -/
theorem exists_of_run_eq_signs (hs : ∀ c ∈ s, Unicode.isWordChar c = false) (h : e.run y = s ++ z) :
    ∃ z', y = s ++ z' := by
  induction s generalizing y with
  | nil => exact ⟨y, rfl⟩
  | cons c s ih =>
    obtain ⟨hc, hmore⟩ := List.forall_mem_cons.1 hs
    have hbegins : beginsInWord y = false := by rw [← e.beginsInWord_run, h]; exact hc
    cases y with
    | nil => simp at h
    | cons d y =>
      rw [run_sign hbegins] at h
      obtain ⟨rfl, hrest⟩ := List.cons.inj h
      obtain ⟨z', rfl⟩ := ih hmore hrest
      exact ⟨z', rfl⟩

/-- What one rule takes behind a name, another one leaves there. -/
theorem Takes.of_run (h : e'.Takes w (e.run y)) : e'.Takes w y := by
  obtain ⟨hw, s, z, hsplit, hs⟩ := h
  obtain ⟨z', rfl⟩ := exists_of_run_eq_signs hs.sign hsplit
  exact ⟨hw, s, z', rfl, hs⟩

/-- The pieces of what comes out are pieces of the text, or of what is put in. -/
theorem pieces_run_subset (hend : endsInWord e.text = false) {q : Text} (hq : q ∈ pieces (e.run x)) :
    q ∈ pieces x ∨ q ∈ pieces e.text := by
  induction x using words_induction with
  | nil => exact .inl (by rwa [run_nil] at hq)
  | sign c y hc ih =>
    rw [run_sign hc, pieces_cons_of_not_word hc] at hq
    rw [pieces_cons_of_not_word hc]
    rcases List.mem_cons.1 hq with rfl | hq
    · exact .inl (by simp)
    · exact (ih hq).imp_left (List.mem_cons_of_mem _)
  | word w y hne hw hy ih =>
    have hpieces : ∀ {z}, beginsInWord z = false → pieces (w ++ z) = w :: pieces z := fun hz => by
      rw [pieces_append (.of_begins hz w), pieces_word hne hw]
      rfl
    rw [hpieces hy]
    rcases e.run_cases hw hy with ⟨-, hrun⟩ | ⟨s, z, rfl, -, hs, hrun⟩
    · rw [hrun, hpieces (by rwa [beginsInWord_run])] at hq
      rcases List.mem_cons.1 hq with rfl | hq
      · exact .inl (by simp)
      · exact (ih hq).imp_left (List.mem_cons_of_mem _)
    · rw [hrun, pieces_append (.of_ends hend _)] at hq
      rcases List.mem_append.1 hq with hq | hq
      · exact .inr hq
      · have hbehind : q ∈ pieces (e.run (s ++ z)) := by
          rw [run_signs hs.sign, pieces_append (apart_signs hs.sign _)]
          exact List.mem_append_right _ hq
        exact (ih hbehind).imp_left (List.mem_cons_of_mem _)

/-! ## What a search finds -/

theorem isolated (e : WordRule) : e.pattern.Isolated := by
  intro u a b v ha hb h w v' hsplit h'
  obtain ⟨n, s, hns, hn, hs, -, -⟩ := matches_pattern_iff.1 h
  obtain ⟨-, -, -, -, -, hend, -⟩ := matches_pattern_iff.1 h'
  rw [endsInWord_append ha] at hend
  rcases List.append_eq_append_iff.1 hns with ⟨r, rfl, -⟩ | ⟨r, rfl, rfl⟩
  · -- behind a part of the name
    rw [endsInWord_of_all ha fun c hc => hn.isWordChar e.isName c (List.mem_append_left r hc)] at hend
    cases hend
  · -- behind the name, where no word begins
    have hbegin := (beginsInWord_of_matches h').2
    rw [← hsplit, beginsInWord_append hb] at hbegin
    have hsign := beginsInWord_signs (t := []) (fun c hc => hs.sign c (List.mem_append_right r hc)) rfl
    rw [List.append_nil, hbegin] at hsign
    cases hsign

theorem exists_mem_findAll (h : Matches e.pattern u w v) : ∃ m ∈ e.pattern.findAll (u ++ (w ++ v)), m.text = w := by
  obtain ⟨m, hm, hfirst, hlast⟩ := exists_matchAt? h
  refine ⟨m, (mem_findAll_iff e.consuming e.isolated).2 ⟨u, w ++ v, rfl, hm⟩, ?_⟩
  rw [Match.text, hfirst, hlast, upTo_between]

/-! ## Rules one after the other -/

variable {es : List WordRule}

/-- A run of code under the rules of a list, from the first one to the last. -/
def runAll (es : List WordRule) (x : Text) : Text := es.foldl (fun x e => e.run x) x

@[simp] theorem runAll_cons (e : WordRule) (es : List WordRule) (x : Text) :
    runAll (e :: es) x = runAll es (e.run x) := rfl

@[simp] theorem runAll_append (l r : List WordRule) (x : Text) : runAll (l ++ r) x = runAll r (runAll l x) :=
  List.foldl_append

@[simp] theorem runAll_nil (es : List WordRule) : runAll es [] = [] := by
  induction es with
  | nil => rfl
  | cons e es ih => rw [runAll_cons, run_nil, ih]

theorem runAll_signs (hs : ∀ c ∈ s, Unicode.isWordChar c = false) (y : Text) :
    runAll es (s ++ y) = s ++ runAll es y := by
  induction es generalizing y with
  | nil => rfl
  | cons e es ih => rw [runAll_cons, run_signs hs, ih, runAll_cons]

theorem runAll_word (hw : ∀ c ∈ w, Unicode.isWordChar c = true) (hy : beginsInWord y = false)
    (h : ∀ e ∈ es, ¬ e.Takes w y) : runAll es (w ++ y) = w ++ runAll es y := by
  induction es generalizing y with
  | nil => rfl
  | cons e es ih =>
    obtain ⟨he, hes⟩ := List.forall_mem_cons.1 h
    rw [runAll_cons, run_word hw hy he, ih (by rwa [beginsInWord_run]) fun d hd hd' => hes d hd hd'.of_run, runAll_cons]

theorem beginsInWord_runAll (es : List WordRule) (x : Text) : beginsInWord (runAll es x) = beginsInWord x := by
  induction es generalizing x with
  | nil => rfl
  | cons e es ih => rw [runAll_cons, ih, beginsInWord_run]

/-! ## There and back -/

def spelling (e : WordRule) : Text := e.name ++ if e.call then "()".toList else []

theorem exists_spelling (hz : Apart e.spelling z) :
    ∃ s, e.spelling = e.name ++ s ∧ e.Tail s ∧ beginsInWord (s ++ z) = false := by
  rw [spelling] at hz ⊢
  simp only [Tail]
  split_ifs at hz ⊢
  · exact ⟨_, rfl, ⟨[], [], by simp, by simp, rfl⟩, rfl⟩
  · refine ⟨_, rfl, rfl, hz ?_⟩
    rw [List.append_nil]
    exact (spelled_self e.name).endsInWord e.isName []

theorem run_spelling (hz : Apart e.spelling z) : e.run (e.spelling ++ z) = e.text ++ e.run z := by
  obtain ⟨s, hspelling, hs, hbegin⟩ := exists_spelling hz
  rw [hspelling, List.append_assoc, run_taken (spelled_self _) hs hbegin]

/-- The rules for other names pass by. -/
theorem runAll_spelling (hz : Apart e.spelling z) (h : ∀ d ∈ es, ¬ Spelled d.name e.name) :
    runAll es (e.spelling ++ z) = e.spelling ++ runAll es z := by
  obtain ⟨s, hspelling, hs, hbegin⟩ := exists_spelling hz
  have hname := (spelled_self e.name).isWordChar e.isName
  rw [hspelling, List.append_assoc, runAll_word hname hbegin fun d hd hd' => h d hd hd'.1, runAll_signs hs.sign,
    List.append_assoc]

/-- The rule `b` takes what the rule `f` puts in, and puts back what was there. -/
structure Undoes (b f : WordRule) : Prop where
  there : f.text = b.spelling
  back : b.text = f.spelling
  ends : endsInWord f.text = false

/-- The rule is undone by a later one, and the others pass by what the two rules take. -/
def Undone (es : List WordRule) (f : WordRule) : Prop := ∃ l m b r, es = l ++ f :: (m ++ b :: r) ∧ Undoes b f ∧
  (∀ e ∈ l ++ r, ¬ Spelled e.name f.name) ∧ ∀ e ∈ m, ¬ Spelled e.name b.name

theorem Undone.runAll_spelling (h : Undone es f) (hz : Apart f.spelling z) :
    runAll es (f.spelling ++ z) = f.spelling ++ runAll es z := by
  obtain ⟨l, m, b, r, rfl, hundoes, hothers, hbetween⟩ := h
  have hbehind : ∀ {z'}, beginsInWord z' = beginsInWord z → Apart f.spelling z' := fun h hend => h.trans (hz hend)
  have hback : ∀ z', Apart b.spelling z' := fun z' => .of_ends (by rw [← hundoes.there, hundoes.ends]) z'
  simp only [runAll_append, runAll_cons]
  rw [WordRule.runAll_spelling hz fun e he => hothers e (List.mem_append_left r he),
    run_spelling (hbehind (beginsInWord_runAll l z)), hundoes.there, WordRule.runAll_spelling (hback _) hbetween,
    run_spelling (hback _), hundoes.back, WordRule.runAll_spelling _ fun e he => hothers e (List.mem_append_right l he)]
  exact hbehind (by rw [beginsInWord_run, beginsInWord_runAll, beginsInWord_run, beginsInWord_runAll])

/-- Rules that are undone wherever they take something leave the text alone. -/
theorem runAll_eq_self (h : ∀ e ∈ es, ∀ u w v, x = u ++ (w ++ v) → Matches e.pattern u w v →
    Undone es e ∧ w = e.spelling) : runAll es x = x := by
  induction x using words_induction with
  | nil => exact runAll_nil es
  | sign c y hc ih =>
    have hsign : ∀ d ∈ [c], Unicode.isWordChar d = false := by simpa using hc
    have hrest := ih fun e he u w v hsplit hmatch =>
      h e he (c :: u) w v (by rw [hsplit]; rfl) (matches_behind hmatch (hsplit ▸ apart_signs hsign y))
    rw [← List.singleton_append, runAll_signs hsign, hrest]
  | word w y hne hw hy ih =>
    have hrest := ih fun e he u w' v hsplit hmatch =>
      h e he (w ++ u) w' v (by rw [hsplit, List.append_assoc]) (matches_behind hmatch (hsplit ▸ .of_begins hy w))
    by_cases htakes : ∃ e ∈ es, e.Takes w y
    · obtain ⟨e, he, hspelled, s, z, rfl, hs⟩ := htakes
      have hmatch : Matches e.pattern [] (w ++ s) z := matches_pattern_iff.2 ⟨w, s, rfl, hspelled, hs, rfl, hy⟩
      obtain ⟨hundone, hspelling⟩ := h e he [] (w ++ s) z (by simp) hmatch
      rw [runAll_signs hs.sign] at hrest
      rw [← List.append_assoc, hspelling, hundone.runAll_spelling (hspelling ▸ apart_of_matches hmatch),
        List.append_cancel_left hrest]
    · rw [runAll_word hw hy fun e he hd => htakes ⟨e, he, hd⟩, hrest]

/-! ## Rules for the code of a query -/

theorem solid (e : WordRule) : Solid e.text := by
  refine solid_of_beginsInWord e.plain ?_
  rw [e.begins]

/-- A query under the rules of a list, from the first one to the last. -/
def edit (es : List WordRule) (sql : Text) : Text := es.foldl (fun sql e => replaceCode e.pattern e.text sql) sql

theorem recoded_run (e : WordRule) (x : Text) : Recoded x (e.run x) := by
  rw [run, pattern]
  split_ifs
  · exact recoded_emptyCall e.isName e.solid e.noDollar x
  · exact recoded_keyword e.isName e.solid e.noDollar x

theorem edit_append (l r : List WordRule) (sql : Text) : edit (l ++ r) sql = edit r (edit l sql) := List.foldl_append

theorem edit_eq_mapCode (es : List WordRule) (sql : Text) : edit es sql = mapCode (runAll es) sql := by
  induction es generalizing sql with
  | nil => exact (mapCode_of_segments fun _ _ _ => rfl).symm
  | cons e es ih => exact (ih _).trans (mapCode_mapCode e.recoded_run sql)

/-- Rules that are undone wherever they take something in the code leave the query alone. -/
theorem edit_eq_self {sql : Text} (h : ∀ s ∈ segments sql, s.kind = .code → ∀ e ∈ es, ∀ u w v,
    s.text = u ++ (w ++ v) → Matches e.pattern u w v → Undone es e ∧ w = e.spelling) : edit es sql = sql := by
  rw [edit_eq_mapCode]
  exact mapCode_of_segments fun s hs hcode => runAll_eq_self (h s hs hcode)

/-- Rules of which the code has no words, but for those that are undone, leave the query alone. -/
theorem edit_eq_self_of_pieces {sql : Text} (h : ∀ e ∈ es, ∀ q ∈ pieces (mask sql), Spelled e.name q →
    Undone es e ∧ e.call = false ∧ q = e.name) : edit es sql = sql := by
  refine edit_eq_self fun s hs hcode e he u w v hsplit hmatch => ?_
  obtain ⟨n, t, rfl, hn, ht, hu, hv⟩ := matches_pattern_iff.1 hmatch
  have hmem : n ∈ pieces (mask sql) := by
    rw [pieces_mask]
    refine List.mem_flatMap.2 ⟨s, hs, ?_⟩
    rw [masked_of_code hcode, hsplit, List.append_assoc, pieces_append (.of_ends hu _), pieces_append (.of_begins hv n),
      pieces_word (hn.ne_nil e.isName) (hn.isWordChar e.isName)]
    simp
  obtain ⟨hundone, hcall, rfl⟩ := h e he n hmem hn
  rw [Tail, hcall] at ht
  rw [spelling, hcall]
  exact ⟨hundone, congrArg _ ht⟩

/-- The pieces of the code that comes out are pieces of the code, or of what is put in. -/
theorem pieces_mask_replaceCode_subset (hend : endsInWord e.text = false) {sql q : Text}
    (hq : q ∈ pieces (mask (replaceCode e.pattern e.text sql))) : q ∈ pieces (mask sql) ∨ q ∈ pieces e.text := by
  have hq : q ∈ pieces (mask (mapCode e.run sql)) := hq
  rw [pieces_mask_mapCode e.recoded_run] at hq
  rw [pieces_mask]
  obtain ⟨s, hs, hq⟩ := List.mem_flatMap.1 hq
  split_ifs at hq with hcode
  · refine (pieces_run_subset hend hq).imp_left fun hq => List.mem_flatMap.2 ⟨s, hs, ?_⟩
    rwa [masked_of_code hcode]
  · exact .inl (List.mem_flatMap.2 ⟨s, hs, hq⟩)

end WordRule

/-! ## The words for the current time and for a new identifier -/

namespace ToTsql

def dateRule : WordRule := ⟨"SYSDATE", false, "GETDATE()", by decide, by decide, by decide, by decide⟩

def timestampRule : WordRule := ⟨"SYSTIMESTAMP", false, "SYSDATETIME()", by decide, by decide, by decide, by decide⟩

def guidRule : WordRule := ⟨"SYS_GUID", true, "NEWID()", by decide, by decide, by decide, by decide⟩

def wordRules : List WordRule := [dateRule, timestampRule, guidRule]

theorem currentDatetime_eq_edit (sql : Text) : currentDatetime sql = WordRule.edit wordRules sql := rfl

end ToTsql

namespace ToOracle

def dateRule : WordRule := ⟨"GETDATE", true, "SYSDATE", by decide, by decide, by decide, by decide⟩

def timestampRule : WordRule := ⟨"SYSDATETIME", true, "SYSTIMESTAMP", by decide, by decide, by decide, by decide⟩

def utcRule : WordRule :=
  ⟨"GETUTCDATE", true, "SYS_EXTRACT_UTC(SYSTIMESTAMP)", by decide, by decide, by decide, by decide⟩

def guidRule : WordRule := ⟨"NEWID", true, "SYS_GUID()", by decide, by decide, by decide, by decide⟩

def wordRules : List WordRule := [dateRule, timestampRule, utcRule, guidRule]

theorem currentDatetime_eq_edit (sql : Text) : currentDatetime sql = WordRule.edit wordRules sql := rfl

end ToOracle

open WordRule

/-- The words of Oracle come back. -/
theorem undone_wordRules : ∀ e ∈ ToTsql.wordRules, Undone (ToTsql.wordRules ++ ToOracle.wordRules) e := by
  have hdate : Undoes ToOracle.dateRule ToTsql.dateRule := ⟨rfl, rfl, by decide⟩
  have htimestamp : Undoes ToOracle.timestampRule ToTsql.timestampRule := ⟨rfl, rfl, by decide⟩
  have hguid : Undoes ToOracle.guidRule ToTsql.guidRule := ⟨rfl, rfl, by decide⟩
  intro e he
  rcases he with _ | ⟨_, _ | ⟨_, _ | ⟨_, ⟨⟩⟩⟩⟩
  · exact ⟨[], [ToTsql.timestampRule, ToTsql.guidRule], _,
      [ToOracle.timestampRule, ToOracle.utcRule, ToOracle.guidRule], rfl, hdate, by decide, by decide⟩
  · exact ⟨[ToTsql.dateRule], [ToTsql.guidRule, ToOracle.dateRule], _,
      [ToOracle.utcRule, ToOracle.guidRule], rfl, htimestamp, by decide, by decide⟩
  · exact ⟨[ToTsql.dateRule, ToTsql.timestampRule], [ToOracle.dateRule, ToOracle.timestampRule, ToOracle.utcRule], _,
      [], rfl, hguid, by decide, by decide⟩

/-! ## There and back -/

/-- The words of Oracle are spelled as usual in a text, and it has none of the calls of T-SQL. -/
structure UsualWords (x : Text) : Prop where
  date : ∀ m ∈ (keyword "SYSDATE").findAll x, m.text = "SYSDATE".toList
  timestamp : ∀ m ∈ (keyword "SYSTIMESTAMP").findAll x, m.text = "SYSTIMESTAMP".toList
  guid : ∀ m ∈ ToTsql.sysGuid.findAll x, m.text = "SYS_GUID()".toList
  calls : ∀ name ∈ ["GETDATE", "SYSDATETIME", "GETUTCDATE", "NEWID"], (ToOracle.emptyCall name.toList).findAll x = []

instance (x : Text) : Decidable (UsualWords x) :=
  decidable_of_iff (_ ∧ _ ∧ _ ∧ _)
    ⟨fun ⟨hd, ht, hg, hc⟩ => ⟨hd, ht, hg, hc⟩, fun h => ⟨h.date, h.timestamp, h.guid, h.calls⟩⟩

theorem UsualWords.undone {x u w v : Text} (h : UsualWords x) : ∀ e ∈ ToTsql.wordRules ++ ToOracle.wordRules,
    x = u ++ (w ++ v) → Matches e.pattern u w v →
      Undone (ToTsql.wordRules ++ ToOracle.wordRules) e ∧ w = e.spelling := by
  have hthere : ∀ e ∈ ToTsql.wordRules, ∀ m ∈ e.pattern.findAll x, m.text = e.spelling :=
    List.forall_mem_cons.2 ⟨h.date, List.forall_mem_cons.2 ⟨h.timestamp, List.forall_mem_cons.2 ⟨h.guid, by simp⟩⟩⟩
  have hback : ∀ e ∈ ToOracle.wordRules, e.pattern.findAll x = [] :=
    List.forall_mem_cons.2 ⟨h.calls "GETDATE" (by simp), List.forall_mem_cons.2 ⟨h.calls "SYSDATETIME" (by simp),
      List.forall_mem_cons.2 ⟨h.calls "GETUTCDATE" (by simp),
      List.forall_mem_cons.2 ⟨h.calls "NEWID" (by simp), by simp⟩⟩⟩⟩
  rintro e he rfl hmatch
  obtain ⟨m, hm, rfl⟩ := exists_mem_findAll hmatch
  rcases List.mem_append.1 he with he | he
  · exact ⟨undone_wordRules e he, hthere e he m hm⟩
  · simp [hback e he] at hm

/-- No word for the current time is left in the code. -/
theorem not_spelled_currentDatetime (sql : Text) : ∀ q ∈ pieces (mask (ToTsql.currentDatetime sql)),
    ¬ Spelled "SYSDATE".toList q ∧ ¬ Spelled "SYSTIMESTAMP".toList q := by
  have htexts : ∀ e ∈ ToTsql.wordRules, ∀ q ∈ pieces e.text,
      ¬ Spelled "SYSDATE".toList q ∧ ¬ Spelled "SYSTIMESTAMP".toList q := by decide
  intro q hq
  rcases pieces_mask_replaceCode_subset (e := ToTsql.guidRule) (by decide) hq with hq | hq
  · rcases mem_pieces_mask_replaceCode (by decide) (by decide) (by decide) (by decide) hq with ⟨hq, htimestamp⟩ | hq
    · rcases mem_pieces_mask_replaceCode (by decide) (by decide) (by decide) (by decide) hq with ⟨-, hdate⟩ | hq
      · exact ⟨hdate, htimestamp⟩
      · exact htexts ToTsql.dateRule (by simp [ToTsql.wordRules]) q hq
    · exact htexts ToTsql.timestampRule (by simp [ToTsql.wordRules]) q hq
  · exact htexts ToTsql.guidRule (by simp [ToTsql.wordRules]) q hq

/-- The words of Oracle for the current time and for a new identifier come back if they are spelled as usual, and the
code had no calls of T-SQL for them; no word for the current time is left on the way there. -/
theorem currentDatetime_roundTrip (sql : Text) :
    ((∀ s ∈ segments sql, s.kind = .code → UsualWords s.text) →
      ToOracle.currentDatetime (ToTsql.currentDatetime sql) = sql) ∧
    (keyword "SYSDATE").occursIn (mask (ToTsql.currentDatetime sql)) = false ∧
    (keyword "SYSTIMESTAMP").occursIn (mask (ToTsql.currentDatetime sql)) = false := by
  refine ⟨fun h => ?_, ?_, ?_⟩
  · rw [ToTsql.currentDatetime_eq_edit, ToOracle.currentDatetime_eq_edit, ← edit_append]
    exact edit_eq_self fun s hs hcode e he u w v hsplit => (h s hs hcode).undone e he hsplit
  · rw [Bool.eq_false_iff, ne_eq, occursIn_keyword_iff (by decide)]
    exact fun ⟨q, hq, hspelled⟩ => (not_spelled_currentDatetime sql q hq).1 hspelled
  · rw [Bool.eq_false_iff, ne_eq, occursIn_keyword_iff (by decide)]
    exact fun ⟨q, hq, hspelled⟩ => (not_spelled_currentDatetime sql q hq).2 hspelled

theorem currentDatetime_roundTrip_comment :
    ToOracle.currentDatetime (ToTsql.currentDatetime "SELECT SYSDATE -- SYS_GUID() SYS_GUID ()") =
      "SELECT SYSDATE -- SYS_GUID() SYS_GUID ()" := (currentDatetime_roundTrip _).1 (by decide +kernel)

end DialectBridge
