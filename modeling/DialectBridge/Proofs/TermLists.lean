import DialectBridge.ToTsql.Words
import DialectBridge.Proofs.MissingWords
import DialectBridge.Proofs.Vocabulary
/-!
# Editing a list of terms

A query that lists good terms still does so when calls, words and operators are replaced
(`Lists.replaceCalls`, `Lists.replaceWord`, `Lists.concatenation`). A name that has been replaced is
missing from the code of the query (`Lists.spares`).
-/
namespace DialectBridge.ToTsql
open Pattern LexState

/-- The texts between operands: only one of them has bars, as long as there are bars. -/
def IsLinkOf (bars : Bool) (g : Text) : Prop := '|' ∉ g ∨ bars = true ∧ g = " || ".toList

/-- A good term without the names of `gone`. -/
abbrev IsTerm (bars : Bool) (gone : List String) : Term → Prop :=
  Good reservedNames (HasName gone) (IsLinkOf bars)

/-- The query is a list of good terms without the names of `gone`, and has `rest` behind it. -/
def Lists (bars : Bool) (gone : List String) (rest sql : Text) : Prop :=
  ∃ ts : List Term, (∀ t ∈ ts, IsTerm bars gone t) ∧ sql = selectText (ts.map Term.text) rest

/-- What stands behind the list: no rule for calls, words and operators finds anything in it. -/
structure IsTail (rest : Text) : Prop extends IsRest rest where
  spares : Spares listNames rest
  unbarred : '|' ∉ rest
  unescaped : '&' ∉ rest

section
variable {σ : Type} {bars : Bool} {gone gone' : List String} {rest sql : Text} {name : String}

/-! ## Calls -/

theorem select_spared : ∀ n ∈ reservedNames, ¬ Spelled n.toList "SELECT".toList := by decide

/-- Replacing the calls of a function takes its name away. -/
theorem Lists.replaceCalls {f : Call → Editing σ (Option Text)} (F : List Term → Term)
    (hname : name ∈ calledFunctions) (hrest : IsTail rest)
    (hF : ∀ args : List Term, arity name args.length = true → (∀ a ∈ args, IsTerm bars (name :: gone) a) →
      IsTerm bars (name :: gone) (F args) ∧ ∀ call : Call,
        call.inner = Text.join [',', ' '] (args.map Term.text) → call.args = args.map Term.text →
          f call = pure (some (F args).text))
    (h : Lists bars gone rest sql) :
    Yields (DialectBridge.replaceCalls sql name f) (Lists bars (name :: gone) rest) := by
  have hres := mem_reservedNames (mem_listNames_of_called hname)
  obtain ⟨ts, hts, rfl⟩ := h
  have hswept : ∀ t ∈ ts, Swept name.toList (fun call => do return (← f call).map fun r => (r, 0)) t.text
      (t.mapCalls name F).text ∧ IsTerm bars (name :: gone) (t.mapCalls name F) := fun t ht =>
    (hts t ht).swept (isName_reservedNames name hres) ⟨name, hres, rfl⟩
      (fun n k hk hn => ⟨(hk.eq_of_spelled hres hn).1, (hk.eq_of_spelled hres hn).2.2 hname⟩)
      (fun n k hk hne => hk.of_ne hne)
      fun args _ hk hargs => by
        obtain ⟨hgood, hf⟩ := hF args (hk.arity hres) hargs
        exact ⟨hgood, fun call hinner hcall => by rw [hf call hinner hcall]; rfl⟩
  have hall : List.Forall₂ (Swept name.toList fun call => do return (← f call).map fun r => (r, 0))
      (ts.map Term.text) ((ts.map (Term.mapCalls name F)).map Term.text) := by
    rw [List.map_map, List.forall₂_map_left_iff, List.forall₂_map_right_iff, List.forall₂_same]
    exact fun t ht => (hswept t ht).1
  refine ⟨_, ?_, ts.map (Term.mapCalls name F), by simpa using fun t ht => (hswept t ht).2, rfl⟩
  rw [replaceCalls_selectText (isName_reservedNames name hres) (select_spared name hres) hrest.toIsRest
    (fun p hp => hrest.spares p hp name (mem_listNames_of_called hname)) hall]
  exact gives_pure _

/-- Renaming a function takes its old name away. -/
theorem Lists.renameCalls (new : String) (hname : name ∈ calledFunctions) (hrest : IsTail rest)
    (hnew : isName new.toList = true) (hleft : new ∉ name :: gone)
    (harity : ∀ k, arity name k = true → k ≠ 0 ∧ arity new k = true) (h : Lists bars gone rest sql) :
    Yields (DialectBridge.renameCalls sql name new : Editing σ Text) (Lists bars (name :: gone) rest) := by
  refine h.replaceCalls (fun args => .call new.toList args) hname hrest fun args hk hargs => ?_
  obtain ⟨hne, hk⟩ := harity _ hk
  refine ⟨.call (isWord_of_isName hnew) (by simpa using hne) (hasName_of_arity hk hleft) hargs, ?_⟩
  intro call hinner _
  rw [hinner, Term.text_call]
  simp [callText]

/-! ## Names that are missing -/

theorem live_of_isTerm {ts : List Term} (hts : ∀ t ∈ ts, IsTerm bars gone t) :
    ∀ t ∈ ts.map Term.text, (code.after t).live = true := by
  simpa using fun t ht => (hts t ht).operand.live

/-- Names that no term has are not in the code of the query. -/
theorem spares_selectText {names : List String} {ts : List Term} (hnames : names ⊆ reservedNames)
    (hmissing : ∀ n ∈ names, Missing gone n) (hrest : IsRest rest) (hspared : Spares names rest)
    (hts : ∀ t ∈ ts, IsTerm bars gone t) : Spares names (mask (selectText (ts.map Term.text) rest)) := by
  intro p hp n hn
  have hres := hnames hn
  have hpunct : ∀ c : Char, Unicode.isWordChar c = false → ¬ Spelled n.toList [c] := fun c hc =>
    not_spelled_singleton (isName_reservedNames n hres) hc
  rw [mask_selectText hrest (live_of_isTerm hts), pieces_selectText hrest, List.mem_append, List.mem_append] at hp
  rcases hp with hp | hp | hp
  · have hpieces : pieces listHead = ["SELECT".toList, [' ']] := by decide
    rw [hpieces, List.mem_cons, List.mem_singleton] at hp
    rcases hp with rfl | rfl
    · exact select_spared n hres
    · exact hpunct ' ' (by decide)
  · rcases mem_pieces_join hp with ⟨u, hu, hp⟩ | rfl | rfl
    · simp only [List.map_map, List.mem_map, Function.comp_apply] at hu
      obtain ⟨t, ht, rfl⟩ := hu
      rcases (hts t ht).mem_pieces isName_reservedNames p hp with ⟨k, hk⟩ | hp
      · exact hk.not_spelled hres (hmissing n hn)
      · exact hp n hres
    · exact hpunct ',' (by decide)
    · exact hpunct ' ' (by decide)
  · exact hspared p hp n hn

/-- Nothing in a list of good terms needs to be decoded. -/
theorem unescaped_selectText {ts : List Term} (hts : ∀ t ∈ ts, IsTerm bars gone t) (hrest : '&' ∉ rest) :
    '&' ∉ selectText (ts.map Term.text) rest := by
  intro hc
  rcases mem_selectText hc with ⟨u, hu, hc⟩ | hc | hc
  · obtain ⟨t, ht, rfl⟩ := List.mem_map.1 hu
    exact (hts t ht).unescaped hc
  · exact hrest hc
  · exact absurd hc (by decide)

theorem Lists.spares (hname : name ∈ listNames) (hmissing : Missing gone name) (hrest : IsTail rest)
    (h : Lists bars gone rest sql) : Spares [name] (mask sql) := by
  obtain ⟨ts, hts, rfl⟩ := h
  have hsub : [name] ⊆ listNames := by simpa using hname
  exact spares_selectText (fun n hn => mem_reservedNames (hsub hn)) (by simpa using hmissing) hrest.toIsRest
    (hrest.spares.mono hsub) hts

/-- The calls of a function whose name is missing are not looked at. -/
theorem replaceCallsWithTail_of_spares {f : Call → Editing σ (Option (Text × Nat))}
    (hname : isName name.toList = true) (h : Spares [name] (mask sql)) :
    replaceCallsWithTail sql name f = pure sql := by
  refine replaceCallsBefore_of_none (List.find?_eq_none.2 fun m hm => ?_)
  obtain ⟨u, n, b, v, hat⟩ := exists_headAt hname (List.mem_reverse.1 hm)
  have hbehind : beginsInWord (b ++ '(' :: v) = false := beginsInWord_blanks hat.blank rfl
  have hmem : n ∈ pieces (mask sql) := by
    rw [hat.split, pieces_append (.of_ends hat.left _), pieces_append (.of_begins hbehind n),
      pieces_word (hat.spelled.ne_nil hname) (hat.spelled.isWordChar hname)]
    simp
  exact absurd hat.spelled (h n hmem name (by simp))

theorem replaceCalls_of_spares {f : Call → Editing σ (Option Text)} (hname : isName name.toList = true)
    (h : Spares [name] (mask sql)) : DialectBridge.replaceCalls sql name f = pure sql :=
  replaceCallsWithTail_of_spares hname h

/-! ## Words and operators -/

theorem editsWords_keyword {r : Text} (hname : isName name.toList = true) (hr : '$' ∉ r) :
    EditsWords ((keyword name).replaceAll r) := by
  constructor
  · intro x y h
    simp only [replaceAll_keyword hname hr]
    exact respell_append h.apart
  · intro c hc
    have hword : Unicode.isWordChar c = false := by
      simp only [List.mem_cons, List.not_mem_nil, or_false] at hc
      rcases hc with rfl | rfl | rfl | rfl <;> decide
    rw [replaceAll_keyword hname hr]
    refine respell_eq_self fun q hq => ?_
    rw [pieces_cons_of_not_word hword, pieces_nil, List.mem_singleton] at hq
    rw [hq]
    exact not_spelled_singleton hname hword

/-- An edit of words and operators goes through the list. -/
theorem Lists.mapCode {bars' : Bool} {f : Text → Text} (hf : EditsWords f) (hselect : f listHead = listHead)
    (hrest : IsTail rest) (hid : f rest = rest)
    (hcall : ∀ n k, IsWord n → HasName gone n k → k ≠ 0 → f n = n ∧ HasName gone' n k)
    (hword : ∀ n, IsWord n → HasName gone n 0 →
      (f n = n ∧ HasName gone' n 0) ∨ (f n ≠ n ∧ IsAtom reservedNames (f n)))
    (hatom : ∀ u, IsAtom reservedNames u → DialectBridge.mapCode f u = u)
    (hlink : ∀ g, IsLink reservedNames g → IsLinkOf bars g → IsLink reservedNames (f g) ∧ IsLinkOf bars' (f g))
    (h : Lists bars gone rest sql) : Lists bars' gone' rest (DialectBridge.mapCode f sql) := by
  obtain ⟨ts, hts, rfl⟩ := h
  have hmap := fun t ht => (hts t ht).mapLeaves hf hcall hword hatom hlink
  have htext : ts.map (DialectBridge.mapCode f ∘ Term.text) = ts.map (Term.text ∘ Term.mapLeaves f) :=
    List.map_congr_left fun t ht => (hmap t ht).1
  refine ⟨ts.map (Term.mapLeaves f), by simpa using fun t ht => (hmap t ht).2, ?_⟩
  rw [hf.mapCode_selectText hrest.toIsRest hselect hid (live_of_isTerm hts), List.map_map, List.map_map, htext]

/-- Replacing a word takes it away. -/
theorem Lists.replaceWord (name : String) (hname : name ∈ soughtWords) {r : Text}
    (hword : ∀ k, arity name k = true → k = 0) (hr : '$' ∉ r) (hatom : IsAtom reservedNames r) (hne : r ≠ name.toList)
    (hrest : IsTail rest) (h : Lists bars gone rest sql) :
    Lists bars (name :: gone) rest (replaceCode (keyword name) r sql) := by
  have hlist := mem_listNames_of_sought hname
  have hres := mem_reservedNames hlist
  have hisName := isName_reservedNames name hres
  have hself : ∀ x : Text, (∀ q ∈ pieces x, ¬ Spelled name.toList q) → (keyword name).replaceAll r x = x :=
    fun x hx => by
      rw [replaceAll_keyword hisName hr]
      exact respell_eq_self hx
  have hkeep : ∀ n k, IsWord n → HasName gone n k → n ≠ name.toList →
      (keyword name).replaceAll r n = n ∧ HasName (name :: gone) n k := fun n k hn hk hne => by
    refine ⟨hself n fun q hq hspelled => hne ?_, hk.of_ne hne⟩
    rw [pieces_word hn.ne_nil hn.chars, List.mem_singleton] at hq
    exact (hk.eq_of_spelled hres (hq ▸ hspelled)).1
  refine h.mapCode (editsWords_keyword hisName hr) (hself _ ?_) hrest (hself _ fun q hq => hrest.spares q hq name hlist)
    ?_ ?_ (fun u hu => replaceCode_eq_self hisName hr fun q hq => hu.spares q hq name hres) ?_
  · have hpieces : pieces listHead = ["SELECT".toList, [' ']] := by decide
    rw [hpieces]
    simpa using ⟨select_spared name hres, not_spelled_singleton hisName (by decide)⟩
  · intro n k hn hk hk0
    by_cases heq : n = name.toList
    · exact absurd (hword k ((heq ▸ hk).arity hres)) hk0
    · exact hkeep n k hn hk heq
  · intro n hn hk
    by_cases heq : n = name.toList
    · refine .inr ?_
      rw [heq, replaceAll_keyword hisName hr, respell_of_spelled hisName (spelled_self _)]
      exact ⟨hne, hatom⟩
    · exact .inl (hkeep n 0 hn hk heq)
  · intro g hg hlink
    rw [hself g fun q hq => hg.spares q hq name hres]
    exact ⟨hg, hlink⟩

theorem isPrefixOf_bars (c : Char) (t : Text) :
    "||".toList.isPrefixOf (c :: t) = (c == '|' && t.head? == some '|') := by
  have hbars : "||".toList = ['|', '|'] := rfl
  cases t with
  | nil => simp [hbars, List.isPrefixOf]
  | cons d t => simp [hbars, List.isPrefixOf, Bool.beq_comm (b := '|')]

/-- Bars are not looked for across a cut. -/
theorem replaceFrom_bars {x y : Text} {skip : Nat} (hskip : skip ≤ x.length) (h : x = [] ∨ Cut x y) :
    Text.replaceFrom "||" "+" skip (x ++ y) =
      Text.replaceFrom "||" "+" skip x ++ Text.replaceFrom "||" "+" 0 y := by
  induction x generalizing skip with
  | nil =>
    obtain rfl : skip = 0 := by simpa using hskip
    rfl
  | cons c x ih =>
    have hcut : x = [] ∨ Cut x y := by
      refine or_iff_not_imp_left.2 fun hne => ?_
      obtain ⟨d, x, rfl⟩ := List.exists_cons_of_ne_nil hne
      simpa [Cut, List.getLast?_cons_cons] using h
    cases skip with
    | succ skip => exact ih (by simpa using hskip) hcut
    | zero =>
      have hprefix : "||".toList.isPrefixOf (c :: (x ++ y)) = "||".toList.isPrefixOf (c :: x) := by
        rw [isPrefixOf_bars, isPrefixOf_bars]
        cases x with
        | cons d x => rfl
        | nil =>
          rcases h.resolve_left (by simp) with ⟨d, hd, hbreak⟩ | ⟨d, hd, hbreak⟩
          · obtain rfl : c = d := by simpa using hd
            have hc : (c == '|') = false := by simpa using (by simpa [isBreak] using hbreak : _ ∧ c ≠ '|').2
            simp [hc]
          · obtain ⟨y, rfl⟩ := List.head?_eq_some_iff.1 hd
            have hd : d ≠ '|' := (by simpa [isBreak] using hbreak : _ ∧ d ≠ '|').2
            simp [hd]
      rw [List.cons_append, Text.replaceFrom, Text.replaceFrom, hprefix]
      split_ifs with hbars
      · rw [isPrefixOf_bars, Bool.and_eq_true] at hbars
        have hone : 1 ≤ x.length := by
          cases x with
          | nil => simp at hbars
          | cons d x => simp
        exact congrArg _ (ih hone hcut)
      · exact congrArg _ (ih (Nat.zero_le _) hcut)

theorem replaceAll_bars_eq_self {x : Text} (h : '|' ∉ x) : Text.replaceAll "||" "+" x = x := by
  induction x with
  | nil => rfl
  | cons c x ih =>
    have hc : (c == '|') = false := by simpa using fun heq : c = '|' => h (by simp [heq])
    have ih := ih fun hmem => h (List.mem_cons_of_mem c hmem)
    rw [Text.replaceAll] at ih ⊢
    rw [Text.replaceFrom, isPrefixOf_bars, hc]
    simpa using ih

theorem editsWords_bars : EditsWords (Text.replaceAll "||" "+") where
  separable _ _ h := replaceFrom_bars (Nat.zero_le _) (.inr h)
  punctuation := by decide

/-- After the concatenations no bars are left. -/
theorem Lists.concatenation (hrest : IsTail rest) (h : Lists true gone rest sql) :
    Lists false gone rest (ToTsql.concatenation sql) := by
  have hword : ∀ n : Text, IsWord n → Text.replaceAll "||" "+" n = n := fun n hn =>
    replaceAll_bars_eq_self fun hmem => absurd (hn.chars _ hmem) (by decide)
  refine h.mapCode editsWords_bars (by decide) hrest (replaceAll_bars_eq_self hrest.unbarred)
    (fun n k hn hk _ => ⟨hword n hn, hk⟩) (fun n hn hk => .inl ⟨hword n hn, hk⟩) (fun u hu => ?_) ?_
  · refine mapCode_eq_self fun x hx => replaceAll_bars_eq_self fun hmem => hu.unbarred ?_
    rw [← flatten_pieces x, List.mem_flatten] at hmem
    obtain ⟨q, hq, hmem⟩ := hmem
    rw [← flatten_pieces (mask u)]
    exact List.mem_flatten_of_mem (hx q hq) hmem
  · rintro g hg (hnone | ⟨-, rfl⟩)
    · rw [replaceAll_bars_eq_self hnone]
      exact ⟨hg, .inl hnone⟩
    · exact ⟨by decide, .inl (by decide)⟩

end

end DialectBridge.ToTsql
