import DialectBridge.Proofs.Terms
/-!
# Editing terms

The rules work on the text of a good term as they would on the tree: calls are replaced in the tree
(`Good.swept`), and so are words and the texts between operands (`Good.mapLeaves`). What holds of a term
holds of the list of a query (`replaceCalls_selectText`, `mapCode_selectText`).
-/
namespace DialectBridge
open Pattern LexState

/-! ## Calls -/

section
variable {σ : Type} {name : Text} {f : Call → Editing σ (Option (Text × Nat))}

/-- A word other than the name is left alone. -/
theorem Swept.word {w : Text} (hname : isName name = true) (hw : IsWord w) (hne : ¬ Spelled name w) :
    Swept name f w w := by
  refine .self hname (operand_word hw) fun p hp => ?_
  rw [pieces_mask_word hw, List.mem_singleton] at hp
  rwa [hp]

/-- Two operands with text between them are replaced one after the other. -/
theorem Swept.linked {reserved : List String} {t t' g u u' : Text} (hname : isName name = true)
    (ht : Swept name f t t') (hg : IsLink reserved g) (hp : ∀ p ∈ pieces g, ¬ Spelled name p)
    (hu : Swept name f u u') : Swept name f (t ++ (g ++ u)) (t' ++ (g ++ u')) := by
  refine ⟨operand_linked ht.before hg hu.before, operand_linked ht.after hg hu.after, ?_⟩
  intro a b ha hb
  have hlive : (code.after (a ++ t)).live = true := by
    rw [after_append, ha.code]
    exact ht.before.live
  have hfront : Front (a ++ t ++ g) := .of_plain hlive hg.plain hg.ne_nil hg.endsInWord
  rw [← List.append_assoc, ← List.append_assoc, hu.settles _ b hfront hb,
    sweep_plain hname hlive hg.plain hg.ne_nil (.of_ends hg.endsInWord _) hp,
    ht.settles a _ ha (.of_plain hg.plain hg.ne_nil hg.beginsInWord _)]
  simp

variable {reserved : List String} {names names' : Text → Nat → Prop} {links : Text → Prop}
variable {F : List Term → Term} {t : Term}

/-- The calls of `name` in the text of a good term are replaced as in the tree. -/
theorem Good.swept (hname : isName name = true) (hreserved : ∃ n ∈ reserved, n.toList = name)
    (hspelled : ∀ n k, names n k → Spelled name n → n = name ∧ k ≠ 0)
    (hkept : ∀ n k, names n k → n ≠ name → names' n k)
    (hF : ∀ args, args ≠ [] → names name args.length → (∀ a ∈ args, Good reserved names' links a) →
      Good reserved names' links (F args) ∧ ∀ call : Call,
        call.inner = Text.join [',', ' '] (args.map Term.text) → call.args = args.map Term.text →
          f call = pure (some ((F args).text, 0)))
    (h : Good reserved names links t) :
    Swept name f t.text (t.mapCalls name F).text ∧ Good reserved names' links (t.mapCalls name F) := by
  obtain ⟨n₀, hn₀, rfl⟩ := hreserved
  induction h with
  | @word n hn hk =>
    have hne : ¬ Spelled n₀.toList n := fun h => (hspelled n 0 hk h).2 rfl
    have hkeep : n ≠ n₀.toList := fun h => hne (h ▸ spelled_self n)
    rw [Term.mapCalls, Term.text_word]
    exact ⟨.word hname hn hne, .word hn (hkept n 0 hk hkeep)⟩
  | @atom u hu =>
    rw [Term.mapCalls, Term.text_atom]
    exact ⟨.self hname hu.operand fun p hp => hu.spares p hp n₀ hn₀, .atom hu⟩
  | @call n args hn hne hk hargs ih =>
    have hswept : List.Forall₂ (Swept n₀.toList f) (args.map Term.text)
        ((args.map (Term.mapCalls n₀.toList F)).map Term.text) := by
      rw [List.map_map, List.forall₂_map_left_iff, List.forall₂_map_right_iff, List.forall₂_same]
      exact fun a ha => (ih a ha).1
    have hgood : ∀ a ∈ args.map (Term.mapCalls n₀.toList F), Good reserved names' links a := by
      simpa using fun a ha => (ih a ha).2
    rw [Term.mapCalls, Term.text_call]
    split_ifs with hn'
    · obtain ⟨hr, hf⟩ := hF _ (by simpa using hne) (by simpa [hn'] using hk) hgood
      exact ⟨.call hname (hn' ▸ spelled_self n) (by simpa using hne) hswept hr.operand hf, hr⟩
    · refine ⟨?_, .call hn (by simpa using hne) (by simpa using hkept n _ hk hn') hgood⟩
      rw [Term.text_call]
      exact .call_of_ne hname hn (fun h => hn' (hspelled n _ hk h).1) hswept
  | @linked l r g hl hg hlink hr ihl ihr =>
    rw [Term.mapCalls, Term.text_linked, Term.text_linked]
    exact ⟨.linked hname ihl.1 hg (fun p hp => hg.spares p hp n₀ hn₀) ihr.1,
      .linked ihl.2 hg hlink ihr.2⟩

end

/-! ## Words and operators -/

/-- A character that belongs to no word and to no operator. -/
def isBreak (c : Char) : Bool := !Unicode.isWordChar c && c != '|'

/-- A cut at a character that belongs to no word and to no operator. -/
def Cut (a b : Text) : Prop := (∃ c ∈ a.getLast?, isBreak c = true) ∨ ∃ c ∈ b.head?, isBreak c = true

/-- An edit of words and operators: it leaves the punctuation of calls alone. -/
structure EditsWords (f : Text → Text) : Prop where
  separable : ∀ x y, Cut x y → f (x ++ y) = f x ++ f y
  punctuation : ∀ c ∈ ['(', ')', ',', ' '], f [c] = [c]

section
variable {f : Text → Text} {a b g : Text}

theorem Cut.of_begins {c : Char} (hc : isBreak c = true) (a b : Text) : Cut a (c :: b) :=
  .inr ⟨c, rfl, hc⟩

theorem Cut.of_ends {c : Char} (hc : isBreak c = true) (a b : Text) : Cut (a ++ [c]) b :=
  .inl ⟨c, by simp, hc⟩

theorem Cut.of_singleton {c : Char} (hc : isBreak c = true) (b : Text) : Cut [c] b := .of_ends hc [] b

theorem isBreak_of_isBlank {c : Char} (h : Unicode.isBlank c = true) : isBreak c = true := by
  have hbar : c ≠ '|' := by
    rintro rfl
    exact absurd h (by decide)
  simp [isBreak, isWordChar_of_isBlank h, hbar]

theorem Cut.apart (h : Cut a b) : Apart a b := by
  rcases h with ⟨c, hc, hbreak⟩ | ⟨c, hc, hbreak⟩
  · obtain ⟨a, rfl⟩ := List.getLast?_eq_some_iff.1 hc
    refine .of_ends ?_ b
    rw [endsInWord_append (by simp), endsInWord_singleton]
    simp only [isBreak, Bool.and_eq_true, Bool.not_eq_true'] at hbreak
    exact hbreak.1
  · obtain ⟨b, rfl⟩ := List.head?_eq_some_iff.1 hc
    refine .of_begins ?_ a
    simp only [isBreak, Bool.and_eq_true, Bool.not_eq_true'] at hbreak
    exact hbreak.1

theorem EditsWords.mapCode_append (hf : EditsWords f) (hj : (code.after a).joins b = true) (h : Cut a b) :
    mapCode f (a ++ b) = mapCode f a ++ mapCode f b := by
  refine DialectBridge.mapCode_append hj fun x' x y y' ha hb hx hy => hf.separable x y ?_
  rcases h with ⟨c, hc, hbreak⟩ | ⟨c, hc, hbreak⟩
  · rw [ha, List.getLast?_append_of_ne_nil _ hx] at hc
    exact .inl ⟨c, hc, hbreak⟩
  · rw [hb, List.head?_append_of_ne_nil _ hy] at hc
    exact .inr ⟨c, hc, hbreak⟩

/-- Plain text between two cuts is edited on its own. -/
theorem EditsWords.mapCode_between (hf : EditsWords f) (ha : (code.after a).live = true)
    (hg : ∀ c ∈ g, isPlain c = true) (hne : g ≠ []) (hbegin : Cut a (g ++ b)) (hend : Cut g b) :
    mapCode f (a ++ (g ++ b)) = mapCode f a ++ (f g ++ mapCode f b) := by
  have hcode : (code.after g).joins b = true := by
    rw [after_of_all_isPlain rfl hg hne]
    exact joins_code b
  rw [hf.mapCode_append (mask_cut ha hg hne) hbegin, hf.mapCode_append hcode hend,
    mapCode_of_all_isPlain hg hne]

theorem mapCode_nil (f : Text → Text) : mapCode f [] = [] := by
  simp [mapCode, mapSegments, segments]

theorem EditsWords.mapCode_join (hf : EditsWords f) {ts : List Text}
    (h : ∀ t ∈ ts, (code.after t).live = true) :
    mapCode f (Text.join [',', ' '] ts) = Text.join [',', ' '] (ts.map (mapCode f)) := by
  have hcomma : f [',', ' '] = [',', ' '] := by
    have hsplit := hf.separable [','] [' '] (.of_begins (by decide) _ _)
    rwa [hf.punctuation ',' (by simp), hf.punctuation ' ' (by simp)] at hsplit
  induction ts with
  | nil => simp [Text.join, List.intercalate, mapCode_nil]
  | cons t ts ih =>
    by_cases hnil : ts = []
    · simp [hnil, Text.join, List.intercalate]
    have hend : Cut [',', ' '] (Text.join [',', ' '] ts) := .of_ends (by decide) [','] _
    rw [Text.join_cons hnil, List.map_cons, Text.join_cons (by simpa using hnil), List.append_assoc,
      hf.mapCode_between (h t (by simp)) (by decide) (by simp) (.of_begins (by decide) _ _) hend, hcomma,
      ih fun u hu => h u (by simp [hu]), List.append_assoc]

theorem EditsWords.mapCode_callText (hf : EditsWords f) {n : Text} {args : List Text} (hn : IsWord n)
    (hargs : ∀ t ∈ args, (code.after t).live = true) :
    mapCode f (callText n args) = callText (f n) (args.map (mapCode f)) := by
  have hplain : ∀ c ∈ n, isPlain c = true := fun c hc => isPlain_of_isWordChar (hn.chars c hc)
  have hlive : (code.after n).live = true := by
    rw [after_of_all_isPlain rfl hplain hn.ne_nil]
    rfl
  have hsplit : callText n args = n ++ (['('] ++ (Text.join [',', ' '] args ++ ([')'] ++ []))) := by
    simp [callText]
  rw [hsplit, hf.mapCode_between hlive (by decide) (by simp) (.of_begins (by decide) _ _)
      (.of_singleton (by decide) _),
    hf.mapCode_between (mask_join hargs).2 (by decide) (by simp) (.of_begins (by decide) _ _)
      (.of_singleton (by decide) _),
    hf.punctuation '(' (by simp), hf.punctuation ')' (by simp), mapCode_of_all_isPlain hplain hn.ne_nil,
    hf.mapCode_join hargs, mapCode_nil]
  simp [callText]

variable {reserved : List String} {names names' : Text → Nat → Prop} {links links' : Text → Prop} {t : Term}

/-- Words and the texts between operands in the text of a good term are edited as in the tree. -/
theorem Good.mapLeaves (hf : EditsWords f) (hcall : ∀ n k, IsWord n → names n k → k ≠ 0 → f n = n ∧ names' n k)
    (hword : ∀ n, IsWord n → names n 0 → (f n = n ∧ names' n 0) ∨ (f n ≠ n ∧ IsAtom reserved (f n)))
    (hatom : ∀ u, IsAtom reserved u → mapCode f u = u)
    (hlink : ∀ g, IsLink reserved g → links g → IsLink reserved (f g) ∧ links' (f g))
    (h : Good reserved names links t) :
    mapCode f t.text = (t.mapLeaves f).text ∧ Good reserved names' links' (t.mapLeaves f) := by
  induction h with
  | @word n hn hk =>
    rw [Term.mapLeaves, Term.text_word,
      mapCode_of_all_isPlain (fun c hc => isPlain_of_isWordChar (hn.chars c hc)) hn.ne_nil]
    rcases hword n hn hk with ⟨hid, hk'⟩ | ⟨hnew, hatom⟩
    · rw [if_pos hid, Term.text_word]
      exact ⟨hid, .word hn hk'⟩
    · rw [if_neg hnew, Term.text_atom]
      exact ⟨rfl, .atom hatom⟩
  | @atom u hu =>
    rw [Term.mapLeaves, Term.text_atom]
    exact ⟨hatom u hu, .atom hu⟩
  | @call n args hn hne hk hargs ih =>
    obtain ⟨hid, hk'⟩ := hcall n _ hn hk (by simpa using hne)
    have hlive : ∀ u ∈ args.map Term.text, (code.after u).live = true := by
      simpa using fun a ha => (hargs a ha).operand.live
    have hmap : args.map (mapCode f ∘ Term.text) = args.map (Term.text ∘ Term.mapLeaves f) :=
      List.map_congr_left fun a ha => (ih a ha).1
    rw [Term.mapLeaves, Term.text_call, Term.text_call, hf.mapCode_callText hn hlive, hid, List.map_map,
      List.map_map, hmap]
    exact ⟨rfl, .call hn (by simpa using hne) (by simpa using hk') (by simpa using fun a ha => (ih a ha).2)⟩
  | @linked l r g hl hg hlinks hr ihl ihr =>
    obtain ⟨hg', hlinks'⟩ := hlink g hg hlinks
    have hbegin : Cut l.text (g ++ r.text) := by
      obtain ⟨c, g, rfl⟩ := List.exists_cons_of_ne_nil hg.ne_nil
      exact .of_begins (isBreak_of_isBlank (hg.begins c rfl)) _ _
    have hend : Cut g r.text := by
      obtain ⟨g', c, rfl⟩ := (List.eq_nil_or_concat g).resolve_left hg.ne_nil
      rw [List.concat_eq_append] at hg ⊢
      exact .of_ends (isBreak_of_isBlank (hg.ends c (by simp))) _ _
    rw [Term.mapLeaves, Term.text_linked, Term.text_linked,
      hf.mapCode_between hl.operand.live hg.plain hg.ne_nil hbegin hend, ihl.1, ihr.1]
    exact ⟨rfl, .linked ihl.2 hg' hlinks' ihr.2⟩

end

/-! ## The list of a query -/

/-- What stands in front of the list of a query. -/
def listHead : Text := "SELECT "

/-- The text of a query: its list, and what stands behind it. -/
def selectText (items : List Text) (rest : Text) : Text :=
  listHead ++ (Text.join [',', ' '] items ++ rest)

/-- A text that can stand behind the list of a query. -/
structure IsRest (rest : Text) : Prop where
  ne_nil : rest ≠ []
  plain : ∀ c ∈ rest, isPlain c = true
  begins : ∀ c ∈ rest.head?, Unicode.isBlank c = true

section
variable {rest : Text} {items items' : List Text}

theorem IsRest.cut (h : IsRest rest) (a : Text) : Cut a rest := by
  obtain ⟨c, rest, rfl⟩ := List.exists_cons_of_ne_nil h.ne_nil
  exact .of_begins (isBreak_of_isBlank (h.begins c rfl)) _ _

theorem after_select : code.after listHead = code := by decide

theorem mask_selectText (h : IsRest rest) (hitems : ∀ t ∈ items, (code.after t).live = true) :
    mask (selectText items rest) = selectText (items.map mask) rest := by
  obtain ⟨hmask, hlive⟩ := mask_join hitems
  have htail := mask_plain_between (b := []) hlive h.plain h.ne_nil
  rw [List.append_nil, mask_nil, List.append_nil] at htail
  rw [selectText, mask_plain_append (by decide), htail, hmask, selectText]

theorem live_selectText (h : IsRest rest) (hitems : ∀ t ∈ items, (code.after t).live = true) :
    (code.after (selectText items rest)).live = true := by
  rw [selectText, after_append, after_select, after_append,
    after_of_all_isPlain (mask_join hitems).2 h.plain h.ne_nil]
  rfl

/-- The parentheses of a query are closed if those behind its list are. -/
theorem nest_selectText (h : IsRest rest) (hitems : ∀ t ∈ items, Operand t) (hnest : nest 0 rest = some 0) :
    nest 0 (mask (selectText items rest)) = some 0 := by
  have hhead : nest 0 listHead = some 0 := by decide
  have hlist : nest 0 (Text.join [',', ' '] (items.map mask)) = some 0 :=
    nest_join <| by simpa using fun t ht => (hitems t ht).nested
  rw [mask_selectText h fun t ht => (hitems t ht).live, selectText, nest_append, hhead, Option.bind_some,
    nest_append, hlist, Option.bind_some, hnest]

theorem pieces_selectText (h : IsRest rest) :
    pieces (selectText items rest) =
      pieces listHead ++ (pieces (Text.join [',', ' '] items) ++ pieces rest) := by
  rw [selectText, pieces_append (.of_ends (by decide) _), pieces_append (h.cut _).apart]

/-- A query begins in its `SELECT`. -/
theorem exists_select (h : IsRest rest) (hitems : ∀ t ∈ items, (code.after t).live = true) :
    ∃ p ∈ pieces (mask (selectText items rest)), Spelled "SELECT".toList p := by
  have hhead : pieces listHead = ["SELECT".toList, [' ']] := by decide
  refine ⟨"SELECT".toList, ?_, spelled_self _⟩
  rw [mask_selectText h hitems, pieces_selectText h, hhead]
  simp

theorem mem_selectText {c : Char} (hc : c ∈ selectText items rest) :
    (∃ t ∈ items, c ∈ t) ∨ c ∈ rest ∨ c ∈ ',' :: listHead := by
  rw [selectText, List.mem_append, List.mem_append] at hc
  rcases hc with hc | hc | hc
  · exact .inr (.inr (List.mem_cons_of_mem _ hc))
  · rcases mem_join hc with h | rfl | rfl
    · exact .inl h
    · exact .inr (.inr (by simp))
    · exact .inr (.inr (by decide))
  · exact .inr (.inl hc)

/-- The calls in the list of a query are replaced in each item. -/
theorem replaceCalls_selectText {σ : Type} {name : Text} {f : Call → Editing σ (Option Text)}
    (hname : isName name = true) (hselect : ¬ Spelled name "SELECT".toList) (hrest : IsRest rest)
    (hp : ∀ p ∈ pieces rest, ¬ Spelled name p)
    (h : List.Forall₂ (Swept name fun call => do return (← f call).map fun r => (r, 0)) items items') :
    replaceCalls (selectText items rest) name f = pure (selectText items' rest) := by
  have hlive : (code.after (listHead ++ Text.join [',', ' '] items)).live = true := by
    rw [after_append, after_select]
    exact (mask_join fun t ht => ((Swept.operands h).1 t ht).live).2
  have hbehind : Behind (rest ++ []) := by
    refine .of_plain hrest.plain hrest.ne_nil ?_ []
    obtain ⟨c, rest, rfl⟩ := List.exists_cons_of_ne_nil hrest.ne_nil
    exact isWordChar_of_isBlank (hrest.begins c rfl)
  have hhead : ∀ p ∈ pieces listHead, ¬ Spelled name p := fun p hp => by
    have hpieces : pieces listHead = ["SELECT".toList, [' ']] := by decide
    rw [hpieces, List.mem_cons, List.mem_singleton] at hp
    rcases hp with rfl | rfl
    · exact hselect
    · exact not_spelled_singleton hname (by decide)
  have hsweep := sweep_plain (f := fun call => do return (← f call).map fun r => (r, 0)) hname hlive hrest.plain
    hrest.ne_nil (apart_nil_right rest) hp
  rw [replaceCalls, replaceCallsWithTail_eq_sweep hname, selectText, ← List.append_assoc, hsweep,
    settles_join hname h _ _ ⟨after_select, by decide⟩ hbehind,
    ← List.nil_append listHead, sweep_plain hname rfl (by decide) (by decide) (.of_ends (by decide) _) hhead,
    sweep_nil]
  simp [selectText]

/-- The list of a query is edited item by item. -/
theorem EditsWords.mapCode_selectText {f : Text → Text} (hf : EditsWords f) (hrest : IsRest rest)
    (hselect : f listHead = listHead) (hid : f rest = rest)
    (hitems : ∀ t ∈ items, (code.after t).live = true) :
    mapCode f (selectText items rest) = selectText (items.map (mapCode f)) rest := by
  have hplain : ∀ c ∈ listHead, isPlain c = true := by decide
  have hcut : Cut listHead (Text.join [',', ' '] items ++ rest) := .of_ends (by decide) "SELECT".toList _
  have hjoins : (code.after (Text.join [',', ' '] items)).joins rest = true :=
    joins_of_head?_isPlain (mask_join hitems).2 fun c hc => hrest.plain c (List.mem_of_head? hc)
  rw [selectText, hf.mapCode_append (by rw [after_select]; exact joins_code _) hcut,
    hf.mapCode_append hjoins (hrest.cut _), mapCode_of_all_isPlain hplain (by decide),
    mapCode_of_all_isPlain hrest.plain hrest.ne_nil, hselect, hid, hf.mapCode_join hitems, selectText]

end

end DialectBridge
