import DialectBridge.Proofs.RegexRuns
/-!
# Regular expressions of letters around a sign

Letters stand for themselves in a regular expression, and so do most signs: an expression of letters around such a
sign is one literal (`compile?_plain`). With a dot it is a set between two literals (`compile?_dot`). Both are chains
(`ofNode_literal`, `ofNode_around`).
-/
namespace DialectBridge.Regex
open Reading

section
variable {c d : Char} {t w a b : Text} {fuel : Nat} {r : Reading} {fs : Flags} {e : Expr} {es : List Expr} {n : Node}
  {ns : List Node}

/-! ## Reading -/

def IsLetters (t : Text) : Prop := t ≠ [] ∧ ∀ c ∈ t, c.isAlpha = true

instance (t : Text) : Decidable (IsLetters t) := inferInstanceAs (Decidable (_ ∧ _))

/-- The characters that do not stand for themselves. -/
def hasMeaning (c : Char) : Bool := ['\\', '.', '+', '*', '?', '(', ')', '|', '[', '{', '^', '$'].contains c

theorem ne_of_isAlpha (hc : c.isAlpha = true) (hd : d.isAlpha = false) : c ≠ d := by
  rintro rfl
  simp [hc] at hd

theorem hasMeaning_of_isAlpha (hc : c.isAlpha = true) : hasMeaning c = false := by
  have hletters : ∀ d ∈ ['\\', '.', '+', '*', '?', '(', ')', '|', '[', '{', '^', '$'], d.isAlpha = false := by decide
  rw [hasMeaning, List.contains_eq_mem, decide_eq_false_iff_not]
  exact fun hmem => ne_of_isAlpha hc (hletters c hmem) rfl

/-- A character that stands for itself is an item. -/
theorem readFrom?_char (hc : hasMeaning c = false) (hr : r.extended = false) :
    readFrom? (fuel + 1) (c :: t) r = readFrom? fuel t (r.push (.char c false)) := by
  have hspace : passSpace r.extended (c :: t) = c :: t := by rw [hr]; rfl
  rw [readFrom?, hspace]
  simp only [hasMeaning, List.contains_eq_mem, decide_eq_false_iff_not, List.mem_cons, List.not_mem_nil, or_false,
    not_or] at hc
  split
  case h_14 => rename_i h; obtain ⟨rfl, rfl⟩ := List.cons.inj h; rfl
  all_goals
    rename_i h
    simp_all

/-- The items for characters that stand for themselves. -/
def charItems (t : Text) : List Expr := t.map (.char · false)

theorem readFrom?_letters (hw : ∀ c ∈ w, c.isAlpha = true) (hr : r.extended = false) :
    readFrom? (w.length + fuel) (w ++ t) r =
      readFrom? fuel t { r with items := (charItems w).reverse ++ r.items } := by
  induction w generalizing r with
  | nil => simp [charItems]
  | cons c w ih =>
    have hlength : (c :: w).length + fuel = w.length + fuel + 1 := by simp [Nat.add_right_comm]
    rw [List.cons_append, hlength, readFrom?_char (hasMeaning_of_isAlpha (hw c (by simp))) hr,
      ih (r := r.push (.char c false)) (fun d hd => hw d (by simp [hd])) hr]
    simp [charItems, Reading.push]

/-- Letters up to the end are read if no group is open. -/
theorem readFrom?_letters_end (hb : ∀ c ∈ b, c.isAlpha = true) (hr : r.extended = false) :
    readFrom? (b.length + 1) b r =
      if r.stack.isEmpty then some { r with items := (charItems b).reverse ++ r.items } else none := by
  have h : readFrom? (b.length + 1) (b ++ []) r = readFrom? 1 [] _ := readFrom?_letters hb hr
  rw [List.append_nil] at h
  rw [h, readFrom?, hr]
  rfl

/-- What has been read of letters in front of a sign. -/
def readingOf (a : Text) : Reading := ⟨false, [], (charItems a).reverse, [], 0, []⟩

theorem read?_letters_append (ha : ∀ c ∈ a, c.isAlpha = true) :
    read? (a ++ d :: b) = (readFrom? (b.length + 2) (d :: b) (readingOf a)).map fun r => (r.inner, r.names) := by
  have hlength : (a ++ d :: b).length + 1 = a.length + (b.length + 2) := by
    rw [List.length_append, List.length_cons]
    omega
  rw [read?, hlength, readFrom?_letters ha rfl, readingOf, List.append_nil]
  cases readFrom? (b.length + 2) (d :: b) ⟨false, [], (charItems a).reverse, [], 0, []⟩ <;> rfl

/-! ## Sequences -/

def seq : List Expr → Expr
  | [] => .empty
  | [e] => e
  | e :: es => .cat e (seq es)

theorem seq_cons (h : es ≠ []) : seq (e :: es) = .cat e (seq es) := by
  obtain ⟨e', es, rfl⟩ := List.exists_cons_of_ne_nil h
  rfl

theorem sequenceOf_reverse (es : List Expr) : sequenceOf es.reverse = seq es := by
  rcases List.eq_nil_or_concat es with rfl | ⟨before, last, rfl⟩
  · rfl
  rw [List.concat_eq_append, List.reverse_append, List.reverse_singleton, List.singleton_append, sequenceOf,
    List.foldl_reverse]
  induction before with
  | nil => rfl
  | cons e before ih =>
    rw [List.foldr_cons, List.cons_append, seq_cons (by simp), ih]

/-- What is read of letters up to the end, in one group. -/
theorem read?_of_rest (hb : ∀ c ∈ b, c.isAlpha = true) {before : List Expr} {alternatives : List Expr} :
    (readFrom? (b.length + 1) b ⟨false, alternatives, before.reverse, [], 0, []⟩).map (fun r => (r.inner, r.names)) =
      some (choiceOf (seq (before ++ charItems b) :: alternatives), []) := by
  rw [readFrom?_letters_end hb rfl]
  simp only [List.isEmpty_nil, if_true, ← List.reverse_append, Option.map_some, Reading.inner, sequenceOf_reverse]

/-- An item that is one node and leaves the flags alone. -/
def IsItem (fs : Flags) (e : Expr) (n : Node) : Prop :=
  ∀ inCat inAlt, e.nodes? inCat inAlt fs = some ([n], fs)

theorem nodes?_seq (h : List.Forall₂ (IsItem fs) es ns) (hne : es ≠ []) :
    (seq es).nodes? true false fs = some (ns, fs) := by
  induction h with
  | nil => exact absurd rfl hne
  | @cons e n es ns he hes ih =>
    by_cases hnil : es = []
    · obtain rfl : ns = [] := by
        rw [hnil] at hes
        exact List.forall₂_nil_left_iff.1 hes
      rw [hnil]
      exact he true false
    · rw [seq_cons hnil, Expr.nodes?, he false false]
      simp [ih hnil]

/-- A sequence is the concatenation of its items. -/
theorem nodes?_seq_concat (h : List.Forall₂ (IsItem fs) es ns) (hlength : 2 ≤ es.length) (inAlt : Bool) :
    (seq es).nodes? false inAlt fs = some ([.concat ns], fs) := by
  cases h with
  | nil => simp at hlength
  | @cons e n es ns he hes =>
    have hnil : es ≠ [] := by
      rintro rfl
      simp at hlength
    rw [seq_cons hnil, Expr.nodes?, he false false]
    simp [nodes?_seq hes hnil]

abbrev plainFlags : Flags := [.unicode]

theorem isItem_char (c : Char) : IsItem plainFlags (.char c false) (.literal [c]) := fun _ _ => rfl

def literals (t : Text) : List Node := t.map fun c => .literal [c]

theorem isItem_charItems (t : Text) : List.Forall₂ (IsItem plainFlags) (charItems t) (literals t) := by
  rw [charItems, literals, List.forall₂_map_left_iff, List.forall₂_map_right_iff, List.forall₂_same]
  exact fun c _ => isItem_char c

/-! ## Concatenation -/

/-- Characters in front of what is no literal become one literal. -/
theorem foldr_consPart_literals (hw : w ≠ []) (hns : ∀ n ∈ ns.head?, ∀ t, n ≠ .literal t) :
    (literals w).foldr Node.consPart ns = .literal w :: ns := by
  induction w with
  | nil => exact absurd rfl hw
  | cons c w ih =>
    rw [literals, List.map_cons, List.foldr_cons]
    by_cases hnil : w = []
    · subst hnil
      cases ns with
      | nil => rfl
      | cons n ns =>
        have := hns n rfl
        cases n with
        | literal t => exact absurd rfl (this t)
        | _ => rfl
    · rw [← literals, ih hnil]
      rfl

theorem flatMap_parts_literals (w : Text) : (literals w).flatMap Node.parts = literals w := by
  induction w with
  | nil => rfl
  | cons c w ih =>
    rw [literals, List.map_cons, List.flatMap_cons, ← literals, ih]
    rfl

theorem concat_literals (hw : w ≠ []) : Node.concat (literals w) = .literal w := by
  rw [Node.concat, flatMap_parts_literals, foldr_consPart_literals hw (by simp)]
  rfl

/-- Characters around a set. -/
theorem concat_around (ha : a ≠ []) (hb : b ≠ []) (s : CharSet) (ascii : Bool) :
    Node.concat (literals a ++ .set s ascii :: literals b) = .cat (.literal a) (.cat (.set s ascii) (.literal b)) := by
  have hset : Node.parts (.set s ascii) = [.set s ascii] := rfl
  rw [Node.concat, List.flatMap_append, List.flatMap_cons, flatMap_parts_literals, flatMap_parts_literals, hset,
    List.foldr_append, List.foldr_append, foldr_consPart_literals hb (by simp)]
  have hcons : List.foldr Node.consPart [.literal b] [.set s ascii] = [.set s ascii, .literal b] := rfl
  rw [hcons, foldr_consPart_literals ha (by simp)]
  rfl

/-! ## Chains -/

theorem height_seq (h : ∀ e ∈ es, ∀ inCat, e.height inCat false = 0) (inCat : Bool) :
    (seq es).height inCat false ≤ if inCat then 0 else 1 := by
  induction es generalizing inCat with
  | nil => cases inCat <;> simp [seq, Expr.height]
  | cons e es ih =>
    obtain ⟨he, hes⟩ := List.forall_mem_cons.1 h
    by_cases hnil : es = []
    · rw [hnil, seq, he inCat]
      exact Nat.zero_le _
    · have hrest := ih hes true
      rw [if_pos rfl, Nat.le_zero] at hrest
      rw [seq_cons hnil, Expr.height, he false, hrest]
      simp

/-- What is read is compiled unless it is too deep or takes too much room. -/
theorem compile?_of_read? {names : List (Text × Nat)} (hread : read? t = some (e, names))
    (hheight : e.height false false ≤ Expr.heightLimit) (hnode : e.node? plainFlags = some n) :
    compile? false t = if n.fits then some ⟨.ofNode n, names⟩ else none := by
  have hdeep : ¬ Expr.heightLimit < e.height false false := Nat.not_lt.2 hheight
  simp only [compile?, hread, hdeep, hnode, Bool.false_eq_true, if_false, Option.bind_eq_bind, Option.bind_some,
    Option.pure_def]
  cases n.fits <;> rfl

/-- Letters around an item that is one node. -/
theorem compile?_around (ha : a ≠ []) (hread : read? t = some (seq (charItems a ++ e :: charItems b), []))
    (he : IsItem plainFlags e n) (hheight : ∀ inCat, e.height inCat false = 0) :
    let node := Node.concat [.concat (literals a ++ n :: literals b)]
    compile? false t = if node.fits then some ⟨.ofNode node, []⟩ else none := by
  have hitems : List.Forall₂ (IsItem plainFlags) (charItems a ++ e :: charItems b) (literals a ++ n :: literals b) :=
    List.rel_append (isItem_charItems a) (.cons he (isItem_charItems b))
  have hlength : 2 ≤ (charItems a ++ e :: charItems b).length := by
    have := List.length_pos_iff.2 ha
    simp only [charItems, List.length_append, List.length_map, List.length_cons]
    omega
  have hchars : ∀ (t : Text) (e : Expr), e ∈ charItems t → ∀ inCat, e.height inCat false = 0 := by
    intro t e hmem inCat
    obtain ⟨c, -, rfl⟩ := List.mem_map.1 hmem
    rfl
  have hheights : ∀ x ∈ charItems a ++ e :: charItems b, ∀ inCat, x.height inCat false = 0 := by
    intro x hx
    rcases List.mem_append.1 hx with hx | hx
    · exact hchars a x hx
    · rcases List.mem_cons.1 hx with rfl | hx
      · exact hheight
      · exact hchars b x hx
  refine compile?_of_read? hread (Nat.le_trans (height_seq hheights false) (by decide)) ?_
  rw [Expr.node?, nodes?_seq_concat hitems hlength, Option.map_some]

theorem push_readingOf (a : Text) (e : Expr) :
    (readingOf a).push e = ⟨false, [], (charItems a ++ [e]).reverse, [], 0, []⟩ := by
  simp [readingOf, Reading.push]

theorem read?_pushed (ha : ∀ c ∈ a, c.isAlpha = true) (hb : ∀ c ∈ b, c.isAlpha = true)
    (hd : readFrom? (b.length + 2) (d :: b) (readingOf a) = readFrom? (b.length + 1) b ((readingOf a).push e)) :
    read? (a ++ d :: b) = some (seq (charItems a ++ e :: charItems b), []) := by
  rw [read?_letters_append ha, hd, push_readingOf, read?_of_rest hb]
  simp [choiceOf]

/-- A character that stands for itself. -/
theorem compile?_plain (ha : IsLetters a) (hb : IsLetters b) (hd : hasMeaning d = false) :
    compile? false (a ++ d :: b) =
      if (Node.literal (a ++ d :: b)).fits then some ⟨.ofNode (.literal (a ++ d :: b)), []⟩ else none := by
  have hread : read? (a ++ d :: b) = some (seq (charItems a ++ .char d false :: charItems b), []) :=
    read?_pushed ha.2 hb.2 (readFrom?_char hd rfl)
  have hliterals : literals a ++ .literal [d] :: literals b = literals (a ++ d :: b) := by simp [literals]
  have hconcat : Node.concat [.literal (a ++ d :: b)] = .literal (a ++ d :: b) := rfl
  have h := compile?_around ha.1 hread (isItem_char d) fun _ => rfl
  rw [hliterals, concat_literals (by simp), hconcat] at h
  exact h

def dotSet : CharSet := .complement ⟨[(0xA, 0xA)]⟩

/-- Any character but a line feed between letters. -/
theorem compile?_dot (ha : IsLetters a) (hb : IsLetters b) :
    let node := Node.cat (.literal a) (.cat (.set dotSet false) (.literal b))
    compile? false (a ++ '.' :: b) = if node.fits then some ⟨.ofNode node, []⟩ else none := by
  have hread : read? (a ++ '.' :: b) = some (seq (charItems a ++ .dot :: charItems b), []) :=
    read?_pushed ha.2 hb.2 rfl
  have hdot : IsItem plainFlags .dot (.set dotSet false) := fun _ _ => rfl
  have hconcat : Node.concat [.cat (.literal a) (.cat (.set dotSet false) (.literal b))] =
      .cat (.literal a) (.cat (.set dotSet false) (.literal b)) := rfl
  have h := compile?_around ha.1 hread hdot fun _ => rfl
  rw [concat_around ha.1 hb.1, hconcat] at h
  exact h

open Program in
theorem addNode_literal (t : Text) (sets : List CharSet) :
    addNode (.literal t) (chain sets).start (chain sets).code = chain (t.map .single ++ sets) := by
  rw [addNode]
  induction t with
  | nil => rfl
  | cons c t ih =>
    rw [List.foldr_cons, ih, List.map_cons, List.cons_append, chain, chain, chainCode, add]
    simp

open Program in
theorem addNode_set (s : CharSet) (ascii : Bool) (sets : List CharSet) :
    addNode (.set s ascii) (chain sets).start (chain sets).code = chain (s :: sets) := by
  rw [addNode, chain, chain, chainCode, add]
  simp

theorem ofNode_literal (t : Text) : Program.ofNode (.literal t) = .chain (t.map .single) := by
  have h := addNode_literal t []
  rw [List.append_nil] at h
  exact h

theorem ofNode_around (a b : Text) (s : CharSet) (ascii : Bool) :
    Program.ofNode (.cat (.literal a) (.cat (.set s ascii) (.literal b))) =
      .chain (a.map .single ++ s :: b.map .single) := by
  have hb : Program.addNode (.literal b) 0 #[.done] = .chain (b.map .single) := ofNode_literal b
  have hcat : ∀ (a b : Node) (next : Nat) (code : Array Instruction), Program.addNode (.cat a b) next code =
      Program.addNode a (Program.addNode b next code).start (Program.addNode b next code).code := fun _ _ _ _ => rfl
  rw [Program.ofNode, hcat, hcat, hb, addNode_set, addNode_literal]

/-! ## Room -/

theorem length_encode (c : Char) : (ByteSequence.encode c.toNat).length = c.utf8Size := by
  have hval : c.toNat = c.val.toNat := rfl
  unfold ByteSequence.encode Char.utf8Size
  simp only [UInt32.le_iff_toNat_le, ← hval]
  split_ifs
  all_goals simp at *
  all_goals omega

/-- A literal takes a state for each byte. -/
theorem build?_literal (backward : Bool) (t : Text) (b : Built) :
    (Node.literal t).build? backward .alone b = (do return (← b.grow? (Text.width t) 0, false)) := by
  have hwidth : (t.map fun c => (ByteSequence.encode c.toNat).length).sum = Text.width t := by
    induction t with
    | nil => rfl
    | cons c t ih => rw [List.map_cons, List.sum_cons, ih, length_encode, Text.width_cons]
  rw [← hwidth]
  rfl

theorem isSome_grow? {b : Built} {states extra : Nat} :
    (b.grow? states extra).isSome = true ↔ 32 * (b.states + states) + (b.extra + extra) ≤ 10485760 := by
  have hlimit : Built.limit = 10485760 := by decide
  rw [Built.grow?, hlimit, Built.stateSize, ← Nat.not_lt]
  split_ifs with h <;> simp [h]

theorem isSome_grow?_bind {α : Type} {b : Built} {states extra : Nat} {f : Built → Option α} :
    ((b.grow? states extra).bind f).isSome = true ↔ 32 * (b.states + states) + (b.extra + extra) ≤ 10485760 ∧
      (f ⟨b.states + states, b.extra + extra⟩).isSome = true := by
  have hlimit : Built.limit = 10485760 := by decide
  rw [Built.grow?, hlimit, Built.stateSize, ← Nat.not_lt]
  split_ifs with h <;> simp [h]

/-- A literal has a state for each of its bytes and a few more, of 32 bytes each; the automata may take 10 MiB. -/
theorem fits_literal (t : Text) : (Node.literal t).fits = true ↔ Text.width t ≤ 327673 := by
  have hforward : (Node.literal t).fitsOneWay false = true ↔ 32 * (Text.width t + 6) + 16 ≤ 10485760 := by
    simp only [Node.fitsOneWay, Node.startsText, build?_literal, Option.pure_def, Built.link?,
      Built.rangeSize, Built.linkSize, Option.bind_eq_bind, Option.bind_assoc, Option.bind_some,
      isSome_grow?_bind, isSome_grow?, Bool.false_eq_true, if_false, Bool.not_false, if_true]
    omega
  have hbackward : (Node.literal t).fitsOneWay true = true ↔ 32 * (Text.width t + 4) + 16 ≤ 10485760 := by
    simp only [Node.fitsOneWay, Node.endsText, build?_literal, Option.pure_def, Built.link?,
      Built.rangeSize, Built.linkSize, Option.bind_eq_bind, Option.bind_assoc, Option.bind_some,
      isSome_grow?_bind, isSome_grow?, Bool.false_eq_true, if_false, Bool.not_false, if_true]
    omega
  rw [Node.fits, Bool.and_eq_true, hforward, hbackward]
  omega
end

end DialectBridge.Regex
