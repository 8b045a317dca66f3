import DialectBridge.Proofs.NestedCalls
import DialectBridge.Proofs.WordReplacement
/-!
# Terms

A term is the tree of an expression: words, calls, and operands with text between them; what no rule
looks into is an atom. A term is `Good` when its names come from a given list and no rule finds anything
in its other texts. The rules that replace calls and words work on the text of a good term as they would
on the tree (`Good.swept`, `Good.mapLeaves`).
-/
namespace DialectBridge
open Pattern LexState

/-- The tree of an expression. -/
inductive Term where
  | word (name : Text)
  | atom (text : Text)
  | call (name : Text) (args : List Term)
  | linked (left : Term) (link : Text) (right : Term)

namespace Term

def text : Term → Text
  | word n => n
  | atom t => t
  | call n args => callText n (args.map text)
  | linked l g r => l.text ++ (g ++ r.text)

@[simp] theorem text_word (n : Text) : (word n).text = n := by rw [text]

@[simp] theorem text_atom (t : Text) : (atom t).text = t := by rw [text]

@[simp] theorem text_call (n : Text) (args : List Term) : (call n args).text = callText n (args.map text) := by
  rw [text]

@[simp] theorem text_linked (l : Term) (g : Text) (r : Term) :
    (linked l g r).text = l.text ++ (g ++ r.text) := by rw [text]

/-- The term with the calls of `name` replaced, the inner ones first. -/
def mapCalls (name : Text) (F : List Term → Term) : Term → Term
  | word n => word n
  | atom t => atom t
  | call n args =>
    let args := args.map (mapCalls name F)
    if n = name then F args else call n args
  | linked l g r => linked (l.mapCalls name F) g (r.mapCalls name F)

/-- The term with its words and the texts between operands replaced. -/
def mapLeaves (h : Text → Text) : Term → Term
  | word n => if h n = n then word n else atom (h n)
  | atom t => atom t
  | call n args => call n (args.map (mapLeaves h))
  | linked l g r => linked (l.mapLeaves h) (h g) (r.mapLeaves h)

end Term

/-! ## Good terms -/

/-- No piece of a text is one of the names. -/
def Spares (names : List String) (t : Text) : Prop :=
  ∀ p ∈ pieces t, ∀ n ∈ names, ¬ Spelled n.toList p

instance (names : List String) (t : Text) : Decidable (Spares names t) :=
  inferInstanceAs (Decidable (∀ p ∈ pieces t, ∀ n ∈ names, ¬ Spelled n.toList p))

theorem Spares.mono {names names' : List String} {t : Text} (h : Spares names t) (hsub : names' ⊆ names) :
    Spares names' t := fun p hp n hn => h p hp n (hsub hn)

/-- An operand in which no rule finds anything. -/
structure IsAtom (reserved : List String) (t : Text) : Prop where
  operand : Operand t
  spares : Spares reserved (mask t)
  unbarred : '|' ∉ mask t
  unescaped : '&' ∉ t

structure IsLink (reserved : List String) (g : Text) : Prop where
  ne_nil : g ≠ []
  plain : ∀ c ∈ g, isPlain c = true
  begins : ∀ c ∈ g.head?, Unicode.isBlank c = true
  ends : ∀ c ∈ g.getLast?, Unicode.isBlank c = true
  flat : ∀ c ∈ g, c ≠ '(' ∧ c ≠ ')' ∧ c ≠ ','
  spares : Spares reserved g
  unescaped : '&' ∉ g

instance (reserved : List String) (g : Text) : Decidable (IsLink reserved g) :=
  decidable_of_iff (g ≠ [] ∧ (∀ c ∈ g, isPlain c = true) ∧ (∀ c ∈ g.head?, Unicode.isBlank c = true) ∧
      (∀ c ∈ g.getLast?, Unicode.isBlank c = true) ∧ (∀ c ∈ g, c ≠ '(' ∧ c ≠ ')' ∧ c ≠ ',') ∧
      Spares reserved g ∧ '&' ∉ g)
    ⟨fun ⟨a, b, c, d, e, f, g⟩ => ⟨a, b, c, d, e, f, g⟩, fun ⟨a, b, c, d, e, f, g⟩ => ⟨a, b, c, d, e, f, g⟩⟩

/-- The names in a term, with the number of their arguments, are among `names`, and the texts between
operands are among `links`. A word has no arguments. -/
inductive Good (reserved : List String) (names : Text → Nat → Prop) (links : Text → Prop) : Term → Prop
  | word {n : Text} : IsWord n → names n 0 → Good reserved names links (.word n)
  | atom {t : Text} : IsAtom reserved t → Good reserved names links (.atom t)
  | call {n : Text} {args : List Term} : IsWord n → args ≠ [] → names n args.length →
      (∀ a ∈ args, Good reserved names links a) → Good reserved names links (.call n args)
  | linked {l r : Term} {g : Text} : Good reserved names links l → IsLink reserved g → links g →
      Good reserved names links r → Good reserved names links (.linked l g r)

section
variable {t u g : Text} {reserved : List String}

theorem isWord_of_isName {n : Text} (h : isName n = true) : IsWord n :=
  ⟨(spelled_self n).ne_nil h, (spelled_self n).isWordChar h⟩

theorem mask_word {n : Text} (hn : IsWord n) : mask n = n :=
  mask_of_all_isPlain fun c hc => isPlain_of_isWordChar (hn.chars c hc)

theorem pieces_mask_word {n : Text} (hn : IsWord n) : pieces (mask n) = [n] := by
  rw [mask_word hn, pieces_word hn.ne_nil hn.chars]

theorem operand_word {n : Text} (hn : IsWord n) : Operand n := by
  have hplain : ∀ c ∈ n, isPlain c = true := fun c hc => isPlain_of_isWordChar (hn.chars c hc)
  have hshown : ∀ c ∈ n, Unicode.isBlank c = false := fun c hc => by
    by_contra hblank
    have := isWordChar_of_isBlank (by simpa using hblank)
    rw [hn.chars c hc] at this
    cases this
  refine ⟨?_, hn.ne_nil, fun c hc => hshown c (List.mem_of_mem_head? hc),
    fun c hc => hshown c (List.mem_of_getLast? hc), ?_, ?_⟩
  · rw [after_of_all_isPlain rfl hplain hn.ne_nil]
    rfl
  · rw [mask_word hn]
    exact nest_of_isWordChar_or_isBlank (fun c hc => .inl (hn.chars c hc)) 0
  · rw [mask_word hn]
    exact uncut_of_isWordChar_or_isBlank fun c hc => .inl (hn.chars c hc)

theorem IsLink.beginsInWord (h : IsLink reserved g) : beginsInWord g = false := by
  obtain ⟨c, g, rfl⟩ := List.exists_cons_of_ne_nil h.ne_nil
  exact isWordChar_of_isBlank (h.begins c rfl)

theorem IsLink.endsInWord (h : IsLink reserved g) : endsInWord g = false := by
  obtain ⟨g', c, rfl⟩ := (List.eq_nil_or_concat g).resolve_left h.ne_nil
  rw [List.concat_eq_append] at h ⊢
  rw [endsInWord_append (by simp), endsInWord_singleton]
  exact isWordChar_of_isBlank (h.ends c (by simp))

theorem IsLink.mask_between (h : IsLink reserved g) (ht : (code.after t).live = true) (b : Text) :
    mask (t ++ (g ++ b)) = mask t ++ (g ++ mask b) := mask_plain_between ht h.plain h.ne_nil

theorem IsLink.after (h : IsLink reserved g) (ht : (code.after t).live = true) :
    code.after (t ++ g) = code := by
  rw [after_append, after_of_all_isPlain ht h.plain h.ne_nil]

/-- Two operands with text between them are an operand. -/
theorem operand_linked (ht : Operand t) (h : IsLink reserved g) (hu : Operand u) :
    Operand (t ++ (g ++ u)) := by
  have hmask := h.mask_between ht.live u
  refine ⟨?_, by simp [ht.ne_nil], ?_, ?_, ?_, ?_⟩
  · rw [← List.append_assoc, after_append, h.after ht.live]
    exact hu.live
  · intro c hc
    rw [List.head?_append_of_ne_nil _ ht.ne_nil] at hc
    exact ht.first c hc
  · intro c hc
    rw [← List.append_assoc, List.getLast?_append_of_ne_nil _ hu.ne_nil] at hc
    exact hu.last c hc
  · have hnest : nest 0 g = some 0 := nest_of_not_mem (fun hc => (h.flat _ hc).1 rfl) (fun hc => (h.flat _ hc).2.1 rfl) 0
    rw [hmask, nest_append, ht.nested, Option.bind_some, nest_append, hnest, Option.bind_some, hu.nested]
  · rw [hmask]
    exact ht.uncut.append ((uncut_of_forall h.flat).append hu.uncut)

end

section
variable {reserved : List String} {names : Text → Nat → Prop} {links : Text → Prop} {t : Term}

theorem Good.operand (h : Good reserved names links t) : Operand t.text := by
  induction h with
  | word hn _ => simpa using operand_word hn
  | atom ht => simpa using ht.operand
  | call hn _ _ _ ih =>
    rw [Term.text_call]
    exact operand_callText hn (by simpa using ih)
  | linked _ hg _ _ ihl ihr => simpa using operand_linked ihl hg ihr

theorem Good.mono {names' : Text → Nat → Prop} {links' : Text → Prop} (h : Good reserved names links t)
    (hnames : ∀ n k, names n k → names' n k) (hlinks : ∀ g, links g → links' g) :
    Good reserved names' links' t := by
  induction h with
  | word hn hk => exact .word hn (hnames _ _ hk)
  | atom ht => exact .atom ht
  | call hn hne hk _ ih => exact .call hn hne (hnames _ _ hk) ih
  | linked _ hg hlink _ ihl ihr => exact .linked ihl hg (hlinks _ hlink) ihr

/-! ## The pieces of a term -/

theorem mem_pieces_join {ts : List Text} {p : Text} (hp : p ∈ pieces (Text.join [',', ' '] ts)) :
    (∃ t ∈ ts, p ∈ pieces t) ∨ p = [','] ∨ p = [' '] := by
  induction ts with
  | nil => simp [Text.join, List.intercalate] at hp
  | cons t ts ih =>
    by_cases hnil : ts = []
    · rw [hnil] at hp
      exact .inl ⟨t, by simp, by simpa [Text.join, List.intercalate] using hp⟩
    have hsep : pieces ([',', ' '] ++ Text.join [',', ' '] ts) =
        [','] :: [' '] :: pieces (Text.join [',', ' '] ts) := by
      rw [pieces_append (.of_ends (by decide) _)]
      rfl
    have hcomma : beginsInWord ([',', ' '] ++ Text.join [',', ' '] ts) = false :=
      (by decide : Unicode.isWordChar ',' = false)
    rw [Text.join_cons hnil, List.append_assoc, pieces_append (.of_begins hcomma _), hsep,
      List.mem_append, List.mem_cons, List.mem_cons] at hp
    rcases hp with hp | hp | hp | hp
    · exact .inl ⟨t, by simp, hp⟩
    · exact .inr (.inl hp)
    · exact .inr (.inr hp)
    · rcases ih hp with ⟨u, hu, hp⟩ | hp
      · exact .inl ⟨u, by simp [hu], hp⟩
      · exact .inr hp

theorem mem_pieces_callText {n p : Text} {ts : List Text} (hn : IsWord n)
    (hp : p ∈ pieces (callText n ts)) :
    p = n ∨ (∃ t ∈ ts, p ∈ pieces t) ∨ p ∈ [['('], [')'], [','], [' ']] := by
  have hsplit : callText n ts = n ++ (['('] ++ (Text.join [',', ' '] ts ++ [')'])) := by simp [callText]
  have hleft : beginsInWord (['('] ++ (Text.join [',', ' '] ts ++ [')'])) = false :=
    (by decide : Unicode.isWordChar '(' = false)
  rw [hsplit, pieces_append (.of_begins hleft _), pieces_word hn.ne_nil hn.chars,
    pieces_append (.of_ends (by decide) _), pieces_append (.of_begins (by decide) _)] at hp
  have hopen : pieces ['('] = [['(']] := rfl
  have hclose : pieces [')'] = [[')']] := rfl
  simp only [hopen, hclose, List.mem_append, List.mem_singleton] at hp
  rcases hp with hp | hp | hp | hp
  · exact .inl hp
  · exact .inr (.inr (by simp [hp]))
  · rcases mem_pieces_join hp with h | h | h
    · exact .inr (.inl h)
    · exact .inr (.inr (by simp [h]))
    · exact .inr (.inr (by simp [h]))
  · exact .inr (.inr (by simp [hp]))

/-- A piece of the code of a good term is one of its names, or none of the reserved names. -/
theorem Good.mem_pieces (hreserved : ∀ n ∈ reserved, isName n.toList = true)
    (h : Good reserved names links t) : ∀ p ∈ pieces (mask t.text),
      (∃ k, names p k) ∨ ∀ n ∈ reserved, ¬ Spelled n.toList p := by
  have hpunct : ∀ c : Char, Unicode.isWordChar c = false → ∀ n ∈ reserved, ¬ Spelled n.toList [c] :=
    fun c hc n hn => not_spelled_singleton (hreserved n hn) hc
  induction h with
  | @word n hn hk =>
    intro p hp
    rw [Term.text_word, pieces_mask_word hn, List.mem_singleton] at hp
    exact .inl ⟨0, hp ▸ hk⟩
  | atom ht => exact fun p hp => .inr (ht.spares p (by simpa using hp))
  | @call n args hn hne hk hargs ih =>
    intro p hp
    rw [Term.text_call, mask_callText hn.chars (by simpa using fun a ha => (hargs a ha).operand.live)] at hp
    rcases mem_pieces_callText hn hp with rfl | ⟨u, hu, hp⟩ | hp
    · exact .inl ⟨_, hk⟩
    · simp only [List.map_map, List.mem_map, Function.comp_apply] at hu
      obtain ⟨a, ha, rfl⟩ := hu
      exact ih a ha p hp
    · simp only [List.mem_cons, List.not_mem_nil, or_false] at hp
      rcases hp with rfl | rfl | rfl | rfl <;> exact .inr (hpunct _ (by decide))
  | @linked l r g hl hg hlink hr ihl ihr =>
    intro p hp
    rw [Term.text_linked, hg.mask_between hl.operand.live,
      pieces_append (.of_begins (by rw [beginsInWord_append hg.ne_nil]; exact hg.beginsInWord) _),
      pieces_append (.of_ends hg.endsInWord _), List.mem_append, List.mem_append] at hp
    rcases hp with hp | hp | hp
    · exact ihl p hp
    · exact .inr (hg.spares p hp)
    · exact ihr p hp

/-! ## The characters of a term -/

theorem mem_join {c : Char} {ts : List Text} (hc : c ∈ Text.join [',', ' '] ts) :
    (∃ t ∈ ts, c ∈ t) ∨ c = ',' ∨ c = ' ' := by
  rw [← flatten_pieces (Text.join _ ts), List.mem_flatten] at hc
  obtain ⟨p, hp, hc⟩ := hc
  rcases mem_pieces_join hp with ⟨t, ht, hp⟩ | rfl | rfl
  · refine .inl ⟨t, ht, ?_⟩
    rw [← flatten_pieces t]
    exact List.mem_flatten_of_mem hp hc
  · exact .inr (.inl (List.mem_singleton.1 hc))
  · exact .inr (.inr (List.mem_singleton.1 hc))

theorem mem_callText {c : Char} {n : Text} {ts : List Text} (hc : c ∈ callText n ts) :
    c ∈ n ∨ (∃ t ∈ ts, c ∈ t) ∨ c ∈ ['(', ')', ',', ' '] := by
  simp only [callText, List.mem_append, List.mem_cons, List.not_mem_nil, or_false] at hc ⊢
  rcases hc with hc | rfl | hc | rfl
  · exact .inl hc
  · simp
  · rcases mem_join hc with h | rfl | rfl
    · exact .inr (.inl h)
    · simp
    · simp
  · simp

theorem Good.unescaped (h : Good reserved names links t) : '&' ∉ t.text := by
  induction h with
  | word hn _ =>
    rw [Term.text_word]
    exact fun hc => absurd (hn.chars _ hc) (by decide)
  | atom ht => simpa using ht.unescaped
  | call hn _ _ _ ih =>
    rw [Term.text_call]
    intro hc
    rcases mem_callText hc with hc | ⟨u, hu, hc⟩ | hc
    · exact absurd (hn.chars _ hc) (by decide)
    · obtain ⟨a, ha, rfl⟩ := List.mem_map.1 hu
      exact ih a ha hc
    · exact absurd hc (by decide)
  | linked _ hg _ _ ihl ihr =>
    rw [Term.text_linked, List.mem_append, List.mem_append]
    rintro (hc | hc | hc)
    · exact ihl hc
    · exact hg.unescaped hc
    · exact ihr hc

theorem Good.unbarred (hlinks : ∀ g, links g → '|' ∉ g) (h : Good reserved names links t) :
    '|' ∉ mask t.text := by
  induction h with
  | word hn _ =>
    rw [Term.text_word, mask_word hn]
    exact fun hc => absurd (hn.chars _ hc) (by decide)
  | atom ht => simpa using ht.unbarred
  | call hn _ _ hargs ih =>
    rw [Term.text_call, mask_callText hn.chars (by simpa using fun a ha => (hargs a ha).operand.live)]
    intro hc
    rcases mem_callText hc with hc | ⟨u, hu, hc⟩ | hc
    · exact absurd (hn.chars _ hc) (by decide)
    · simp only [List.map_map, List.mem_map, Function.comp_apply] at hu
      obtain ⟨a, ha, rfl⟩ := hu
      exact ih a ha hc
    · exact absurd hc (by decide)
  | linked hl hg hlink _ ihl ihr =>
    rw [Term.text_linked, hg.mask_between hl.operand.live, List.mem_append, List.mem_append]
    rintro (hc | hc | hc)
    · exact ihl hc
    · exact hlinks _ hlink hc
    · exact ihr hc

end

end DialectBridge
