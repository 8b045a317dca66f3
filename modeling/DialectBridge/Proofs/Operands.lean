import DialectBridge.Proofs.Nesting
import DialectBridge.Proofs.Sweep
/-!
# Operands

An operand is a text that can be an argument of a call: it is trimmed, its parentheses are closed and
its commas are inside of them. A call of operands is read as it is written (`read?_callText`), and
is an operand itself (`operand_callText`).
-/
namespace DialectBridge
open Pattern LexState

/-! ## Parentheses and commas -/

/-- What stands between a parenthesis and another one, and behind it. -/
theorem slice?_parens (a x y : Text) :
    Text.slice? (a ++ '(' :: (x ++ ')' :: y)) (Text.width a + 1) (Text.width (a ++ '(' :: x)) = some x ∧
      Text.from? (a ++ '(' :: (x ++ ')' :: y)) (Text.width (a ++ '(' :: x) + 1) = some y := by
  have hopen : Text.width a + 1 = Text.width (a ++ ['(']) := by
    have : '('.utf8Size = 1 := by decide
    simp [this]
  have hclose : Text.width (a ++ '(' :: x) + 1 = Text.width (a ++ '(' :: x ++ [')']) := by
    have : ')'.utf8Size = 1 := by decide
    simp [this, Nat.add_assoc]
  have hstop : Text.width (a ++ '(' :: x) = Text.width (a ++ ['(']) + Text.width x := by simp [Nat.add_assoc]
  refine ⟨?_, ?_⟩
  · rw [hopen, hstop]
    simpa using Text.slice?_append (a ++ ['(']) x (')' :: y)
  · rw [hclose]
    simpa using Text.from?_append (a ++ '(' :: x ++ [')']) y

/-- Whether no comma of a text is outside of the parentheses that it opens. -/
def Uncut (s : Text) : Prop := ∀ n i r, Paren.commas n (Text.indexedFrom i (s ++ r)) =
  Paren.commas n (Text.indexedFrom (i + Text.width s) r)

theorem Uncut.append {s t : Text} (hs : Uncut s) (ht : Uncut t) : Uncut (s ++ t) := by
  intro n i r
  rw [List.append_assoc, hs, ht, Text.width_append, Nat.add_assoc]

theorem commas_cons_of_ne {n i : Nat} {c : Char} {r : Text} (h1 : c ≠ '(') (h2 : c ≠ ')')
    (h3 : c ≠ ',' ∨ n ≠ 0) : Paren.commas n (Text.indexedFrom i (c :: r)) =
      Paren.commas n (Text.indexedFrom (i + c.utf8Size) r) := by
  have h3 : ¬ (c = ',' ∧ n = 0) := by tauto
  rw [Text.indexedFrom, Paren.commas, if_neg h1, if_neg h2, if_neg h3]

theorem uncut_of_forall {s : Text} (h : ∀ c ∈ s, c ≠ '(' ∧ c ≠ ')' ∧ c ≠ ',') : Uncut s := by
  intro n i r
  induction s generalizing i with
  | nil => simp
  | cons c s ih =>
    obtain ⟨h1, h2, h3⟩ := h c (by simp)
    rw [List.cons_append, commas_cons_of_ne h1 h2 (.inl h3), ih fun d hd => h d (by simp [hd]),
      Text.width_cons, Nat.add_assoc]

theorem uncut_of_isWordChar_or_isBlank {s : Text}
    (h : ∀ c ∈ s, Unicode.isWordChar c = true ∨ Unicode.isBlank c = true) : Uncut s := by
  refine uncut_of_forall fun c hc => ⟨?_, ?_, ?_⟩ <;>
  · rintro rfl
    rcases h _ hc with hd | hd <;> exact absurd hd (by decide)

/-- Commas inside of parentheses do not count. -/
theorem uncut_enclosed {ts : List Text} (h : ∀ t ∈ ts, Uncut t) :
    Uncut ('(' :: (Text.join [',', ' '] ts ++ [')'])) := by
  have hinside : ∀ n i r, Paren.commas (n + 1) (Text.indexedFrom i (Text.join [',', ' '] ts ++ r)) =
      Paren.commas (n + 1) (Text.indexedFrom (i + Text.width (Text.join [',', ' '] ts)) r) := by
    intro n i r
    induction ts generalizing i with
    | nil => simp [Text.join, List.intercalate]
    | cons t ts ih =>
      have ht := h t (by simp)
      by_cases hnil : ts = []
      · simpa [hnil, Text.join, List.intercalate] using ht (n + 1) i r
      have ih := ih (fun t ht => h t (by simp [ht])) (i + Text.width (t ++ [',', ' ']))
      rw [Text.join_cons hnil, List.append_assoc, List.append_assoc, ht, List.cons_append,
        commas_cons_of_ne (by decide) (by decide) (.inr (by omega)), List.cons_append,
        commas_cons_of_ne (by decide) (by decide) (.inr (by omega)), List.nil_append]
      simpa [Text.width_append, Nat.add_assoc] using ih
  intro n i r
  rw [List.cons_append, Text.indexedFrom, Paren.commas, if_pos rfl, List.append_assoc, hinside,
    List.cons_append, Text.indexedFrom, Paren.commas, if_neg (by decide), if_pos rfl,
    Nat.add_sub_cancel, List.nil_append]
  simp only [Text.width_append, Text.width_cons, Text.width_nil]
  congr 2
  omega

/-! ## Operands -/

/-- A text that can be an argument of a call. -/
structure Operand (t : Text) : Prop where
  live : (code.after t).live = true
  ne_nil : t ≠ []
  first : ∀ c ∈ t.head?, Unicode.isBlank c = false
  last : ∀ c ∈ t.getLast?, Unicode.isBlank c = false
  nested : nest 0 (mask t) = some 0
  uncut : Uncut (mask t)

/-- White space in front of a text is trimmed, and nothing else if none stands at its ends. -/
theorem Text.trim_blanks_append {b t : Text} (hb : ∀ c ∈ b, Unicode.isBlank c = true)
    (hfirst : ∀ c ∈ t.head?, Unicode.isBlank c = false) (hlast : ∀ c ∈ t.getLast?, Unicode.isBlank c = false) :
    Text.trim (b ++ t) = t := by
  have hstart : Text.trimStart (b ++ t) = t := by
    rw [Text.trimStart, List.dropWhile_append_of_pos hb]
    cases t with
    | nil => rfl
    | cons c t => rw [List.dropWhile_cons_of_neg (by simp [hfirst c rfl])]
  rw [Text.trim, hstart, Text.trimEnd, Text.dropTrailing]
  rcases List.eq_nil_or_concat t with rfl | ⟨l, z, rfl⟩
  · rfl
  · rw [List.concat_eq_append] at hlast ⊢
    have hz := hlast z (by simp)
    rw [List.reverse_append, List.reverse_singleton, List.singleton_append, List.dropWhile_cons_of_neg (by simp [hz])]
    simp

/-- White space in front of an operand is trimmed. -/
theorem Operand.trim_append {t : Text} (h : Operand t) {b : Text}
    (hb : ∀ c ∈ b, Unicode.isBlank c = true) : Text.trim (b ++ t) = t :=
  Text.trim_blanks_append hb h.first h.last

theorem mask_join {ts : List Text} (h : ∀ t ∈ ts, (code.after t).live = true) :
    mask (Text.join [',', ' '] ts) = Text.join [',', ' '] (ts.map mask) ∧
      (code.after (Text.join [',', ' '] ts)).live = true := by
  induction ts with
  | nil => exact ⟨by simp [Text.join, List.intercalate, mask, segments], by simp [Text.join, List.intercalate]; rfl⟩
  | cons t ts ih =>
    have ht := h t (by simp)
    obtain ⟨ih, hlive⟩ := ih fun t ht => h t (by simp [ht])
    by_cases hnil : ts = []
    · simp [hnil, Text.join, List.intercalate, ht]
    have hcode : code.after (t ++ [',', ' ']) = code := by
      rw [after_append, after_of_all_isPlain ht (by decide) (by simp)]
    rw [Text.join_cons hnil, List.map_cons, Text.join_cons (by simpa using hnil), after_append, hcode,
      List.append_assoc, mask_plain_between ht (by decide) (by simp), ih, List.append_assoc]
    exact ⟨rfl, hlive⟩

/-- The arguments of a call, cut out of the text between its parentheses. -/
theorem cutAt?_join {ts : List Text} (hne : ts ≠ []) (h : ∀ t ∈ ts, Operand t) {a b y : Text}
    (hb : ∀ c ∈ b, Unicode.isBlank c = true) :
    cutAt? (a ++ (b ++ (Text.join [',', ' '] ts ++ y))) (Text.width a)
        (Text.width (a ++ (b ++ Text.join [',', ' '] ts)))
        (Paren.commas 0 (Text.indexedFrom (Text.width a) (b ++ mask (Text.join [',', ' '] ts)))) =
      some ts := by
  have hcomma : ','.utf8Size = 1 := by decide
  induction ts generalizing a b with
  | nil => exact absurd rfl hne
  | cons t ts ih =>
    have ht := h t (by simp)
    have hblank := uncut_of_isWordChar_or_isBlank fun c hc => .inr (hb c hc)
    have hslice := Text.slice?_append a (b ++ t)
    by_cases hnil : ts = []
    · have hcommas : Paren.commas 0 (Text.indexedFrom (Text.width a) (b ++ mask t)) = [] := by
        have := (hblank.append ht.uncut) 0 (Text.width a) []
        rw [List.append_nil] at this
        rw [this]
        rfl
      have hjoin : Text.join [',', ' '] [t] = t := by simp [Text.join, List.intercalate]
      have hslice := hslice y
      rw [List.append_assoc, ← Text.width_append, List.append_assoc] at hslice
      rw [hnil, hjoin, hcommas, cutAt?, hslice]
      simp [ht.trim_append hb]
    -- the comma behind the first argument
    have hmask := (mask_join fun u hu => (h u hu).live).1
    have hmask' := (mask_join fun u hu => (h u (List.mem_cons_of_mem t hu)).live).1
    have hwidth : Text.width (a ++ (b ++ t)) + 1 = Text.width (a ++ (b ++ (t ++ [',']))) := by
      simp only [Text.width_append, Text.width_cons, Text.width_nil, hcomma]
      omega
    have hcommas : Paren.commas 0 (Text.indexedFrom (Text.width a)
        (b ++ mask (Text.join [',', ' '] (t :: ts)))) = Text.width (a ++ (b ++ t)) ::
          Paren.commas 0 (Text.indexedFrom (Text.width (a ++ (b ++ (t ++ [',']))))
            ([' '] ++ mask (Text.join [',', ' '] ts))) := by
      rw [hmask, List.map_cons, Text.join_cons (by simpa using hnil), ← hmask', List.append_assoc,
        ← List.append_assoc b, hblank.append ht.uncut, List.cons_append, Text.indexedFrom,
        Paren.commas, if_neg (by decide), if_neg (by decide), if_pos (by simp), hcomma, ← hwidth]
      simp [Text.width_append, width_mask, Nat.add_assoc]
    have hsplit : a ++ (b ++ (Text.join [',', ' '] (t :: ts) ++ y)) =
        a ++ (b ++ t) ++ ([',', ' '] ++ Text.join [',', ' '] ts ++ y) := by
      rw [Text.join_cons hnil]
      simp
    have hsplit' : a ++ (b ++ (Text.join [',', ' '] (t :: ts) ++ y)) =
        a ++ (b ++ (t ++ [','])) ++ ([' '] ++ (Text.join [',', ' '] ts ++ y)) := by
      rw [Text.join_cons hnil]
      simp
    have hstop : a ++ (b ++ Text.join [',', ' '] (t :: ts)) =
        a ++ (b ++ (t ++ [','])) ++ ([' '] ++ Text.join [',', ' '] ts) := by
      rw [Text.join_cons hnil]
      simp
    have hslice := hslice ([',', ' '] ++ Text.join [',', ' '] ts ++ y)
    rw [← Text.width_append, ← hsplit] at hslice
    rw [hcommas, cutAt?, hslice, hwidth, hstop, hsplit', ih hnil (fun t ht => h t (by simp [ht])) (by decide)]
    simp [ht.trim_append hb]

/-! ## Calls of operands -/

def callText (name : Text) (args : List Text) : Text :=
  name ++ '(' :: (Text.join [',', ' '] args ++ [')'])

theorem nest_join {ts : List Text} (h : ∀ t ∈ ts, nest 0 t = some 0) :
    nest 0 (Text.join [',', ' '] ts) = some 0 := by
  induction ts with
  | nil => rfl
  | cons t ts ih =>
    have ih := ih fun t ht => h t (by simp [ht])
    by_cases hnil : ts = []
    · simpa [hnil, Text.join, List.intercalate] using h t (by simp)
    rw [Text.join_cons hnil, nest_append, nest_append, h t (by simp)]
    exact ih

section
variable {n : Text} {args : List Text}

structure IsWord (n : Text) : Prop where
  ne_nil : n ≠ []
  chars : ∀ c ∈ n, Unicode.isWordChar c = true

theorem mask_callText (hn : ∀ c ∈ n, Unicode.isWordChar c = true)
    (hargs : ∀ t ∈ args, (code.after t).live = true) :
    mask (callText n args) = callText n (args.map mask) := by
  obtain ⟨hmask, hlive⟩ := mask_join hargs
  have hhead : ∀ c ∈ n ++ ['('], isPlain c = true := fun c hc => by
    rcases List.mem_append.1 hc with hc | hc
    · exact isPlain_of_isWordChar (hn c hc)
    · obtain rfl := List.mem_singleton.1 hc
      decide
  have hsplit : callText n args = (n ++ ['(']) ++ (Text.join [',', ' '] args ++ [')']) := by
    simp [callText]
  have htail := mask_plain_between (b := []) hlive (x := [')']) (by decide) (by simp)
  rw [hsplit, mask_plain_append hhead]
  simp only [List.append_nil, mask_nil] at htail
  rw [htail, hmask]
  simp [callText]

/-- A call of operands is an operand. -/
theorem operand_callText (hn : IsWord n) (hargs : ∀ t ∈ args, Operand t) : Operand (callText n args) := by
  obtain ⟨hne, hn⟩ := hn
  have hmask := mask_callText hn fun t ht => (hargs t ht).live
  have hword : ∀ c ∈ n, Unicode.isWordChar c = true ∨ Unicode.isBlank c = true := fun c hc => .inl (hn c hc)
  have hsplit : callText n args = (n ++ '(' :: Text.join [',', ' '] args) ++ [')'] := by simp [callText]
  obtain ⟨c, n, rfl⟩ := List.exists_cons_of_ne_nil hne
  refine ⟨?_, by simp [callText], ?_, ?_, ?_, ?_⟩
  · have hlive : (code.after (c :: n ++ '(' :: Text.join [',', ' '] args)).live = true := by
      have hhead : code.after (c :: n ++ ['(']) = code := after_of_all_isPlain rfl (fun d hd => by
        rcases List.mem_append.1 hd with hd | hd
        · exact isPlain_of_isWordChar (hn d hd)
        · obtain rfl := List.mem_singleton.1 hd
          decide) (by simp)
      rw [show c :: n ++ '(' :: Text.join [',', ' '] args = (c :: n ++ ['(']) ++ Text.join [',', ' '] args by
        simp, after_append, hhead]
      exact (mask_join fun t ht => (hargs t ht).live).2
    rw [hsplit, after_append, after_of_all_isPlain hlive (by decide) (by simp)]
    rfl
  · intro d hd
    obtain rfl : c = d := by simpa [callText] using hd
    by_contra hblank
    have := isWordChar_of_isBlank (by simpa using hblank)
    rw [hn c (by simp)] at this
    exact absurd this (by decide)
  · intro d hd
    rw [hsplit, List.getLast?_append] at hd
    obtain rfl : ')' = d := by simpa using hd
    decide
  · have hinside : nest 0 (Text.join [',', ' '] (args.map mask)) = some 0 := nest_join fun t ht => by
      obtain ⟨u, hu, rfl⟩ := List.mem_map.1 ht
      exact (hargs u hu).nested
    rw [hmask, callText, nest_append, nest_of_isWordChar_or_isBlank hword, Option.bind_some, nest_open,
      nest_append, nest_succ hinside]
    rfl
  · rw [hmask]
    exact (uncut_of_isWordChar_or_isBlank hword).append (uncut_enclosed fun t ht => by
      obtain ⟨u, hu, rfl⟩ := List.mem_map.1 ht
      exact (hargs u hu).uncut)

theorem mask_call_between (hn : IsWord n) (hargs : ∀ t ∈ args, Operand t) {a b : Text} (ha : Front a)
    (hb : Behind b) : mask (a ++ (callText n args ++ b)) =
      mask a ++ (n ++ '(' :: (mask (Text.join [',', ' '] args) ++ ')' :: mask b)) := by
  have hlive : ∀ t ∈ args, (code.after t).live = true := fun t ht => (hargs t ht).live
  rw [mask_between ha (operand_callText hn hargs).live hb, mask_callText hn.chars hlive, (mask_join hlive).1]
  simp [callText]

/-- A call is read as it is written. -/
theorem read?_callText (hn : IsWord n) (hne : args ≠ []) (hargs : ∀ t ∈ args, Operand t) {a b : Text}
    (ha : Front a) (hb : Behind b) {m : Match} (hstart : m.start = Text.width a)
    (hstop : m.stop = Text.width (a ++ n) + 1) :
    ∃ closing, matchingParen? (mask (a ++ (callText n args ++ b))) (m.stop - 1) = some closing ∧
      Call.read? (a ++ (callText n args ++ b)) (mask (a ++ (callText n args ++ b))) m closing =
        some ⟨Text.width a, Text.width (a ++ callText n args), Text.join [',', ' '] args, args, b⟩ := by
  have hopen : '('.utf8Size = 1 := by decide
  have hclose : ')'.utf8Size = 1 := by decide
  have hmask : mask (a ++ (callText n args ++ b)) =
      (mask a ++ n) ++ '(' :: (mask (Text.join [',', ' '] args) ++ ')' :: mask b) := by
    rw [mask_call_between hn hargs ha hb, List.append_assoc]
  have hnest : nest 0 (mask (Text.join [',', ' '] args)) = some 0 := by
    rw [(mask_join fun t ht => (hargs t ht).live).1]
    refine nest_join fun t ht => ?_
    obtain ⟨u, hu, rfl⟩ := List.mem_map.1 ht
    exact (hargs u hu).nested
  have hwidth : Text.width (mask a ++ n) = m.stop - 1 := by
    rw [hstop, Text.width_append, width_mask, Text.width_append, Nat.add_sub_cancel]
  have hclosing := matchingParen?_of_nest (a := mask a ++ n) (v := mask b) hnest
  rw [hwidth, ← hmask] at hclosing
  refine ⟨_, hclosing, ?_⟩
  -- the places of the two parentheses
  have hinside : Text.width (a ++ (n ++ ['('])) = m.stop := by
    rw [hstop]
    simp [hopen, Nat.add_assoc]
  have hplace : Text.width (mask a ++ n ++ '(' :: mask (Text.join [',', ' '] args)) =
      Text.width (a ++ (n ++ ['('])) + Text.width (Text.join [',', ' '] args) := by
    simp only [Text.width_append, Text.width_cons, Text.width_nil, width_mask]
    omega
  have hend : Text.width (a ++ (n ++ ['('])) + Text.width (Text.join [',', ' '] args) + 1 =
      Text.width (a ++ callText n args) := by
    simp only [callText, Text.width_append, Text.width_cons, Text.width_nil, hclose]
    omega
  have hsql : a ++ (callText n args ++ b) =
      (a ++ (n ++ ['('])) ++ Text.join [',', ' '] args ++ (')' :: b) := by
    simp [callText]
  have hslice := Text.slice?_append (a ++ (n ++ ['('])) (Text.join [',', ' '] args) (')' :: b)
  have hcut := cutAt?_join hne hargs (a := a ++ (n ++ ['('])) (b := []) (y := ')' :: b) (by simp)
  have hmaskslice := Text.slice?_append (mask a ++ n ++ ['(']) (mask (Text.join [',', ' '] args))
    (')' :: mask b)
  have hfrom := Text.from?_append (a ++ callText n args) b
  have hmask' : mask (a ++ (callText n args ++ b)) =
      mask a ++ n ++ ['('] ++ mask (Text.join [',', ' '] args) ++ ')' :: mask b := by
    rw [hmask]
    simp
  have hwidth' : Text.width (mask a ++ n ++ ['(']) = m.stop := by
    rw [← hinside]
    simp only [Text.width_append, width_mask]
    omega
  have hpos : m.stop - 1 + 1 = m.stop := by omega
  simp only [List.nil_append, ← List.append_assoc] at hcut
  rw [hplace, Call.read?, hend, hstart, splitArgs?, hpos, hmask', hinside]
  rw [hwidth', width_mask] at hmaskslice
  rw [← hsql, hinside] at hslice
  rw [List.append_assoc a (callText n args) b] at hfrom
  have hblank : args ≠ [[]] := by
    rintro rfl
    exact (hargs [] (by simp)).ne_nil rfl
  simp only [List.append_assoc a n ['('], ← hsql, hinside] at hcut
  rw [Text.width_append, hinside] at hcut
  simp only [hslice, hmaskslice, hcut, hfrom, if_neg hblank, Option.bind_eq_bind, Option.bind_some,
    Option.pure_def]

end

end DialectBridge
