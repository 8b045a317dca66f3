import DialectBridge.Format.DateMask
import Mathlib.Data.List.Find
import Mathlib.Tactic.Common
/-!
# Date masks there and back

A date mask is a list of tokens with separators around them: characters that are no ASCII letters or digits.
A token is read whole if no other token of the table comes before it (`Reading`), whatever separators stand behind
it, and so a mask is spelled token by token (`respellFrom_maskText`). The tables are inverse to each other on the
sixteen tokens that .NET knows (`date_masks_roundTrip`).
-/
namespace DialectBridge.DateMask

/-- The Oracle tokens that .NET has a token of its own for. -/
def sharedTokens : List String :=
  ["YYYY", "YYY", "YY", "MONTH", "MON", "MM", "DAY", "DY", "DD", "HH24", "HH12", "MI", "SS", "FF3", "FF", "AM"]

/-- Whether `c` separates tokens: it is no ASCII letter or digit. -/
def isSeparator (c : Char) : Bool := !c.isAlphanum

/-- What stands in front of the tokens, and each token with what stands behind it. -/
def maskText (lead : Text) (items : List (Text × Text)) : Text :=
  lead ++ items.flatMap fun item => item.1 ++ item.2

/-- Separators stand around the tokens, and at least one between two tokens. -/
structure Separated (lead : Text) (items : List (Text × Text)) : Prop where
  lead : ∀ c ∈ lead, isSeparator c = true
  gaps : ∀ item ∈ items, ∀ c ∈ item.2, isSeparator c = true
  between : ∀ item ∈ items.dropLast, item.2 ≠ []

instance (lead : Text) (items : List (Text × Text)) : Decidable (Separated lead items) :=
  decidable_of_iff ((∀ c ∈ lead, isSeparator c = true) ∧ (∀ item ∈ items, ∀ c ∈ item.2, isSeparator c = true) ∧
      ∀ item ∈ items.dropLast, item.2 ≠ [])
    ⟨fun h => ⟨h.1, h.2.1, h.2.2⟩, fun h => ⟨h.lead, h.gaps, h.between⟩⟩

/-- The first token of the table that `old` begins with is all of it, and is spelled `new`. -/
def Reading (tokens : List (String × String)) (fold : Bool) (old new : Text) : Prop :=
  old ≠ [] ∧ ∃ e ∈ tokens.find? fun e => begins fold e.1 old, e.1.length = old.length ∧ e.2.toList = new

instance (tokens : List (String × String)) (fold : Bool) (old new : Text) :
    Decidable (Reading tokens fold old new) :=
  inferInstanceAs (Decidable (_ ∧ _))

/-! ## Letters -/

/-- A letter in lower case is that letter, and stays a letter. -/
theorem toUpper_toLower_and_isAlphanum (c : Char) :
    c.toLower.toUpper = c.toUpper ∧ c.toLower.isAlphanum = c.isAlphanum := by
  by_cases hc : c.val ≥ 'A'.val ∧ c.val ≤ 'Z'.val
  · have hle : c.toNat ≤ 'Z'.toNat := UInt32.le_iff_toNat_le.1 hc.2
    exact of_ascii (p := fun c => c.toLower.toUpper = c.toUpper ∧ c.toLower.isAlphanum = c.isAlphanum)
      (by decide +kernel) c (Nat.lt_of_le_of_lt hle (by decide))
  · have hlower : c.toLower = c := dif_neg hc
    simp [hlower]

section
variable {a b : Text}

theorem upper_lower (t : Text) : Text.upper (Text.lower t) = Text.upper t := by
  rw [Text.upper, Text.upper, Text.lower, List.map_map]
  exact List.map_congr_left fun c _ => (toUpper_toLower_and_isAlphanum c).1

theorem length_eq_of_sameLetters (h : Text.sameLetters a b = true) : a.length = b.length := by
  simpa [Text.lower] using congrArg List.length (eq_of_beq h)

theorem upper_eq_of_sameLetters (h : Text.sameLetters a b = true) : Text.upper a = Text.upper b := by
  rw [← upper_lower a, ← upper_lower b, eq_of_beq h]

/-- A text of letters and digits has, up to case, only such characters. -/
theorem all_isAlphanum_of_sameLetters (h : Text.sameLetters a b = true) (ha : ∀ c ∈ a, c.isAlphanum = true) :
    ∀ c ∈ b, c.isAlphanum = true := fun c hc => by
  have hmem : c.toLower ∈ Text.lower a := eq_of_beq h ▸ List.mem_map_of_mem hc
  obtain ⟨d, hd, hlower⟩ := List.mem_map.1 hmem
  rw [← (toUpper_toLower_and_isAlphanum c).2, ← hlower, (toUpper_toLower_and_isAlphanum d).2]
  exact ha d hd

end

/-! ## What a token begins -/

section
variable {tokens : List (String × String)} {fold : Bool} {c : Char} {old new token t rest lead : Text}

/-- With or without regard to case, what a token of letters and digits begins has only these at the front. -/
theorem head_of_begins (h : begins fold token t = true) :
    (t.take token.length).length = token.length ∧
      ((∀ c ∈ token, c.isAlphanum = true) → ∀ c ∈ t.take token.length, c.isAlphanum = true) := by
  cases fold with
  | false =>
    have heq : token = t.take token.length := by simpa [begins] using h
    rw [← heq]
    exact ⟨rfl, id⟩
  | true => exact ⟨(length_eq_of_sameLetters h).symm, all_isAlphanum_of_sameLetters h⟩

theorem begins_congr (h : t.take token.length = rest.take token.length) :
    begins fold token t = begins fold token rest := by
  simp [begins, h]

/-- No token of letters and digits reaches over the end of `old` into separators. -/
theorem begins_append (htoken : ∀ c ∈ token, c.isAlphanum = true) (hrest : ∀ c ∈ rest.head?, isSeparator c = true) :
    begins fold token (old ++ rest) = begins fold token old := by
  rcases Nat.lt_or_ge old.length token.length with hlt | hle
  swap
  · exact begins_congr (List.take_append_of_le_length hle)
  cases rest with
  | nil => simp
  | cons c rest =>
    -- the separator would stand in the token, and `old` is too short for it
    have hseparator : isSeparator c = true := hrest c rfl
    have hnot : begins fold token (old ++ c :: rest) ≠ true := fun h => by
      obtain ⟨k, hk⟩ : ∃ k, token.length - old.length = k + 1 := ⟨token.length - old.length - 1, by omega⟩
      have hmem : c ∈ (old ++ c :: rest).take token.length := by simp [List.take_append, hk]
      simp [isSeparator, (head_of_begins h).2 htoken c hmem] at hseparator
    have hshort : begins fold token old ≠ true := fun h => by
      have hlength := (head_of_begins h).1
      rw [List.length_take] at hlength
      omega
    rw [Bool.eq_false_iff.2 hnot, Bool.eq_false_iff.2 hshort]

end

/-! ## Masks are spelled token by token -/

/-- The tokens of a table are made of letters and digits, and there is something of each. -/
def Alphanumeric (tokens : List (String × String)) : Prop :=
  ∀ e ∈ tokens, e.1.toList ≠ [] ∧ ∀ c ∈ e.1.toList, c.isAlphanum = true

instance (tokens : List (String × String)) : Decidable (Alphanumeric tokens) :=
  inferInstanceAs (Decidable (∀ e ∈ tokens, _))

section
variable {tokens : List (String × String)} {fold : Bool} {c : Char} {old new t rest lead : Text}
  {items : List (Text × Text)}

theorem respellFrom_length (t rest : Text) :
    respellFrom tokens fold t.length (t ++ rest) = respellFrom tokens fold 0 rest := by
  induction t with
  | nil => rfl
  | cons c t ih => exact ih

/-- A character with which no token begins stays. -/
theorem respellFrom_cons (h : ∀ e ∈ tokens, begins fold e.1 (c :: t) = false) :
    respellFrom tokens fold 0 (c :: t) = c :: respellFrom tokens fold 0 t := by
  have hnone : tokens.find? (fun e => begins fold e.1 (c :: t)) = none := List.find?_eq_none.2 (by simpa using h)
  rw [respellFrom, hnone]

theorem respellFrom_separator (htable : Alphanumeric tokens) (hc : isSeparator c = true) (t : Text) :
    respellFrom tokens fold 0 (c :: t) = c :: respellFrom tokens fold 0 t := by
  refine respellFrom_cons fun e he => Bool.eq_false_iff.2 fun hbegins => ?_
  obtain ⟨hne, hletters⟩ := htable e he
  have hempty : begins fold e.1 ([] ++ c :: t) = begins fold e.1 [] := begins_append hletters fun d hd => by
    obtain rfl := Option.some.inj hd
    exact hc
  rw [List.nil_append, hbegins] at hempty
  exact hne (List.eq_nil_of_length_eq_zero (by simpa using (head_of_begins hempty.symm).1.symm))

theorem respellFrom_separators (htable : Alphanumeric tokens) (hlead : ∀ c ∈ lead, isSeparator c = true) (t : Text) :
    respellFrom tokens fold 0 (lead ++ t) = lead ++ respellFrom tokens fold 0 t := by
  induction lead with
  | nil => rfl
  | cons c lead ih =>
    rw [List.cons_append, respellFrom_separator htable (hlead c (by simp)),
      ih fun d hd => hlead d (List.mem_cons_of_mem c hd), List.cons_append]

/-- A token is spelled anew, and the mask is read on behind it. -/
theorem Reading.respellFrom_append (htable : Alphanumeric tokens) (h : Reading tokens fold old new)
    (hrest : ∀ c ∈ rest.head?, isSeparator c = true) :
    respellFrom tokens fold 0 (old ++ rest) = new ++ respellFrom tokens fold 0 rest := by
  obtain ⟨hne, e, he, hlength, rfl⟩ := h
  have hsame : tokens.find? (fun e => begins fold e.1 (old ++ rest)) = some e :=
    (List.find?_congr fun k hk => begins_append (htable k hk).2 hrest).trans he
  cases old with
  | nil => exact absurd rfl hne
  | cons c old =>
    rw [List.cons_append, respellFrom, ← List.cons_append, hsame]
    simp only [hlength, List.length_cons, Nat.add_one_sub_one, respellFrom_length]

theorem Reading.respellFrom_eq (htable : Alphanumeric tokens) (h : Reading tokens fold old new) :
    respellFrom tokens fold 0 old = new := by
  have hwhole : respellFrom tokens fold 0 (old ++ []) = _ := h.respellFrom_append htable (by simp)
  simpa [respellFrom] using hwhole

/-- A mask whose tokens can all be read is spelled token by token, and its separators stay. -/
theorem respellFrom_maskText (htable : Alphanumeric tokens) (h : Separated lead items)
    (hreads : ∀ item ∈ items, ∃ new, Reading tokens fold item.1 new) :
    respellFrom tokens fold 0 (maskText lead items) =
      maskText lead (items.map fun item => (respellFrom tokens fold 0 item.1, item.2)) := by
  rw [maskText, maskText, respellFrom_separators htable h.lead]
  congr 1
  obtain ⟨-, hgaps, hbetween⟩ := h
  induction items with
  | nil => rfl
  | cons item items ih =>
    have htail := ih (fun i hi => hreads i (List.mem_cons_of_mem _ hi))
      (fun i hi => hgaps i (List.mem_cons_of_mem _ hi)) fun i hi => hbetween i (by
        cases items with
        | nil => simp at hi
        | cons _ _ => exact List.mem_cons_of_mem _ hi)
    have hgap := hgaps item (by simp)
    have hfront : ∀ c ∈ (item.2 ++ items.flatMap fun i => i.1 ++ i.2).head?, isSeparator c = true := by
      intro c hc
      cases hitem : item.2 with
      | cons d gap =>
        rw [hitem] at hc hgap
        obtain rfl := Option.some.inj hc
        exact hgap d (by simp)
      | nil =>
        cases items with
        | nil => simp [hitem] at hc
        | cons i items => exact absurd hitem (hbetween item (by simp))
    obtain ⟨new, hnew⟩ := hreads item (by simp)
    rw [List.flatMap_cons, List.append_assoc, hnew.respellFrom_append htable hfront,
      respellFrom_separators htable hgap, htail, List.map_cons, List.flatMap_cons, List.append_assoc,
      hnew.respellFrom_eq htable]

theorem Separated.map (h : Separated lead items) (f : Text → Text) :
    Separated lead (items.map fun item => (f item.1, item.2)) where
  lead := h.lead
  gaps := List.forall_mem_map.2 h.gaps
  between := by
    rw [← List.map_dropLast]
    exact List.forall_mem_map.2 h.between

/-- Spelled by one table and then by another, each token becomes what the second makes of it. -/
theorem respellFrom_respellFrom {tokens' : List (String × String)} {fold' : Bool} {back : Text → Text}
    (htable : Alphanumeric tokens) (htable' : Alphanumeric tokens') (h : Separated lead items)
    (hreads : ∀ item ∈ items, ∃ new, Reading tokens fold item.1 new ∧ Reading tokens' fold' new (back item.1)) :
    respellFrom tokens' fold' 0 (respellFrom tokens fold 0 (maskText lead items)) =
      maskText lead (items.map fun item => (back item.1, item.2)) := by
  have hthere : ∀ item ∈ items, ∃ new, Reading tokens fold item.1 new := fun item hitem =>
    (hreads item hitem).imp fun _ hnew => hnew.1
  have hback : ∀ item ∈ items, Reading tokens' fold' (respellFrom tokens fold 0 item.1) (back item.1) :=
    fun item hitem => by
      obtain ⟨new, hnew, hold⟩ := hreads item hitem
      rwa [hnew.respellFrom_eq htable]
  rw [respellFrom_maskText htable h hthere, respellFrom_maskText htable' (h.map _)
    (List.forall_mem_map.2 fun item hitem => ⟨_, hback item hitem⟩), List.map_map]
  congr 1
  exact List.map_congr_left fun item hitem => by
    rw [Function.comp_apply, (hback item hitem).respellFrom_eq htable']

/-- Where case does not count, a token may be written in either. -/
theorem Reading.of_sameLetters (h : Reading tokens true old new) (hsame : Text.sameLetters old t = true) :
    Reading tokens true t new := by
  obtain ⟨hne, e, he, hlength, hnew⟩ := h
  have hlengths := length_eq_of_sameLetters hsame
  have hbegins : (fun k : String × String => begins true k.1 t) = fun k => begins true k.1 old := by
    funext k
    have htake := congrArg (List.take k.1.toList.length) (eq_of_beq hsame).symm
    simp only [Text.lower, ← List.map_take] at htake
    simp only [begins, Text.sameLetters, Text.lower, if_true, htake]
  refine ⟨fun hnil => hne (List.eq_nil_of_length_eq_zero (by rw [hlengths, hnil]; rfl)), e, ?_,
    hlength.trans hlengths, hnew⟩
  rwa [hbegins]

end

/-! ## The two tables -/

theorem alphanumeric_oracleTokens : Alphanumeric oracleTokens := by decide

theorem alphanumeric_netTokens : Alphanumeric netTokens := by decide

/-- Each row of the .NET table is read from left to right there, and from right to left in the Oracle table. -/
theorem reading_netTokens : ∀ e ∈ netTokens,
    Reading netTokens false e.1 e.2 ∧ Reading oracleTokens true e.2 e.1 := by decide

/-- The right side of the .NET table holds the shared tokens. -/
theorem exists_netToken : ∀ token ∈ sharedTokens, Text.upper token = token.toList ∧ ∃ e ∈ netTokens, e.2 = token := by
  decide

/-- Without letters nothing is a token of .NET. -/
theorem toOracle_of_not_isAlpha {t : Text} (h : ∀ c ∈ t, c.isAlpha = false) : toOracle t = t := by
  have hletters : ∀ e ∈ netTokens, ∃ c, e.1.toList.head? = some c ∧ c.isAlpha = true := by decide
  induction t with
  | nil => rfl
  | cons c t ih =>
    rw [toOracle, respellFrom_cons, ← toOracle, ih fun d hd => h d (List.mem_cons_of_mem c hd)]
    refine fun e he => Bool.eq_false_iff.2 fun hbegins => ?_
    obtain ⟨d, hd, halpha⟩ := hletters e he
    -- the token begins with the character that the text begins with
    have heq : e.1.toList = (c :: t).take e.1.toList.length := by simpa [begins] using hbegins
    have hc : c = d := by
      rw [heq, List.head?_take] at hd
      split at hd
      · cases hd
      · exact Option.some.inj hd
    rw [← hc, h c (by simp)] at halpha
    cases halpha

/-- Masks of tokens with separators between them come back from the other side: Oracle masks in upper case, and
.NET masks as they were. -/
theorem date_masks_roundTrip :
    (∀ lead items, Separated lead items →
      (∀ item ∈ items, ∃ token ∈ sharedTokens, Text.sameLetters token item.1 = true) →
      toOracle (toNet (maskText lead items)) = maskText lead (items.map fun item => (Text.upper item.1, item.2))) ∧
    (∀ lead items, Separated lead items → (∀ item ∈ items, item.1 ∈ netTokens.map fun e => e.1.toList) →
      toNet (toOracle (maskText lead items)) = maskText lead items) := by
  constructor
  · intro lead items hseparated htokens
    refine respellFrom_respellFrom alphanumeric_oracleTokens alphanumeric_netTokens hseparated fun item hitem => ?_
    obtain ⟨token, htoken, hsame⟩ := htokens item hitem
    obtain ⟨hupper, e, he, rfl⟩ := exists_netToken token htoken
    obtain ⟨hback, hforth⟩ := reading_netTokens e he
    exact ⟨_, hforth.of_sameLetters hsame, by rwa [← upper_eq_of_sameLetters hsame, hupper]⟩
  · intro lead items hseparated htokens
    have hround : toNet (toOracle (maskText lead items)) = maskText lead (items.map fun item => (id item.1, item.2)) :=
      respellFrom_respellFrom alphanumeric_netTokens alphanumeric_oracleTokens hseparated fun item hitem => by
        obtain ⟨e, he, heq⟩ := List.mem_map.1 (htokens item hitem)
        obtain ⟨hforth, hback⟩ := reading_netTokens e he
        exact ⟨_, heq ▸ hforth, heq ▸ hback⟩
    simpa using hround

/-- Masks with separators outside ASCII. -/
theorem date_masks_roundTrip_of_dates :
    (let items := [("dd".toList, "°".toList), ("Mon".toList, " – ".toList), ("YYYY".toList, ", ".toList),
        ("hh24".toList, ":".toList), ("mI".toList, [])]
    Separated "[".toList items ∧ (∀ item ∈ items, ∃ token ∈ sharedTokens, Text.sameLetters token item.1 = true) ∧
      toOracle (toNet (maskText "[".toList items)) = "[DD°MON – YYYY, HH24:MI".toList) ∧
    (let items := [("dddd".toList, ", ".toList), ("MMMM".toList, "·".toList), ("fffffff".toList, [])]
    Separated [] items ∧ (∀ item ∈ items, item.1 ∈ netTokens.map fun e => e.1.toList) ∧
      toNet (toOracle (maskText [] items)) = "dddd, MMMM·fffffff".toList) :=
  ⟨⟨by decide, by decide, (date_masks_roundTrip.1 _ _ (by decide) (by decide)).trans (by decide)⟩,
    by decide, by decide, (date_masks_roundTrip.2 _ _ (by decide) (by decide)).trans (by decide)⟩

end DialectBridge.DateMask
