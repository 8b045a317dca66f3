import DialectBridge.ToOracle.Calls
import DialectBridge.Proofs.DateMasks
import DialectBridge.Proofs.Expressions
/-!
# Number masks there and back

The .NET mask for an Oracle number mask gives that mask again, with `FM` in front. But the two dialects do not know
the same signs: a mask with a currency sign is a number mask of Oracle alone, so a `FORMAT` with such a mask goes
back as one with a date mask (`number_masks_roundTrip_iff`).
-/
namespace DialectBridge.NumberMask

/-! ## Masks -/

section
variable {t : Text} {c : Char}

theorem isNetChar_iff (hc : isOracleChar c = true) :
    isNetChar (if c = '9' then '#' else c) = true ↔ c ≠ '$' := by
  simp only [isOracleChar, Bool.or_eq_true, beq_iff_eq] at hc
  rcases hc with (((rfl | rfl) | rfl) | rfl) | rfl <;> decide

/-- A number mask of Oracle is one of .NET if and only if it has no currency sign. -/
theorem isNet_toNet_iff (h : isOracle t = true) : isNet (toNet t) = true ↔ '$' ∉ withoutFillMode t := by
  obtain ⟨hdigit, hchars⟩ := Bool.and_eq_true_iff.1 h
  rw [List.all_eq_true] at hchars
  have hany : (toNet t).any (fun c => c == '#' || c == '0') = true := by
    obtain ⟨c, hc, hdigit⟩ := List.any_eq_true.1 hdigit
    refine List.any_eq_true.2 ⟨_, List.mem_map_of_mem hc, ?_⟩
    rcases (by simpa using hdigit : c = '9' ∨ c = '0') with rfl | rfl <;> rfl
  rw [isNet, hany, Bool.true_and, toNet, List.all_eq_true, List.forall_mem_map]
  constructor
  · exact fun hnet hmem => (isNetChar_iff (hchars _ hmem)).1 (hnet _ hmem) rfl
  · exact fun hnot c hc => (isNetChar_iff (hchars c hc)).2 fun heq => hnot (heq ▸ hc)

/-- Digits come back, and what is no digit stays. -/
theorem toOracle_toNet (h : isOracle t = true) : toOracle (toNet t) = "FM" ++ withoutFillMode t := by
  obtain ⟨-, hchars⟩ := Bool.and_eq_true_iff.1 h
  rw [List.all_eq_true] at hchars
  rw [toOracle, toNet, List.map_map, List.map_congr_left (g := id), List.map_id]
  intro c hc
  have hne : c ≠ '#' := by
    rintro rfl
    exact absurd (hchars _ hc) (by decide)
  by_cases hnine : c = '9' <;> simp [hnine, hne]

theorem mem_withoutFillMode_iff {d : Char} (hd : d ∉ ['F', 'M', 'f', 'm']) : d ∈ withoutFillMode t ↔ d ∈ t := by
  simp only [List.mem_cons, List.not_mem_nil, or_false, not_or] at hd
  unfold withoutFillMode
  split <;> simp [hd]

/-- The characters of a number mask. -/
theorem mem_of_isOracle (h : isOracle t = true) (hc : c ∈ t) : c ∈ ['F', 'M', 'f', 'm', '9', '0', ',', '.', '$'] := by
  by_cases hfill : c ∈ ['F', 'M', 'f', 'm']
  · exact List.mem_append_left ['9', '0', ',', '.', '$'] hfill
  obtain ⟨-, hchars⟩ := Bool.and_eq_true_iff.1 h
  have hsign := List.all_eq_true.1 hchars c ((mem_withoutFillMode_iff hfill).2 hc)
  simp only [isOracleChar, Bool.or_eq_true, beq_iff_eq] at hsign
  rcases hsign with (((rfl | rfl) | rfl) | rfl) | rfl <;> decide

/-- The characters of the .NET mask for a number mask. -/
theorem mem_of_mem_toNet (h : isOracle t = true) (hc : c ∈ toNet t) : c ∈ ['#', '0', ',', '.', '$'] := by
  obtain ⟨-, hchars⟩ := Bool.and_eq_true_iff.1 h
  obtain ⟨d, hd, rfl⟩ := List.mem_map.1 hc
  have hsign := List.all_eq_true.1 hchars d hd
  simp only [isOracleChar, Bool.or_eq_true, beq_iff_eq] at hsign
  rcases hsign with (((rfl | rfl) | rfl) | rfl) | rfl <;> decide

end

end DialectBridge.NumberMask

namespace DialectBridge
open Pattern LexState

/-! ## Literals as arguments -/

def literal (t : Text) : Text := '\'' :: (t ++ ['\''])

section
variable {t v a b m : Text} {names : List String}

theorem unquote?_literal (t : Text) : unquote? (literal t) = some t := by
  simp [literal, unquote?]

theorem operand_literal (h : '\'' ∉ t) (hamp : '&' ∉ t) : Operand (literal t) := (ToTsql.isAtom_literal h hamp).operand

/-- A place in a query for a call with the value `v` and a literal: none of the names is around. -/
structure Site (names : List String) (a v b : Text) : Prop where
  front : Front a
  behind : Behind b
  value : Operand v
  spares : ∀ t ∈ [a, v, b], Spares names (mask t)

theorem callText_literal (n v m : Text) : callText n [v, literal m] = n ++ ("(" ++ v ++ ", '" ++ m ++ "')") := by
  simp [callText, Text.join, List.intercalate, literal]

/-- No name is spelled by the code of a literal, in which there are no word characters. -/
theorem spares_spaces (hnames : ∀ n ∈ names, isName n.toList = true) (k : Nat) :
    Spares names ('\'' :: (Text.spaces k ++ ['\''])) := by
  intro p hp n hn hspelled
  obtain ⟨c, p, rfl⟩ := List.exists_cons_of_ne_nil (ne_nil_of_mem_pieces hp)
  have hmem : c ∈ '\'' :: (Text.spaces k ++ ['\'']) := by
    rw [← flatten_pieces ('\'' :: _)]
    exact List.mem_flatten_of_mem hp (by simp)
  have hword := hspelled.isWordChar (hnames n hn) c (by simp)
  simp only [Text.spaces, List.mem_cons, List.mem_append, List.mem_replicate, List.not_mem_nil, or_false] at hmem
  rcases hmem with rfl | ⟨-, rfl⟩ | rfl <;> exact absurd hword (by decide)

theorem spares_literal (hnames : ∀ n ∈ names, isName n.toList = true) (h : '\'' ∉ m) : Spares names (mask (literal m)) := by
  have hmask : mask (literal m) = '\'' :: (Text.spaces (Text.width m) ++ ['\'']) := mask_quoted (q := .single) h
  rw [hmask]
  exact spares_spaces hnames _

theorem Site.operands (h : Site names a v b) (hm : '\'' ∉ m) (hamp : '&' ∉ m) : ∀ t ∈ [v, literal m], Operand t := by
  simpa using ⟨h.value, operand_literal hm hamp⟩

/-- Around the call and in its arguments there is none of the names. -/
theorem Site.spares_around (hnames : ∀ n ∈ names, isName n.toList = true) (h : Site names a v b) (hm : '\'' ∉ m) :
    ∀ t ∈ [a, b, v, literal m], Spares names (mask t) := by
  have hliteral := spares_literal hnames hm
  have := h.spares
  simp only [List.forall_mem_cons, List.not_mem_nil, false_imp_iff, implies_true, and_true] at this ⊢
  exact ⟨this.1, this.2.2, this.2.1, hliteral⟩

/-- A name that is not that of the call is nowhere in the text with the call. -/
theorem Site.spares_call (hnames : ∀ n ∈ names, isName n.toList = true) (h : Site names a v b) {n : Text}
    (hn : IsWord n) {name : String} (hname : name ∈ names) (hne : ¬ Spelled name.toList n) (hm : '\'' ∉ m)
    (hamp : '&' ∉ m) : Spares [name] (mask (a ++ (callText n [v, literal m] ++ b))) := by
  have haround : ∀ t ∈ [a, b, v, literal m], Spares [name] (mask t) := fun t ht =>
    (h.spares_around hnames hm t ht).mono (by simpa using hname)
  simp only [List.forall_mem_cons] at haround
  obtain ⟨ha, hb, hv, hliteral, -⟩ := haround
  have hargs := h.operands hm hamp
  have hcall : Spares [name] (mask (callText n [v, literal m])) := by
    intro p hp k hk
    obtain rfl := List.mem_singleton.1 hk
    rw [mask_callText hn.chars fun t ht => (hargs t ht).live] at hp
    rcases mem_pieces_callText hn hp with rfl | ⟨t, ht, hp⟩ | hp
    · exact hne
    · simp only [List.map_cons, List.map_nil, List.mem_cons, List.not_mem_nil, or_false] at ht
      rcases ht with rfl | rfl
      · exact hv p hp _ hk
      · exact hliteral p hp _ hk
    · have hsigns : ∀ c ∈ ['(', ')', ',', ' '], Unicode.isWordChar c = false := by decide
      obtain ⟨c, hc, rfl⟩ : ∃ c ∈ ['(', ')', ',', ' '], p = [c] := by simpa using hp
      exact not_spelled_singleton (hnames k hname) (hsigns c hc)
  have hends : endsInWord (mask a) = false := by
    rw [endsInWord_mask (by rw [h.front.code]; rfl)]
    exact h.front.left
  have hbegins : beginsInWord (mask b) = false := (beginsInWord_mask b).trans h.behind.right
  rw [mask_between h.front (operand_callText hn hargs).live h.behind]
  exact ToTsql.spares_append ha (ToTsql.spares_append hcall hb (.of_begins hbegins _)) (.of_ends hends _)

/-! ## The rules -/

def conversionNames : List String := ["TO_CHAR", "TO_DATE", "TO_NUMBER", "CONVERT", "FORMAT"]

/-- `TO_CHAR` with a number mask becomes a `FORMAT`. -/
theorem conversionFunctions_toChar (h : Site conversionNames a v b) (hm : NumberMask.isOracle m = true) :
    ToTsql.conversionFunctions (a ++ (callText "TO_CHAR".toList [v, literal m] ++ b)) = do
      warn .dateFormat ("TO_CHAR number format '" ++ m ++ "' converted to FORMAT(). Verify rounding and padding.")
      return a ++ (callText "FORMAT".toList [v, literal (NumberMask.toNet m)] ++ b) := by
  have hquote : '\'' ∉ m := fun hc => absurd (NumberMask.mem_of_isOracle hm hc) (by decide)
  have hamp : '&' ∉ m := fun hc => absurd (NumberMask.mem_of_isOracle hm hc) (by decide)
  have hquote' : '\'' ∉ NumberMask.toNet m := fun hc => absurd (NumberMask.mem_of_mem_toNet hm hc) (by decide)
  have hamp' : '&' ∉ NumberMask.toNet m := fun hc => absurd (NumberMask.mem_of_mem_toNet hm hc) (by decide)
  have hnames : ∀ n ∈ conversionNames, isName n.toList = true := by decide
  have hformat : IsWord "FORMAT".toList := isWord_of_isName (by decide)
  have hchar : ToTsql.toChar (a ++ (callText "TO_CHAR".toList [v, literal m] ++ b)) = do
      warn .dateFormat ("TO_CHAR number format '" ++ m ++ "' converted to FORMAT(). Verify rounding and padding.")
      return a ++ (callText "FORMAT".toList [v, literal (NumberMask.toNet m)] ++ b) := by
    refine replaceCalls_between (by decide) (spelled_self _) (by simp) h.front h.behind (h.operands hquote hamp)
      (fun t ht p hp => h.spares_around hnames hquote t ht p hp "TO_CHAR" (by decide)) fun call _ hargs => ?_
    simp only [hargs, unquote?_literal, hm, if_true, callText_literal]
    rfl
  have hdate : ToTsql.toDate (a ++ (callText "FORMAT".toList [v, literal (NumberMask.toNet m)] ++ b)) = pure _ :=
    ToTsql.replaceCalls_of_spares (by decide) (h.spares_call hnames hformat (by decide) (by decide) hquote' hamp')
  have hnumber : ToTsql.toNumber (a ++ (callText "FORMAT".toList [v, literal (NumberMask.toNet m)] ++ b)) = pure _ :=
    ToTsql.replaceCalls_of_spares (by decide) (h.spares_call hnames hformat (by decide) (by decide) hquote' hamp')
  rw [ToTsql.conversionFunctions, hchar]
  simp only [bind_assoc, pure_bind, hdate, hnumber]

/-- `FORMAT` with a mask becomes a `TO_CHAR`, whose mask is a number mask only if that of the `FORMAT` is one. -/
theorem conversionFunctions_format (h : Site conversionNames a v b) (hquote : '\'' ∉ m) (hamp : '&' ∉ m) :
    ToOracle.conversionFunctions (a ++ (callText "FORMAT".toList [v, literal m] ++ b)) =
      pure (a ++ (callText "TO_CHAR".toList
        [v, literal (if NumberMask.isNet m then NumberMask.toOracle m else DateMask.toOracle m)] ++ b)) := by
  have hnames : ∀ n ∈ conversionNames, isName n.toList = true := by decide
  have hconvert := h.spares_call hnames (isWord_of_isName (by decide : isName "FORMAT".toList = true))
    (by decide : "CONVERT" ∈ conversionNames) (by decide) hquote hamp
  rw [ToOracle.conversionFunctions, ToTsql.replaceCalls_of_spares (by decide) hconvert, pure_bind]
  refine (replaceCalls_between (e := pure ()) (by decide) (spelled_self _) (by simp) h.front h.behind
    (h.operands hquote hamp) (fun t ht p hp => h.spares_around hnames hquote t ht p hp "FORMAT" (by decide))
    fun call _ hargs => ?_).trans (pure_bind _ _)
  simp only [hargs, unquote?_literal, callText_literal, pure_bind]
  rfl

end

namespace NumberMask

/-- The .NET mask for a number mask of Oracle gives the mask again, with `FM` in front, and it is itself a number mask
if and only if it has no currency sign: then `TO_CHAR` with the mask goes to `FORMAT` and back, wherever it stands; or
else the reverse rule reads the mask of the `FORMAT` as a date mask, and leaves it in the spelling of .NET. -/
theorem number_masks_roundTrip_iff {m : Text} (hm : isOracle m = true) :
    toOracle (toNet m) = "FM" ++ withoutFillMode m ∧ (isNet (toNet m) = true ↔ '$' ∉ m) ∧
    ∀ a v b : Text, Site conversionNames a v b →
      ToTsql.conversionFunctions (a ++ (callText "TO_CHAR".toList [v, literal m] ++ b)) = (do
        warn .dateFormat ("TO_CHAR number format '" ++ m ++ "' converted to FORMAT(). Verify rounding and padding.")
        return a ++ (callText "FORMAT".toList [v, literal (toNet m)] ++ b)) ∧
      ToOracle.conversionFunctions (a ++ (callText "FORMAT".toList [v, literal (toNet m)] ++ b)) =
        pure (a ++ (callText "TO_CHAR".toList
          [v, literal (if '$' ∈ m then toNet m else "FM" ++ withoutFillMode m)] ++ b)) := by
  have hdollar : isNet (toNet m) = true ↔ '$' ∉ m :=
    (isNet_toNet_iff hm).trans (not_congr (mem_withoutFillMode_iff (by decide)))
  refine ⟨toOracle_toNet hm, hdollar, fun a v b h => ⟨conversionFunctions_toChar h hm, ?_⟩⟩
  have hback := conversionFunctions_format h (fun hc => absurd (mem_of_mem_toNet hm hc) (by decide))
    fun hc => absurd (mem_of_mem_toNet hm hc) (by decide)
  by_cases hmem : '$' ∈ m
  · have hkept : DateMask.toOracle (toNet m) = toNet m := DateMask.toOracle_of_not_isAlpha fun c hc =>
      (by decide : ∀ c ∈ ['#', '0', ',', '.', '$'], c.isAlpha = false) c (mem_of_mem_toNet hm hc)
    simpa [hdollar, hmem, hkept] using hback
  · simpa [hdollar, hmem, toOracle_toNet hm] using hback

/-- A query with masks of both kinds. -/
theorem number_masks_roundTrip_iff_amounts :
    (isOracle "FM999,990.00".toList = true ∧ isNet (toNet "FM999,990.00".toList) = true ∧
      ToOracle.conversionFunctions "SELECT FORMAT(price, '###,##0.00') FROM t".toList =
        pure "SELECT TO_CHAR(price, 'FM999,990.00') FROM t".toList) ∧
    (isOracle "$9".toList = true ∧ isNet (toNet "$9".toList) = false ∧
      ToOracle.conversionFunctions "SELECT FORMAT(price, '$#') FROM t".toList =
        pure "SELECT TO_CHAR(price, '$#') FROM t".toList) := by
  have hplaces : ∀ t ∈ ["SELECT ".toList, "price".toList, " FROM t".toList],
      (∀ c ∈ t, isPlain c = true) ∧ Spares conversionNames t := by decide
  have hsite : Site conversionNames "SELECT ".toList "price".toList " FROM t".toList := by
    refine ⟨⟨by decide, by decide⟩, ⟨by decide, by decide⟩, operand_word (isWord_of_isName (by decide)), fun t ht => ?_⟩
    obtain ⟨hplain, hspares⟩ := hplaces t ht
    rwa [mask_of_all_isPlain hplain]
  have hplain := number_masks_roundTrip_iff (m := "FM999,990.00".toList) (by decide)
  have hdollar := number_masks_roundTrip_iff (m := "$9".toList) (by decide)
  exact ⟨⟨by decide, hplain.2.1.2 (by decide), (hplain.2.2 _ _ _ hsite).2⟩,
    by decide, by decide, (hdollar.2.2 _ _ _ hsite).2⟩

/-- Not every number mask of Oracle becomes one of .NET. -/
theorem number_mask_dollar : ¬ ∀ m : Text, isOracle m = true →
    isNet (toNet m) = true ∧ toOracle (toNet m) = "FM" ++ withoutFillMode m := fun h => by
  have hnet := (h "$9".toList (by decide)).1
  exact absurd hnet (by decide)

end NumberMask

end DialectBridge
