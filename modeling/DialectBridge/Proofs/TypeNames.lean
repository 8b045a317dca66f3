import DialectBridge.Proofs.CastParts
/-!
# Type names there and back

A type that the T-SQL spelling was found for keeps this spelling when it goes to Oracle and back
(`spellTsql_spellOracle`). What `toTsql?` gives is a type of characters, a number or one of few fixed names
(`TsqlName`), and the patterns of the other direction read it as it is written (`exists_find?_charType`,
`exists_find?_numberType`).
-/
namespace DialectBridge.DataType
open Pattern Cursor

/-- A type in the spelling of T-SQL, or as it is. -/
def spellTsql (type : Text) : Text := (toTsql? type).getD type

/-- A type in the spelling of Oracle, or as it is. -/
def spellOracle (type : Text) : Text := (toOracle? type).getD type

section
variable {name n n' k d d' t p : Text} {q r : Pattern}

/-! ## Types of characters -/

/-- A type of characters as it is written, with nothing around its length. -/
def charName (n name d : Text) : Text := n ++ (name ++ '(' :: (d ++ [')']))

theorem isBlank_of_digit {c : Char} (h : CharSet.digit.contains c = true) : Unicode.isBlank c = false :=
  isBlank_of_isWordChar (isWordChar_of_isDigit h)

/-- The mark for national types and the name. -/
theorem isWordChar_of_charName (hname : isName name = true) (hn : n = [] ∨ Spelled "N".toList n)
    (hk : Spelled name k) : ∀ c ∈ n ++ k, Unicode.isWordChar c = true := by
  intro c hc
  rcases List.mem_append.1 hc with hc | hc
  · rcases hn with rfl | hn
    · simp at hc
    · exact hn.isWordChar (by decide) c hc
  · exact hk.isWordChar hname c hc

theorem paren_not_mem {l : Text} (h : ∀ c ∈ l, Unicode.isWordChar c = true ∨ Unicode.isBlank c = true) : '(' ∉ l := by
  intro hmem
  rcases h _ hmem with h | h
  · exact absurd h (by decide)
  · exact absurd h (by decide)

/-- A word in front of the first parenthesis is the name of the type. -/
theorem IsCharType.name_eq {w v : Text} (hname : isName name = true) (hw : ∀ c ∈ w, Unicode.isWordChar c = true)
    (h : IsCharType name (w ++ '(' :: v) n d) : ∃ k b y, w = n ++ k ∧ (n = [] ∨ Spelled "N".toList n) ∧ Spelled name k ∧
      v = b ++ (d ++ (y ++ [')'])) ∧ (∀ c ∈ b, Unicode.isBlank c = true) ∧ ∀ c ∈ y.head?, Unicode.isBlank c = true := by
  obtain ⟨k, b, b', y, hsplit, hn, hk, hb, hb', hy⟩ := h
  have hsplit : w ++ '(' :: v = n ++ k ++ b ++ '(' :: (b' ++ (d ++ (y ++ [')']))) := by simpa using hsplit
  obtain ⟨rfl, rfl⟩ := Text.append_cons_inj hsplit (paren_not_mem fun c hc => .inl (hw c hc))
    (paren_not_mem fun c hc => (List.mem_append.1 hc).imp (isWordChar_of_charName hname hn hk c) (hb c))
  obtain rfl : b = [] := by
    rw [List.eq_nil_iff_forall_not_mem]
    intro c hc
    have := isBlank_of_isWordChar (hw c (by simp [hc]))
    simp [hb c hc] at this
  exact ⟨k, b', y, by simp, hn, hk, rfl, hb', hy⟩

/-- The parts of a type of characters are found in one way only. -/
theorem charName_inj (hname : isName name = true) (hn : n = [] ∨ Spelled "N".toList n)
    (hd : d ≠ [] ∧ ∀ c ∈ d, CharSet.digit.contains c = true) (h : IsCharType name (charName n name d) n' d') :
    n' = n ∧ d' = d := by
  have hsplit : charName n name d = n ++ name ++ '(' :: (d ++ [')']) := by simp [charName]
  rw [hsplit] at h
  obtain ⟨k, b, y, hhead, -, hk, hlength, hb, hy⟩ :=
    h.name_eq hname (isWordChar_of_charName hname hn (spelled_self name))
  obtain ⟨rfl, -⟩ := List.append_inj' hhead (List.Forall₂.length_eq hk)
  obtain ⟨e, d, rfl⟩ := List.exists_cons_of_ne_nil hd.1
  obtain rfl := eq_nil_of_blanks_append hb (isBlank_of_digit (hd.2 e (by simp))) hlength.symm
  have hlength : e :: d ++ [')'] = d' ++ y ++ [')'] := by simpa using hlength
  have hlength : e :: d = d' ++ y := List.append_cancel_right hlength
  cases y with
  | nil => exact ⟨rfl, by simpa using hlength.symm⟩
  | cons c y =>
    have := isBlank_of_digit (hd.2 c (by rw [hlength]; simp))
    simp [hy c rfl] at this

theorem matches_charEnd {u : Text} : Matches charEnd u [')'] [] := by
  refine matches_seq.2 ⟨[], [')'], rfl, matches_many_one.2 (by simp), ?_⟩
  exact matches_seq.2 ⟨[')'], [], rfl, matches_sym.2 rfl, matches_textEnd.2 ⟨rfl, rfl⟩⟩

/-- A type of characters is read as it is written. -/
theorem exists_find?_charType {pattern : Pattern} (hpattern : CharType pattern name q r) (hname : isName name = true)
    (hn : n = [] ∨ Spelled "N".toList n) (hd : d ≠ [] ∧ ∀ c ∈ d, CharSet.digit.contains c = true)
    (hq : ∀ u v, Matches q u d v) (hr : ∀ u, Matches r u [')'] []) :
    ∃ m, pattern.find? (charName n name d) = some m ∧ m.groupD 1 = n ∧ m.groupD 2 = d := by
  have hmatch : Matches (charHead name ++ (.group 2 q ++ r)) [] (charName n name d) [] := by
    refine matches_seq.2 ⟨n ++ (name ++ ['(']), d ++ [')'], by simp [charName], matches_charHead hn _, ?_⟩
    exact matches_seq.2 ⟨d, [')'], rfl, matches_group.2 (hq _ _), hr _⟩
  obtain ⟨g, g', htakes⟩ := hmatch
  obtain ⟨m, hm⟩ := Option.isSome_iff_exists.1 (isSome_matchAt?_iff.2
    ⟨_, [], g, g', (List.append_nil _).symm, (hpattern.takes_iff _ _ _ _ _).2 htakes⟩)
  have hfind := find?_of_matchAt? hm
  exact ⟨m, hfind, charName_inj hname hn hd (hpattern.isCharType hfind).1⟩

theorem exists_find?_tsqlChar (hn : n = [] ∨ Spelled "N".toList n)
    (hd : d ≠ [] ∧ ∀ c ∈ d, CharSet.digit.contains c = true) :
    ∃ m, tsqlChar.find? (charName n "VARCHAR" d) = some m ∧ m.groupD 1 = n ∧ m.groupD 2 = d :=
  exists_find?_charType charType_tsqlChar (by decide) hn hd
    (fun _ _ => matches_oneOf.2 ⟨digits1, by simp, matches_many1_one.2 hd⟩) fun _ => matches_charEnd

theorem exists_find?_oracleChar (hn : n = [] ∨ Spelled "N".toList n)
    (hd : d ≠ [] ∧ ∀ c ∈ d, CharSet.digit.contains c = true) :
    ∃ m, oracleChar.find? (charName n "VARCHAR2" d) = some m ∧ m.groupD 1 = n ∧ m.groupD 2 = d :=
  exists_find?_charType charType_oracleChar (by decide) hn hd (fun _ _ => matches_many1_one.2 hd) fun _ =>
    matches_seq.2 ⟨[], [')'], rfl, matches_opt.2 (.inr rfl), matches_charEnd⟩

/-- A number is no type of characters. -/
theorem find?_charType_eq_none {pattern : Pattern} {kind : Text} (hpattern : CharType pattern name q r)
    (hname : isName name = true) (hkind : isName kind = true) (hp : IsPrecision p)
    (hlength : kind.length ≠ name.length + 1) (hspelled : ¬ Spelled name kind) : pattern.find? (kind ++ p) = none := by
  have hword : ∀ c ∈ kind, Unicode.isWordChar c = true := (spelled_self kind).isWordChar hkind
  by_contra hne
  obtain ⟨m, hm⟩ := Option.ne_none_iff_exists'.1 hne
  have htype := (hpattern.isCharType hm).1
  rcases hp with rfl | ⟨x, rfl, -⟩
  · obtain ⟨k, b, b', y, hsplit, -⟩ := htype
    have hparen : '(' ∉ kind := paren_not_mem fun c hc => .inl (hword c hc)
    exact hparen (by rw [← List.append_nil kind, hsplit]; simp)
  · obtain ⟨k, b, y, rfl, hn, hk, -⟩ := htype.name_eq hname hword
    rcases hn with hn | hn
    · exact hspelled (by rwa [hn])
    · have hone : "N".toList.length = (m.groupD 1).length := List.Forall₂.length_eq hn
      have hmore := List.Forall₂.length_eq hk
      refine hlength ?_
      rw [List.length_append, ← hone, ← hmore, Nat.add_comm]
      rfl

/-! ## Numbers -/

/-- What a number is cut into is decided by its first parenthesis. -/
theorem precision_eq {w : Text} (hw : ∀ c ∈ w, Unicode.isWordChar c = true ∨ Unicode.isBlank c = true)
    (hp : IsPrecision p) : (w ++ p).dropWhile (· != '(') = p := by
  have hparen := paren_not_mem hw
  rw [List.dropWhile_append_of_pos fun c hc => by simpa using fun he : c = '(' => hparen (he ▸ hc)]
  rcases hp with rfl | ⟨x, rfl, -⟩ <;> rfl

/-- A number is read as it is written. -/
theorem exists_find?_numberType (hq : q.groupless = true) (hname : isName name = true)
    (hself : ∀ u v, Matches q u name v) (hword : ∀ u w v, Matches q u w v → ∀ c ∈ w, Unicode.isWordChar c = true)
    (hp : IsPrecision p) : ∃ m, (numberType q).find? (name ++ p) = some m ∧ Remembers m p := by
  have hmatch : Matches (numberType q) [] (name ++ p) [] := by
    refine matches_seq.2 ⟨name, p, rfl, ?_, matches_precision hp _⟩
    refine matches_seq.2 ⟨name, [], by simp, ?_, matches_many_one.2 (by simp)⟩
    exact matches_seq.2 ⟨[], name, rfl, matches_textStart.2 ⟨rfl, rfl⟩, hself _ _⟩
  obtain ⟨g, g', htakes⟩ := hmatch
  obtain ⟨m, hm⟩ := Option.isSome_iff_exists.1 (isSome_matchAt?_iff.2 ⟨_, [], g, g', (List.append_nil _).symm, htakes⟩)
  have hfind := find?_of_matchAt? hm
  obtain ⟨k, b, p', hsplit, hk, hb, hp', hremembers⟩ := exists_of_numberType hq hfind
  have hcut := precision_eq (w := k ++ b) (fun c hc => (List.mem_append.1 hc).imp (hword _ _ _ hk c) (hb c)) hp'
  rw [List.append_assoc, ← hsplit,
    precision_eq (fun c hc => .inl ((spelled_self name).isWordChar hname c hc)) hp] at hcut
  exact ⟨m, hfind, hcut ▸ hremembers⟩

theorem exists_find?_oracleNumber (hp : IsPrecision p) :
    ∃ m, oracleNumber.find? ("NUMBER" ++ p) = some m ∧ Remembers m p :=
  exists_find?_numberType (groupless_word _) (by decide) (fun _ _ => matches_word.2 (spelled_self _))
    (fun _ _ _ h => (matches_word.1 h).isWordChar (by decide)) hp

theorem exists_find?_tsqlNumeric (hp : IsPrecision p) :
    ∃ m, tsqlNumeric.find? ("DECIMAL" ++ p) = some m ∧ Remembers m p := by
  refine exists_find?_numberType (q := oneOf ["DECIMAL", "NUMERIC"]) rfl (by decide)
    (fun _ _ => matches_oneOf.2 ⟨word "DECIMAL".toList, by simp, matches_word.2 (spelled_self _)⟩) ?_ hp
  intro u w v h
  obtain ⟨w', hmem, h⟩ := matches_oneOf.1 h
  rcases List.mem_pair.1 hmem with rfl | rfl
  · exact (matches_word.1 h).isWordChar (by decide)
  · exact (matches_word.1 h).isWordChar (by decide)

/-! ## Both directions -/

/-- No digits are `MAX`. -/
theorem not_sameLetters_max (hd : d ≠ [] ∧ ∀ c ∈ d, CharSet.digit.contains c = true) :
    Text.sameLetters d "MAX" = false := by
  obtain ⟨c, d, rfl⟩ := List.exists_cons_of_ne_nil hd.1
  rw [Bool.eq_false_iff]
  intro h
  have hlower : c.toLower = 'm' := (List.cons.inj (eq_of_beq h)).1
  have hdigit := hd.2 c (by simp)
  by_cases hc : c.val ≥ 'A'.val ∧ c.val ≤ 'Z'.val
  · have key : ∀ c : Char, c.toNat < 128 → c.toLower = 'm' → CharSet.digit.contains c = false :=
      of_ascii (by decide +kernel)
    have hle : c.toNat ≤ 'Z'.toNat := UInt32.le_iff_toNat_le.1 hc.2
    exact absurd hdigit (by simp [key c (Nat.lt_of_le_of_lt hle (by decide)) hlower])
  · obtain rfl : c = 'm' := by rwa [show c.toLower = c from dif_neg hc] at hlower
    exact absurd hdigit (by decide)

/-- What the T-SQL spelling of an Oracle type can be. -/
inductive TsqlName : Text → Prop
  | char {n d : Text} (hn : n = [] ∨ Spelled "N".toList n)
      (hd : d ≠ [] ∧ ∀ c ∈ d, CharSet.digit.contains c = true) : TsqlName (charName n "VARCHAR" d)
  | number {p : Text} (hp : IsPrecision p) (hne : p ≠ []) : TsqlName ("DECIMAL" ++ p)
  | plain {t : Text} (ht : t ∈ "FLOAT".toList :: oracleNames.map (·.2.toList)) : TsqlName t

theorem tsqlName_of_toTsql? {type : Text} (h : toTsql? type = some t) : TsqlName t := by
  unfold toTsql? at h
  cases hchar : oracleChar.find? (Text.trim type) with
  | some m =>
    simp only [hchar] at h
    obtain rfl := Option.some.inj h
    obtain ⟨-, hn, hd⟩ := exists_oracleChar hchar
    have hname : m.groupD 1 ++ "VARCHAR(".toList ++ m.groupD 2 ++ ")".toList =
        charName (m.groupD 1) "VARCHAR" (m.groupD 2) := by simp [charName]
    rw [hname]
    exact .char hn hd
  | none =>
  simp only [hchar] at h
  cases hnumber : oracleNumber.find? (Text.trim type) with
  | some m =>
    simp only [hnumber] at h
    obtain ⟨-, -, p, -, -, -, hp, hgroup⟩ := exists_oracleNumber hnumber
    rw [hgroup] at h
    by_cases hnil : p = []
    · rw [if_pos hnil] at h
      obtain rfl := Option.some.inj h
      exact .plain (by simp)
    · rw [if_neg hnil] at h
      obtain rfl := Option.some.inj h
      exact .number hp hnil
  | none =>
  simp only [hnumber] at h
  obtain ⟨entry, hentry, rfl⟩ := Option.map_eq_some_iff.1 h
  exact .plain (List.mem_cons_of_mem _ (List.mem_map_of_mem (List.mem_of_find?_eq_some hentry)))

/-- A type is trimmed: it begins with a word and ends with a word or a parenthesis. -/
theorem trim_type {w v : Text} (hne : w ≠ []) (hw : ∀ c ∈ w, Unicode.isWordChar c = true)
    (hv : v = [] ∨ ∃ x : Text, v = x ++ [')']) : Text.trim (w ++ v) = w ++ v := by
  have hblank : ∀ c ∈ w, Unicode.isBlank c = false := fun c hc => isBlank_of_isWordChar (hw c hc)
  refine Text.trim_blanks_append (b := []) (t := w ++ v) (by simp) ?_ ?_
  · rw [List.head?_append_of_ne_nil _ hne]
    exact fun c hc => hblank c (List.mem_of_head? hc)
  · rcases hv with rfl | ⟨x, rfl⟩
    · rw [List.append_nil]
      exact fun c hc => hblank c (List.mem_of_getLast? hc)
    · rw [← List.append_assoc, List.getLast?_concat]
      rintro c ⟨⟩
      decide

theorem trim_charName (name : Text) (hname : isName name = true) (hn : n = [] ∨ Spelled "N".toList n) :
    Text.trim (charName n name d) = charName n name d := by
  have hsplit : charName n name d = n ++ name ++ ('(' :: d ++ [')']) := by simp [charName]
  have hne : name ≠ [] := (spelled_self name).ne_nil hname
  rw [hsplit]
  exact trim_type (by simp [hne]) (isWordChar_of_charName hname hn (spelled_self name)) (.inr ⟨_, rfl⟩)

theorem trim_number (name : Text) (hname : isName name = true) (hp : IsPrecision p) :
    Text.trim (name ++ p) = name ++ p := by
  refine trim_type ((spelled_self name).ne_nil hname) ((spelled_self name).isWordChar hname) ?_
  exact hp.imp id fun ⟨x, hx, _⟩ => ⟨'(' :: x, hx⟩

theorem spellOracle_charName (hn : n = [] ∨ Spelled "N".toList n)
    (hd : d ≠ [] ∧ ∀ c ∈ d, CharSet.digit.contains c = true) :
    spellOracle (charName n "VARCHAR" d) = charName n "VARCHAR2" d := by
  obtain ⟨m, hm, hnational, hlength⟩ := exists_find?_tsqlChar hn hd
  simp only [spellOracle, toOracle?, trim_charName "VARCHAR" (by decide) hn, hm, hnational, hlength,
    not_sameLetters_max hd]
  simp [charName]

theorem spellTsql_charName (hn : n = [] ∨ Spelled "N".toList n)
    (hd : d ≠ [] ∧ ∀ c ∈ d, CharSet.digit.contains c = true) :
    spellTsql (charName n "VARCHAR2" d) = charName n "VARCHAR" d := by
  obtain ⟨m, hm, hnational, hlength⟩ := exists_find?_oracleChar hn hd
  simp only [spellTsql, toTsql?, trim_charName "VARCHAR2" (by decide) hn, hm, hnational, hlength]
  simp [charName]

theorem spellOracle_number (hp : IsPrecision p) : spellOracle ("DECIMAL" ++ p) = "NUMBER" ++ p := by
  obtain ⟨m, hm, hremembers⟩ := exists_find?_tsqlNumeric hp
  have hnone : tsqlChar.find? ("DECIMAL" ++ p) = none :=
    find?_charType_eq_none charType_tsqlChar (by decide) (by decide) hp (by decide) (by decide)
  simp only [spellOracle, toOracle?, trim_number "DECIMAL" (by decide) hp, hnone, hm, hremembers.groupD]
  rfl

theorem spellTsql_number (hp : IsPrecision p) (hne : p ≠ []) : spellTsql ("NUMBER" ++ p) = "DECIMAL" ++ p := by
  obtain ⟨m, hm, hremembers⟩ := exists_find?_oracleNumber hp
  have hnone : oracleChar.find? ("NUMBER" ++ p) = none :=
    find?_charType_eq_none charType_oracleChar (by decide) (by decide) hp (by decide) (by decide)
  have hgroup : m.group? 1 = some p := by rw [hremembers, if_neg hne]
  simp only [spellTsql, toTsql?, trim_number "NUMBER" (by decide) hp, hnone, hm, hgroup]
  rfl

/-- A type in the spelling of T-SQL keeps it on the way to Oracle and back. -/
theorem spellTsql_spellOracle {type : Text} (h : toTsql? type = some t) : spellTsql (spellOracle t) = t := by
  have hplain : ∀ t ∈ "FLOAT".toList :: oracleNames.map (·.2.toList), spellTsql (spellOracle t) = t := by decide
  cases tsqlName_of_toTsql? h with
  | char hn hd => rw [spellOracle_charName hn hd, spellTsql_charName hn hd]
  | number hp hne => rw [spellOracle_number hp, spellTsql_number hp hne]
  | plain ht => exact hplain _ ht

/-- White space and the unit of the length are gone after the first conversion, and nothing changes after it. -/
theorem spellTsql_spellOracle_nvarchar : toTsql? "nvarchar2 ( 10 CHAR)" = some "nVARCHAR(10)".toList ∧
    spellTsql (spellOracle "nVARCHAR(10)") = "nVARCHAR(10)".toList := by
  have h : toTsql? "nvarchar2 ( 10 CHAR)" = some "nVARCHAR(10)".toList := by decide
  exact ⟨h, spellTsql_spellOracle h⟩

end

end DialectBridge.DataType
