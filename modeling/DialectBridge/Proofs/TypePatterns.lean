import DialectBridge.Format.DataType
import DialectBridge.Proofs.Captures
import DialectBridge.Proofs.Tokens
/-!
# The patterns for types

A type is a name with something in parentheses. The patterns for types of characters begin alike
(`CharType.isCharType`), and so do those for numbers (`isNumberType`); what a type is cut into is decided by
its first parenthesis.
-/
namespace DialectBridge.DataType
open Pattern Cursor

section
variable {name n k b b' d t u v w y z : Text} {g : Groups} {m : Match} {p q r : Pattern}

/-! ## Types of characters -/

/-- What a type of characters begins with: `N` or not, its name and a parenthesis. -/
def charHead (name : Text) : Pattern :=
  textStart ++ .group 1 (opt "N") ++ word name ++ blanks ++ sym '(' ++ blanks

theorem exists_of_charHead (h : Takes (charHead name) u w v [] g) : ∃ n k b b', u = [] ∧
    w = n ++ (k ++ (b ++ '(' :: b')) ∧ (n = [] ∨ Spelled "N".toList n) ∧ Spelled name k ∧
      (∀ c ∈ b, Unicode.isBlank c = true) ∧ (∀ c ∈ b', Unicode.isBlank c = true) ∧
        g = [(1, between [] (w ++ v), between n (k ++ (b ++ '(' :: b') ++ v))] := by
  obtain ⟨w, b', g₁, rfl, hw, hb'⟩ := h
  obtain ⟨w, o, g₂, rfl, hw, ho⟩ := hw
  obtain ⟨w, b, g₃, rfl, hw, hb⟩ := hw
  obtain ⟨w, k, g₄, rfl, hw, hk⟩ := hw
  obtain ⟨s, n, g₅, rfl, hs, g₆, hn, rfl⟩ := hw
  obtain ⟨rfl, rfl⟩ := matches_textStart.1 ⟨_, _, hs⟩
  have hgroups := hb'.groups_eq rfl
  rw [ho.groups_eq rfl, hb.groups_eq rfl, hk.groups_eq (groupless_word _), hn.groups_eq rfl,
    hs.groups_eq rfl] at hgroups
  obtain rfl := (takes_sym ho).1
  refine ⟨n, k, b, b', rfl, by simp, ?_, (takes_word hk).1, (takes_blanks hb).1, (takes_blanks hb').1,
    by simp [hgroups]⟩
  rcases matches_opt.1 ⟨_, _, hn⟩ with hn | hn
  · exact .inr (matches_word.1 hn)
  · exact .inl hn

theorem matches_charHead (hn : n = [] ∨ Spelled "N".toList n) (v : Text) :
    Matches (charHead name) [] (n ++ (name ++ ['('])) v := by
  refine matches_seq.2 ⟨_, [], (List.append_nil _).symm, ?_, matches_many_one.2 (by simp)⟩
  refine matches_seq.2 ⟨n ++ name, ['('], by simp, ?_, matches_sym.2 rfl⟩
  refine matches_seq.2 ⟨_, [], (List.append_nil _).symm, ?_, matches_many_one.2 (by simp)⟩
  refine matches_seq.2 ⟨n, name, rfl, ?_, matches_word.2 (spelled_self name)⟩
  refine matches_seq.2 ⟨[], n, rfl, matches_textStart.2 ⟨rfl, rfl⟩, matches_group.2 (matches_opt.2 ?_)⟩
  exact hn.symm.imp matches_word.2 id

/-- A parenthesis closes what `r` takes, and nothing but white space begins it otherwise. -/
def Closing (r : Pattern) : Prop :=
  ∀ u z v, Matches r u z v → v = [] ∧ ∃ y, z = y ++ [')'] ∧ ∀ c ∈ y.head?, Unicode.isBlank c = true

/-- `p` takes types of characters: the name, a length that is its second group, and what follows up to the end. -/
structure CharType (p : Pattern) (name : Text) (q r : Pattern) : Prop where
  takes_iff : ∀ u w v g g', Takes p u w v g g' ↔ Takes (charHead name ++ (.group 2 q ++ r)) u w v g g'
  groupless : q.groupless = true ∧ r.groupless = true
  closing : Closing r

/-- `t` is a type of characters with the mark `n` for national ones and the length `d`. -/
def IsCharType (name t n d : Text) : Prop :=
  ∃ k b b' y, t = n ++ (k ++ (b ++ '(' :: (b' ++ (d ++ (y ++ [')']))))) ∧ (n = [] ∨ Spelled "N".toList n) ∧
    Spelled name k ∧ (∀ c ∈ b, Unicode.isBlank c = true) ∧ (∀ c ∈ b', Unicode.isBlank c = true) ∧
      ∀ c ∈ y.head?, Unicode.isBlank c = true

/-- What is found of a type of characters. -/
theorem CharType.isCharType (hp : CharType p name q r) (h : p.find? t = some m) :
    IsCharType name t (m.groupD 1) (m.groupD 2) ∧ Matches p [] t [] ∧ ∃ u v, Matches q u (m.groupD 2) v := by
  obtain ⟨u, x, rfl, hat⟩ := exists_of_find? h
  obtain ⟨w, v, rfl, -, -, hw⟩ := matchAt?_eq_some hat
  have hmatch : Matches p u w v := ⟨_, _, hw⟩
  obtain ⟨w, x, g₁, rfl, hw, d, z, g₂, rfl, ⟨g₃, hd, rfl⟩, hz⟩ := (hp.takes_iff _ _ _ _ _).1 hw
  obtain ⟨n, k, b, b', rfl, rfl, hn, hk, hb, hb', rfl⟩ := exists_of_charHead hw
  have hgroups := hz.groups_eq hp.groupless.2
  rw [hd.groups_eq hp.groupless.1] at hgroups
  obtain ⟨rfl, y, rfl, hy⟩ := hp.closing _ _ _ ⟨_, _, hz⟩
  have hnational : m.groupD 1 = n :=
    Match.groupD_eq (u := []) (v := k ++ (b ++ '(' :: (b' ++ (d ++ (y ++ [')']))))) (by decide)
      (by simp [hgroups, List.lookup_cons])
  have hlength : m.groupD 2 = d :=
    Match.groupD_eq (u := n ++ (k ++ (b ++ '(' :: b'))) (v := y ++ [')']) (by decide) (by simp [hgroups])
  rw [hnational, hlength]
  exact ⟨⟨k, b, b', y, by simp, hn, hk, hb, hb', hy⟩, by simpa using hmatch, _, _, _, _, hd⟩

def charEnd : Pattern := blanks ++ (sym ')' ++ textEnd)

theorem closing_charEnd : Closing charEnd := by
  intro u z v h
  obtain ⟨b, z, rfl, hb, h⟩ := matches_seq.1 h
  obtain ⟨c, e, rfl, hc, he⟩ := matches_seq.1 h
  obtain ⟨rfl, rfl⟩ := matches_textEnd.1 he
  obtain rfl := matches_sym.1 hc
  exact ⟨rfl, b, by simp, fun c hc => matches_many_one.1 hb c (List.mem_of_mem_head? hc)⟩

/-- The unit of a length stands behind white space. -/
theorem closing_opt (hr : Closing r) (q : Pattern) : Closing (opt (blanks1 ++ q) ++ r) := by
  intro u z v h
  obtain ⟨o, z, rfl, ho, h⟩ := matches_seq.1 h
  obtain ⟨rfl, y, rfl, hy⟩ := hr _ _ _ h
  rcases matches_opt.1 ho with ho | rfl
  · obtain ⟨b, w, rfl, hb, -⟩ := matches_seq.1 ho
    obtain ⟨hne, hb⟩ := matches_blanks1.1 hb
    obtain ⟨c, b, rfl⟩ := List.exists_cons_of_ne_nil hne
    exact ⟨rfl, c :: b ++ w ++ y, by simp, by simpa using hb c (by simp)⟩
  · exact ⟨rfl, y, rfl, hy⟩

theorem charType_tsqlChar : CharType tsqlChar "VARCHAR" (oneOf [digits1, "MAX"]) charEnd where
  takes_iff _ _ _ _ _ := takes_seq_assoc.trans (takes_seq_assoc.trans takes_seq_assoc)
  groupless := ⟨rfl, rfl⟩
  closing := closing_charEnd

theorem charType_oracleChar :
    CharType oracleChar "VARCHAR2" digits1 (opt (blanks1 ++ oneOf ["BYTE", "CHAR"]) ++ charEnd) where
  takes_iff _ _ _ _ _ := takes_seq_assoc.trans (takes_seq_assoc.trans (takes_seq_assoc.trans takes_seq_assoc))
  groupless := ⟨rfl, rfl⟩
  closing := closing_opt closing_charEnd _

/-! ## Numbers -/

def numberType (q : Pattern) : Pattern := textStart ++ q ++ blanks ++ precision

/-- Parentheses with anything but line feeds between them, or nothing. -/
def IsPrecision (p : Text) : Prop :=
  p = [] ∨ ∃ x : Text, p = '(' :: (x ++ [')']) ∧ ∀ c ∈ x, Matches lineChar [] [c] []

/-- A match of a type of numbers remembers the precision, if there is one. -/
def Remembers (m : Match) (p : Text) : Prop := m.group? 1 = if p = [] then none else some p

theorem Remembers.groupD {p : Text} (h : Remembers m p) : m.groupD 1 = p := by
  rw [Match.groupD, h]
  by_cases hp : p = [] <;> simp [hp]

theorem isPrecision_of_matches {p : Text} (h : Matches precision u p v) : v = [] ∧ IsPrecision p := by
  obtain ⟨p, e, rfl, hp, he⟩ := matches_seq.1 h
  obtain ⟨rfl, rfl⟩ := matches_textEnd.1 he
  refine ⟨rfl, ?_⟩
  rw [List.append_nil]
  rcases matches_opt.1 hp with hp | hp
  · obtain ⟨o, c, rfl, ho, hc⟩ := matches_seq.1 (matches_group.1 hp)
    obtain ⟨o, x, rfl, ho, hx⟩ := matches_seq.1 ho
    obtain rfl := matches_sym.1 ho
    obtain rfl := matches_sym.1 hc
    exact .inr ⟨x, by simp, fun c hc => matches_one.2 ⟨c, rfl, matches_many_one.1 hx c hc⟩⟩
  · exact .inl hp

theorem matches_precision {p : Text} (hp : IsPrecision p) (u : Text) : Matches precision u p [] := by
  refine matches_seq.2 ⟨p, [], by simp, matches_opt.2 ?_, matches_textEnd.2 ⟨rfl, rfl⟩⟩
  rcases hp with rfl | ⟨x, rfl, hx⟩
  · exact .inr rfl
  · refine .inl (matches_group.2 (matches_seq.2 ⟨'(' :: x, [')'], by simp, ?_, matches_sym.2 rfl⟩))
    refine matches_seq.2 ⟨['('], x, rfl, matches_sym.2 rfl, matches_many_one.2 fun c hc => ?_⟩
    obtain ⟨e, he, hcontains⟩ := matches_one.1 (hx c hc)
    obtain rfl : c = e := by simpa using he
    exact hcontains

/-- What is found of a number. -/
theorem exists_of_numberType (hq : q.groupless = true) (h : (numberType q).find? t = some m) : ∃ k b p,
    t = k ++ (b ++ p) ∧ Matches q [] k (b ++ p) ∧ (∀ c ∈ b, Unicode.isBlank c = true) ∧ IsPrecision p ∧
      Remembers m p := by
  obtain ⟨u, x, rfl, hat⟩ := exists_of_find? h
  obtain ⟨w, v, rfl, -, -, hw⟩ := matchAt?_eq_some hat
  obtain ⟨w, p, g₁, rfl, hw, hp⟩ := hw
  obtain ⟨rfl, hprecision⟩ := isPrecision_of_matches ⟨_, _, hp⟩
  obtain ⟨w, b, g₂, rfl, hw, hb⟩ := hw
  obtain ⟨s, k, g₃, rfl, hs, hk⟩ := hw
  obtain ⟨rfl, rfl⟩ := matches_textStart.1 ⟨_, _, hs⟩
  obtain rfl : g₁ = [] := by rw [hb.groups_eq rfl, hk.groups_eq hq, hs.groups_eq rfl]
  refine ⟨k, b, p, by simp, ⟨_, _, by simpa using hk⟩, (takes_blanks hb).1, hprecision, ?_⟩
  obtain ⟨p, e, g₄, rfl, hp, he⟩ := hp
  obtain ⟨rfl, -⟩ := matches_textEnd.1 ⟨_, _, he⟩
  have hgroups := he.groups_eq rfl
  rw [List.append_nil, Remembers]
  rcases hp with ⟨g₅, hp, rfl⟩ | ⟨rfl, rfl⟩
  · have hlength : 2 ≤ p.length := Takes.minLength_le hp
    rw [hp.groups_eq rfl] at hgroups
    rw [if_neg (by rintro rfl; simp at hlength)]
    exact Match.group?_eq_some (by decide) (by rw [hgroups]; rfl)
  · rw [if_pos rfl, Match.group?, if_neg (by decide), hgroups]
    rfl

end

end DialectBridge.DataType
