import Mathlib.Data.List.Chain
import DialectBridge.Proofs.Logs
import DialectBridge.Proofs.Terms
import DialectBridge.Proofs.Totality
/-!
# Row values that are tested for membership

A row value is a list in parentheses, made of names, numbers and calls (`RowItem`). The pattern for
`(a, b) IN (` asks for a list without parentheses, and the text of a list with a call in it closes a parenthesis
only in front of a comma, of another one or of its end (`Settled`). So a membership test is reported just where no
part of the row value is a call (`membership_reported_iff`).
-/
namespace DialectBridge.Detection
open Pattern Cursor LexState

variable {t u v w : Text} {L T xs R : List Text}

/-! ## What the report says -/

def Raised (k : Category) (log : List Warning) : Prop := ∃ w ∈ log, w.category = k

theorem leads_of_silent {α : Type} {k : Category} {x : Reporting α} (h : Silent k x) {log : List Warning}
    (hlog : ¬ Raised k log) : Leads x log fun _ log' => ¬ Raised k log' := by
  have hraised : ∀ log, Raised k log ↔ k ∈ log.map Warning.category := fun _ => List.mem_map.symm
  simp only [hraised] at hlog ⊢
  exact h.not_mem hlog

theorem raised_warnOnce {k : Category} {message : Text} {log : List Warning} (hlog : ¬ Raised k log) :
    Leads (warnOnce k message) log fun _ log' => Raised k log' := by
  refine leads_modify ?_
  have hnew : (⟨k, message⟩ : Warning) ∉ log := fun hmem => hlog ⟨_, hmem, rfl⟩
  rw [if_neg hnew]
  exact ⟨⟨k, message⟩, by simp, rfl⟩

/-- A report of another category may stand in front. -/
theorem leads_report {α : Type} {k c : Category} (hc : c ≠ k) {p : Prop} [Decidable p] {message : Text}
    {f : Unit → Reporting α} {P : α → List Warning → Prop} (hf : ∀ log, ¬ Raised k log → Leads (f ()) log P)
    {log : List Warning} (hlog : ¬ Raised k log) :
    Leads (if p then warnOnce c message >>= f else f ()) log P := by
  split_ifs
  · exact .bind ((leads_of_silent (silent_warnOnce hc message) hlog).mono fun _ log' h => hf log' h)
  · exact hf log hlog

/-- Detection reports a row value just where it finds one, whatever else it reports. -/
theorem leads_detectOracle (sql : Text) {log : List Warning} (hlog : ¬ Raised .tupleMembership log) :
    Leads (detectOracle sql) log fun _ log' =>
      Raised .tupleMembership log' ↔ hasTupleMembership (mask sql) = true := by
  have hchecks : ∀ check ∈ oracleChecks, check.category ≠ .tupleMembership := by decide
  have hsilent : Silent .tupleMembership (runChecks (mask sql) oracleChecks) :=
    silent_forM fun check hcheck => silent_ite (silent_warnOnce (hchecks check hcheck) _) (silent_pure ())
  refine .bind ((leads_of_silent hsilent hlog).mono fun _ log hlog => ?_)
  refine leads_report (by decide) (fun log hlog => ?_) hlog
  refine .bind ((leads_of_silent (silent_lift _) hlog).mono fun b log hlog => ?_)
  refine leads_report (by decide) (fun log hlog => ?_) hlog
  by_cases htuple : hasTupleMembership (mask sql) = true
  · rw [if_pos htuple]
    exact .bind ((raised_warnOnce hlog).mono fun _ _ h => leads_pure ⟨fun _ => htuple, fun _ => h⟩)
  · rw [if_neg htuple]
    exact leads_pure ⟨fun h => absurd h hlog, fun h => absurd h htuple⟩

/-! ## Row values -/

/-- Code without parentheses, such as a name or a number. -/
structure IsOperand (t : Text) : Prop where
  shown : mask t = t
  live : (code.after t).live = true
  flat : '(' ∉ t ∧ ')' ∉ t

/-- What a row value is made of: names, numbers and calls, in calls of any depth. -/
inductive RowItem : Text → Prop
  | operand {t : Text} : IsOperand t → RowItem t
  | call {name : Text} {args : List Text} : IsOperand name → (∀ a ∈ args, RowItem a) → RowItem (callText name args)

/-- A parenthesis is closed in front of a comma or of another one. -/
def ClosesBefore (c d : Char) : Prop := c = ')' → d = ',' ∨ d = ')'

/-- Code in which all parentheses are closed, and each one in front of a comma, of another one or of the end. -/
structure Settled (t : Text) : Prop where
  shown : mask t = t
  live : (code.after t).live = true
  nested : nest 0 t = some 0
  closes : t.IsChain ClosesBefore

theorem isChain_of_not_mem (h : ')' ∉ t) : t.IsChain ClosesBefore := by
  induction t with
  | nil => exact List.isChain_nil
  | cons c t ih =>
    obtain ⟨hc, ht⟩ : ')' ≠ c ∧ ')' ∉ t := by simpa using h
    cases t with
    | nil => exact List.isChain_singleton c
    | cons d t => exact List.isChain_cons_cons.2 ⟨fun hclose => absurd hclose.symm hc, ih ht⟩

theorem isChain_append (ht : t.IsChain ClosesBefore) (hu : u.IsChain ClosesBefore)
    (h : ')' ∉ t ∨ ∀ c ∈ u.head?, c = ',' ∨ c = ')') : (t ++ u).IsChain ClosesBefore := by
  refine ht.append hu fun c hc d hd hclose => ?_
  rcases h with h | h
  · exact absurd (hclose ▸ List.mem_of_getLast? hc) h
  · exact h d hd

theorem IsOperand.settled (h : IsOperand t) : Settled t :=
  ⟨h.shown, h.live, nest_of_not_mem h.flat.1 h.flat.2 0, isChain_of_not_mem h.flat.2⟩

theorem settled_join {ts : List Text} (h : ∀ t ∈ ts, Settled t) : Settled (Text.join [',', ' '] ts) := by
  obtain ⟨hmask, hlive⟩ := mask_join fun t ht => (h t ht).live
  refine ⟨?_, hlive, nest_join fun t ht => (h t ht).nested, ?_⟩
  · rw [hmask, List.map_congr_left fun t ht => (h t ht).shown, List.map_id']
  · clear hmask hlive
    induction ts with
    | nil => exact List.isChain_nil
    | cons t ts ih =>
      obtain ⟨ht, hts⟩ := List.forall_mem_cons.1 h
      by_cases hnil : ts = []
      · simpa [hnil, Text.join, List.intercalate] using ht.closes
      · have hsep : [',', ' '].IsChain ClosesBefore := isChain_of_not_mem (by decide)
        rw [Text.join_cons hnil, List.append_assoc]
        refine isChain_append ht.closes (isChain_append hsep (ih hts) (.inl (by decide))) (.inr ?_)
        simp

/-- A name, a list in parentheses and what stands behind it. -/
theorem mask_enclosed {name inside b : Text} (hname : (code.after name).live = true)
    (hinside : (code.after inside).live = true) :
    mask (name ++ '(' :: (inside ++ ')' :: b)) = mask name ++ '(' :: (mask inside ++ ')' :: mask b) := by
  have hopen := mask_plain_between (b := inside ++ ')' :: b) hname (x := ['(']) (by decide) (by simp)
  have hclose := mask_plain_between (b := b) hinside (x := [')']) (by decide) (by simp)
  simp only [List.singleton_append] at hopen hclose
  rw [hopen, hclose]

theorem settled_callText {name : Text} {args : List Text} (hname : IsOperand name) (h : ∀ a ∈ args, Settled a) :
    Settled (callText name args) := by
  have hargs := settled_join h
  have hcode : ∀ {t : Text} {c : Char}, (code.after t).live = true → isPlain c = true → code.after (t ++ [c]) = code := by
    intro t c ht hc
    rw [after_append, after_of_all_isPlain ht (by simpa using hc) (by simp)]
  have hsplit : callText name args = name ++ ['('] ++ (Text.join [',', ' '] args ++ [')']) := by simp [callText]
  constructor
  · rw [callText, mask_enclosed hname.live hargs.live, hname.shown, hargs.shown, mask_nil]
  · rw [hsplit, after_append, hcode hname.live (by decide), hcode hargs.live (by decide)]
    rfl
  · rw [callText, nest_append, nest_of_not_mem hname.flat.1 hname.flat.2, Option.bind_some, nest_open, nest_append,
      nest_succ hargs.nested]
    rfl
  · rw [hsplit]
    have hopen : ')' ∉ name ++ ['('] := by simpa using hname.flat.2
    exact isChain_append (isChain_of_not_mem hopen)
      (isChain_append hargs.closes (List.isChain_singleton _) (.inr (by simp))) (.inl hopen)

theorem RowItem.settled (h : RowItem t) : Settled t := by
  induction h with
  | operand h => exact h.settled
  | call hname _ ih => exact settled_callText hname ih

/-! ## The pattern for a membership test -/

theorem contains_flat {c : Char} :
    (CharSet.complement ⟨[(0x28, 0x29)]⟩).contains c = true ↔ c ≠ '(' ∧ c ≠ ')' := by
  have hranges : (CharSet.complement ⟨[(0x28, 0x29)]⟩).ranges = [(0, 0x27), (0x2A, 0x10FFFF)] := by decide
  have hchar : ∀ d : Char, c ≠ d ↔ c.toNat ≠ d.toNat := fun d => not_congr Char.toNat_inj.symm
  have hlt : c.toNat ≤ 0x10FFFF := by
    have := c.valid
    have hnat : c.toNat = c.val.toNat := rfl
    rcases this with h | h <;> omega
  rw [CharSet.contains, hranges, hchar, hchar]
  simp only [Unicode.Ranges.contain, Unicode.Ranges.has, show '('.toNat = 40 from rfl, show ')'.toNat = 41 from rfl]
  split_ifs <;> simp <;> omega

theorem matches_flat : Matches Paren.flat u w v ↔ '(' ∉ w ∧ ')' ∉ w := by
  rw [Paren.flat, matches_many_one]
  constructor
  · intro h
    exact ⟨fun hc => (contains_flat.1 (h _ hc)).1 rfl, fun hc => (contains_flat.1 (h _ hc)).2 rfl⟩
  · rintro ⟨hopen, hclose⟩ c hc
    refine contains_flat.2 ⟨?_, ?_⟩
    · rintro rfl
      exact hopen hc
    · rintro rfl
      exact hclose hc

/-- What a match is made of: a list without parentheses, and behind it white space or a word. -/
theorem exists_of_matches_tupleIn (h : Matches tupleIn u w v) : ∃ f r, w = '(' :: (f ++ ')' :: r) ∧
    ('(' ∉ f ∧ ')' ∉ f) ∧ '(' ∈ r ∧ ∀ c ∈ r.head?, c ≠ ',' ∧ c ≠ ')' := by
  obtain ⟨w, p₂, rfl, h, hp₂⟩ := matches_seq.1 h
  obtain ⟨w, s₂, rfl, h, hs₂⟩ := matches_seq.1 h
  obtain ⟨w, i, rfl, h, hi⟩ := matches_seq.1 h
  obtain ⟨w, n, rfl, h, hn⟩ := matches_seq.1 h
  obtain ⟨w, s, rfl, h, hs⟩ := matches_seq.1 h
  obtain ⟨w, p₁, rfl, h, hp₁⟩ := matches_seq.1 h
  obtain ⟨w, b, rfl, h, hb⟩ := matches_seq.1 h
  obtain ⟨w, k, rfl, h, hk⟩ := matches_seq.1 h
  obtain ⟨p₀, a, rfl, hp₀, ha⟩ := matches_seq.1 h
  obtain rfl := matches_sym.1 hp₀
  obtain rfl := matches_sym.1 hk
  obtain rfl := matches_sym.1 hp₁
  obtain rfl := matches_sym.1 hp₂
  obtain ⟨ha, ha'⟩ := matches_flat.1 ha
  obtain ⟨hb, hb'⟩ := matches_flat.1 hb
  have hsigns : ∀ c, c = ',' ∨ c = ')' → Unicode.isBlank c = false ∧ Unicode.isWordChar c = false := by
    rintro c (rfl | rfl) <;> decide
  refine ⟨a ++ ',' :: b, s ++ (n ++ (i ++ (s₂ ++ ['(']))), by simp, ?_, by simp, fun c hc => ?_⟩
  · simp [ha, ha', hb, hb']
  -- what follows begins with a blank or with the first letter of a word
  have hword : Unicode.isBlank c = true ∨ Unicode.isWordChar c = true := by
    cases s with
    | cons d s =>
      obtain rfl : d = c := by simpa using hc
      exact .inl (matches_many_one.1 hs d (by simp))
    | nil =>
      have hin := matches_word.1 hi
      have hbegins : beginsInWord (n ++ (i ++ (s₂ ++ ['(']))) = true := by
        rcases matches_opt.1 hn with hn | rfl
        · obtain ⟨k, g, rfl, hk, -⟩ := matches_seq.1 hn
          rw [List.append_assoc]
          exact (matches_word.1 hk).beginsInWord (by decide) _
        · exact hin.beginsInWord (by decide) _
      obtain ⟨r, hr⟩ := List.head?_eq_some_iff.1 hc
      rw [List.nil_append] at hr
      rw [hr] at hbegins
      exact .inr hbegins
  by_contra hsign
  rw [not_and_or, not_not, not_not] at hsign
  obtain ⟨hblank, hnot⟩ := hsigns c hsign
  rw [hblank, hnot] at hword
  simp at hword

def memberWords (negated : Bool) : Text := if negated then " NOT IN " else " IN "

theorem matches_tupleIn {a b : Text} (ha : '(' ∉ a ∧ ')' ∉ a) (hb : '(' ∉ b ∧ ')' ∉ b) (negated : Bool) (u v : Text) :
    Matches tupleIn u ('(' :: (a ++ ',' :: (b ++ ')' :: (memberWords negated ++ ['('])))) v := by
  have hblank : ∀ c ∈ [' '], Unicode.isBlank c = true := by decide
  have hlist : ∀ v, Matches (sym '(' ++ Paren.flat ++ sym ',' ++ Paren.flat ++ sym ')' ++ blanks) u
      ('(' :: (a ++ ',' :: (b ++ [')', ' ']))) v := by
    intro v
    refine matches_seq.2 ⟨'(' :: (a ++ ',' :: (b ++ [')'])), [' '], by simp, ?_, matches_many_one.2 hblank⟩
    refine matches_seq.2 ⟨'(' :: (a ++ ',' :: b), [')'], by simp, ?_, matches_sym.2 rfl⟩
    refine matches_seq.2 ⟨'(' :: (a ++ [',']), b, by simp, ?_, matches_flat.2 hb⟩
    refine matches_seq.2 ⟨'(' :: a, [','], by simp, ?_, matches_sym.2 rfl⟩
    exact matches_seq.2 ⟨['('], a, rfl, matches_sym.2 rfl, matches_flat.2 ha⟩
  obtain ⟨n, hwords, hn⟩ : ∃ n : Text, memberWords negated = ' ' :: (n ++ "IN ") ∧
      ∀ u v, Matches (opt ("NOT" ++ blanks1)) u n v := by
    cases negated with
    | false => exact ⟨[], rfl, fun _ _ => matches_opt.2 (.inr rfl)⟩
    | true =>
      refine ⟨"NOT ", rfl, fun _ _ => matches_opt.2 (.inl (matches_seq.2 ⟨"NOT", [' '], rfl, ?_, ?_⟩))⟩
      · exact matches_word.2 (spelled_self _)
      · exact matches_blanks1.2 ⟨by simp, hblank⟩
  have hsplit : '(' :: (a ++ ',' :: (b ++ ')' :: (memberWords negated ++ ['(']))) =
      '(' :: (a ++ ',' :: (b ++ [')', ' '])) ++ n ++ "IN".toList ++ [' '] ++ ['('] := by
    rw [hwords]
    simp
  rw [hsplit]
  refine matches_seq.2 ⟨_, ['('], rfl, ?_, matches_sym.2 rfl⟩
  refine matches_seq.2 ⟨_, [' '], rfl, ?_, matches_many_one.2 hblank⟩
  refine matches_seq.2 ⟨_, "IN".toList, rfl, ?_, matches_word.2 (spelled_self _)⟩
  exact matches_seq.2 ⟨_, n, rfl, hlist _, hn _ _⟩

/-! ## The word in front of a row value -/

/-- A search that finds nothing on the way takes the first match. -/
theorem find?_of_leftmost {p : Pattern} {x : Text} {m : Match} (hm : p.matchAt? (between u x) = some m)
    (hnone : ∀ a c b, u = a ++ c :: b → p.matchAt? (between a (c :: (b ++ x))) = none) : p.find? (u ++ x) = some m := by
  have key : ∀ l, (∀ a c b, u = a ++ c :: b → p.matchAt? (between (l ++ a) (c :: (b ++ x))) = none) →
      p.matchAt? (between (l ++ u) x) = some m → p.findFrom? p.leading? false (.of l) (u ++ x) = some m := by
    intro l
    clear hm hnone
    induction u generalizing l with
    | nil =>
      intro _ hm
      rw [List.append_nil] at hm
      cases x with
      | nil => simpa [findFrom?, between] using hm
      | cons c x =>
        rw [List.nil_append, findFrom?_cons, ← between, hm]
        rfl
    | cons c u ih =>
      intro hnone hm
      have hhere : p.matchAt? (between l (c :: (u ++ x))) = none := by simpa using hnone [] c u rfl
      rw [List.cons_append, findFrom?_cons, ← between, hhere, Passed.add_of]
      refine ih (l ++ [c]) (fun a d b hu => ?_) (by simpa using hm)
      simpa using hnone (c :: a) d b (by rw [hu, List.cons_append])
  exact key [] (by simpa using hnone) (by simpa using hm)

/-- What the pattern takes at the end of a text, and what it remembers. -/
theorem takes_trailingWord {g g' : Groups} (h : Takes trailingWord u w v g g') : ∃ n b, w = n ++ b ∧
    (n ≠ [] ∧ ∀ c ∈ n, Unicode.isWordChar c = true) ∧ (∀ c ∈ b, Unicode.isBlank c = true) ∧ v = [] ∧
      g'.lookup 1 = some (between u (n ++ (b ++ v)), between (u ++ n) (b ++ v)) := by
  obtain ⟨w, e, g₁, rfl, ⟨n, b, g₂, rfl, ⟨g₃, hn, rfl⟩, hb⟩, he⟩ := h
  obtain ⟨rfl, rfl⟩ := matches_textEnd.1 ⟨_, _, he⟩
  obtain ⟨hblank, rfl⟩ := takes_blanks hb
  obtain rfl := he.groups_eq rfl
  obtain ⟨hne, hword⟩ := matches_many1_one.1 ⟨_, _, hn⟩
  exact ⟨n, b, by simp, ⟨hne, hword⟩, hblank, rfl, by simp⟩

theorem matches_trailingWord {n b : Text} (hn : n ≠ [] ∧ ∀ c ∈ n, Unicode.isWordChar c = true)
    (hb : ∀ c ∈ b, Unicode.isBlank c = true) (u : Text) : Matches trailingWord u (n ++ b) [] := by
  refine matches_seq.2 ⟨n ++ b, [], by simp, ?_, matches_textEnd.2 ⟨rfl, rfl⟩⟩
  exact matches_seq.2 ⟨n, b, rfl, matches_group.2 (matches_many1_one.2 hn), matches_many_one.2 hb⟩

/-- The search for the word at the end of a text finds all of it. -/
theorem find?_trailingWord {n b : Text} (hu : endsInWord u = false) (hn : n ≠ [] ∧ ∀ c ∈ n, Unicode.isWordChar c = true)
    (hb : ∀ c ∈ b, Unicode.isBlank c = true) :
    ∃ m, trailingWord.find? (u ++ (n ++ b)) = some m ∧ m.groupD 1 = n := by
  have hbehind : ∀ {b : Text}, (∀ c ∈ b, Unicode.isBlank c = true) → ∀ c ∈ b.head?, Unicode.isWordChar c = false :=
    fun hb c hc => isWordChar_of_isBlank (hb c (List.mem_of_mem_head? hc))
  obtain ⟨g, g', htakes⟩ := matches_trailingWord hn hb u
  obtain ⟨m, hm⟩ := Option.isSome_iff_exists.1
    (isSome_matchAt?_iff.2 ⟨n ++ b, [], g, g', (List.append_nil _).symm, htakes⟩)
  refine ⟨m, find?_of_leftmost hm fun a c r hsplit => ?_, ?_⟩
  · -- a match that begins before the word would go on to its end
    by_contra hsome
    obtain ⟨m', hm'⟩ := Option.ne_none_iff_exists'.1 hsome
    obtain ⟨w, v, hw, -, -, htakes'⟩ := matchAt?_eq_some hm'
    obtain ⟨n', b', rfl, hn', hb', rfl, -⟩ := takes_trailingWord htakes'
    rw [List.append_nil, ← List.cons_append] at hw
    rcases List.append_eq_append_iff.1 hw with ⟨k, rfl, -⟩ | ⟨k, -, rfl⟩
    · have hend : endsInWord (c :: r) = true :=
        endsInWord_of_all (by simp) fun d hd => hn'.2 d (List.mem_append_left k hd)
      rw [hsplit, endsInWord_append (by simp), hend] at hu
      cases hu
    · obtain ⟨d, n, rfl⟩ := List.exists_cons_of_ne_nil hn.1
      have hblank := isBlank_of_isWordChar (hn.2 d (by simp))
      rw [hb' d (by simp)] at hblank
      cases hblank
  · obtain ⟨w, v, hw, -, -, htakes'⟩ := matchAt?_eq_some hm
    obtain ⟨n', b', rfl, hn', hb', rfl, hgroup⟩ := takes_trailingWord htakes'
    rw [Match.groupD_eq (by decide) hgroup]
    rw [List.append_nil] at hw
    exact (append_inj_of_all hn'.2 hn.2 (hbehind hb') (hbehind hb) hw.symm).1

/-! ## Membership tests -/

theorem isOperand_of_isPlain (hplain : ∀ c ∈ t, isPlain c = true) (hflat : '(' ∉ t ∧ ')' ∉ t) : IsOperand t := by
  refine ⟨mask_of_all_isPlain hplain, ?_, hflat⟩
  by_cases hne : t = []
  · rw [hne]
    rfl
  · rw [after_of_all_isPlain rfl hplain hne]
    rfl

/-- Whether `c` can be in a name or a number. -/
def isNameSign (c : Char) : Bool := Unicode.isWordChar c || ['.', '$', '#'].contains c

/-- Names and numbers are operands. -/
theorem isOperand_of_names (h : ∀ c ∈ t, isNameSign c = true) : IsOperand t := by
  have hsigns : ∀ c ∈ ['.', '$', '#'], isPlain c = true := by decide
  refine isOperand_of_isPlain (fun c hc => ?_) ⟨fun hc => absurd (h _ hc) (by decide), fun hc => absurd (h _ hc) (by decide)⟩
  rcases Bool.or_eq_true_iff.1 (h c hc) with hword | hsign
  · exact isPlain_of_isWordChar hword
  · exact hsigns c (List.contains_iff_mem.1 hsign)

/-- Operands with plain signs between them. -/
theorem IsOperand.between (ht : IsOperand t) (hu : IsOperand u) {s : Text} (hne : s ≠ [])
    (hplain : ∀ c ∈ s, isPlain c = true) (hflat : '(' ∉ s ∧ ')' ∉ s) : IsOperand (t ++ (s ++ u)) := by
  refine ⟨?_, ?_, ?_, ?_⟩
  · rw [mask_plain_between ht.live hplain hne, ht.shown, hu.shown]
  · rw [after_append, after_append, after_of_all_isPlain ht.live hplain hne]
    exact hu.live
  · simp [ht.flat.1, hu.flat.1, hflat.1]
  · simp [ht.flat.2, hu.flat.2, hflat.2]

theorem flat_join {ts : List Text} (h : ∀ t ∈ ts, '(' ∉ t ∧ ')' ∉ t) :
    '(' ∉ Text.join [',', ' '] ts ∧ ')' ∉ Text.join [',', ' '] ts := by
  constructor
  · intro hmem
    rcases mem_join hmem with ⟨t, ht, hmem⟩ | heq | heq
    · exact (h t ht).1 hmem
    · cases heq
    · cases heq
  · intro hmem
    rcases mem_join hmem with ⟨t, ht, hmem⟩ | heq | heq
    · exact (h t ht).2 hmem
    · cases heq
    · cases heq

theorem isOperand_join {ts : List Text} (h : ∀ t ∈ ts, IsOperand t) : IsOperand (Text.join [',', ' '] ts) := by
  have hsettled := settled_join fun t ht => (h t ht).settled
  exact ⟨hsettled.shown, hsettled.live, flat_join fun t ht => (h t ht).flat⟩

def memberHead (L T : List Text) : Text :=
  "SELECT " ++ (Text.join ", " L ++ (" FROM " ++ (Text.join ", " T ++ " WHERE ")))

def memberTail (negated : Bool) (R : List Text) : Text :=
  memberWords negated ++ '(' :: (Text.join ", " R ++ ")")

/-- `SELECT L FROM T WHERE (xs) IN (R)`, or with `NOT IN`. -/
def memberQuery (L T xs : List Text) (negated : Bool) (R : List Text) : Text :=
  memberHead L T ++ '(' :: (Text.join ", " xs ++ ')' :: memberTail negated R)

theorem isOperand_nil : IsOperand [] := ⟨mask_nil, rfl, by decide⟩

theorem isOperand_memberHead (hL : ∀ l ∈ L, IsOperand l) (hT : ∀ t ∈ T, IsOperand t) : IsOperand (memberHead L T) := by
  have hwhere : IsOperand (Text.join ", " T ++ (" WHERE ".toList ++ [])) :=
    (isOperand_join hT).between isOperand_nil (by decide) (by decide) (by decide)
  have hfrom := (isOperand_join hL).between hwhere (s := " FROM ".toList) (by decide) (by decide) (by decide)
  exact isOperand_nil.between hfrom (s := "SELECT ".toList) (by decide) (by decide) (by decide)

theorem mask_memberQuery (hL : ∀ l ∈ L, IsOperand l) (hT : ∀ t ∈ T, IsOperand t) (hxs : ∀ x ∈ xs, RowItem x)
    (hR : ∀ r ∈ R, IsOperand r) (negated : Bool) :
    mask (memberQuery L T xs negated R) = memberQuery L T xs negated R := by
  have hhead := isOperand_memberHead hL hT
  have hlist := settled_join fun x hx => (hxs x hx).settled
  have hmembers := isOperand_join hR
  have hwords : IsOperand (memberWords negated) := by
    cases negated <;> exact isOperand_of_isPlain (by decide) (by decide)
  have htail : mask (memberTail negated R) = memberTail negated R := by
    have htext : mask (memberWords negated ++ '(' :: (Text.join [',', ' '] R ++ ')' :: [])) = _ :=
      mask_enclosed hwords.live hmembers.live
    rw [hwords.shown, hmembers.shown, mask_nil] at htext
    exact htext
  have htext : mask (memberHead L T ++ '(' :: (Text.join [',', ' '] xs ++ ')' :: memberTail negated R)) = _ :=
    mask_enclosed hhead.live hlist.live
  rw [hhead.shown, hlist.shown, htail] at htext
  exact htext

/-- In settled code, a parenthesis that is not followed by a comma or by another one closes the code itself. -/
theorem eq_of_closing {h x k f s : Text} (hh : ')' ∉ h) (hx : x.IsChain ClosesBefore) (hk : ')' ∉ k) (hs : s ≠ [])
    (hnext : ∀ c ∈ s.head?, c ≠ ',' ∧ c ≠ ')')
    (hsplit : h ++ '(' :: (x ++ ')' :: (k ++ [')'])) = f ++ ')' :: s) : h ++ '(' :: x = f := by
  have hsplit' : (h ++ '(' :: x) ++ ')' :: (k ++ [')']) = f ++ ')' :: s := by simpa using hsplit
  rcases List.append_eq_append_iff.1 hsplit' with ⟨c, rfl, hc⟩ | ⟨c, hf, hc⟩
  · cases c with
    | nil => rw [List.append_nil]
    | cons d c =>
      -- the parenthesis would be the last one, and nothing follows that
      have hlast : k ++ [')'] = c ++ ')' :: s := (List.cons.inj hc).2
      obtain ⟨s', e, rfl⟩ := (List.eq_nil_or_concat s).resolve_left hs
      rw [List.concat_eq_append, ← List.cons_append, ← List.append_assoc] at hlast
      have hk' : k = c ++ ')' :: s' := List.append_inj_left' hlast rfl
      exact absurd (by rw [hk']; simp) hk
  · cases c with
    | nil => simpa using hf
    | cons d c =>
      -- the parenthesis would be one inside of the list
      obtain ⟨rfl, rfl⟩ := List.cons.inj hc
      have hmem : ∃ y, x = y ++ ')' :: c := by
        rcases List.append_eq_append_iff.1 hf with ⟨e, rfl, he⟩ | ⟨e, rfl, he⟩
        · cases e with
          | nil => cases he
          | cons d e =>
            obtain ⟨-, rfl⟩ := List.cons.inj he
            exact ⟨e, rfl⟩
        · cases e with
          | nil => cases he
          | cons d e =>
            obtain ⟨rfl, -⟩ := List.cons.inj he
            exact absurd (by simp) hh
      obtain ⟨y, rfl⟩ := hmem
      have hchain := List.isChain_append.1 hx
      cases c with
      | nil => exact absurd rfl (hnext ')' rfl).2
      | cons d c =>
        have hclose := (List.isChain_cons_cons.1 hchain.2.1).1 rfl
        exact absurd hclose (by simpa [not_or] using hnext d rfl)

/-- In code that closes its parentheses, a list without parentheses that stretches to the end is all of it. -/
theorem eq_of_opening {h x u f : Text} (hh : '(' ∉ h) (hx : nest 0 x = some 0) (hf : '(' ∉ f ∧ ')' ∉ f)
    (hsplit : h ++ '(' :: x = u ++ '(' :: f) : h = u ∧ x = f := by
  rcases List.append_eq_append_iff.1 hsplit with ⟨c, rfl, hc⟩ | ⟨c, rfl, hc⟩
  · cases c with
    | nil => simpa using hc
    | cons d c =>
      obtain rfl : x = c ++ '(' :: f := (List.cons.inj hc).2
      rw [nest_append] at hx
      obtain ⟨d, -, hx⟩ := Option.bind_eq_some_iff.1 hx
      rw [nest_open, nest_of_not_mem hf.1 hf.2] at hx
      cases hx
  · cases c with
    | nil => simpa [eq_comm] using hc
    | cons d c =>
      obtain ⟨rfl, -⟩ := List.cons.inj hc
      exact absurd (by simp) hh

theorem mem_join_of_mem {ts : List Text} (ht : t ∈ ts) {c : Char} (hc : c ∈ t) : c ∈ Text.join [',', ' '] ts := by
  induction ts with
  | nil => cases ht
  | cons s ts ih =>
    by_cases hnil : ts = []
    · obtain rfl : t = s := by simpa [hnil] using ht
      simpa [hnil, Text.join, List.intercalate] using hc
    · rw [Text.join_cons hnil]
      rcases List.mem_cons.1 ht with rfl | ht
      · simp [hc]
      · simp [ih ht]

/-- Code without parentheses is no call. -/
theorem RowItem.isOperand (h : RowItem t) (hopen : '(' ∉ t) : IsOperand t := by
  cases h with
  | operand h => exact h
  | call _ _ => exact absurd (by simp [callText]) hopen

section
variable (hL : ∀ l ∈ L, IsOperand l) (hT : ∀ t ∈ T, IsOperand t)
include hL hT

/-- What is found in a membership test is the whole row value, which then has no call. -/
theorem flat_of_hasTupleMembership (hxs : ∀ x ∈ xs, RowItem x) (hR : ∀ r ∈ R, IsOperand r) {negated : Bool}
    (h : hasTupleMembership (memberQuery L T xs negated R) = true) : ∀ x ∈ xs, '(' ∉ x := by
  have hhead := isOperand_memberHead hL hT
  have hlist := settled_join fun x hx => (hxs x hx).settled
  have hmembers := isOperand_join hR
  obtain ⟨m, hm, -⟩ := List.any_eq_true.1 h
  obtain ⟨u, y, hq, hat⟩ := exists_of_mem_findAll hm
  obtain ⟨w, v, rfl, -, -, hw⟩ := matchAt?_eq_some hat
  obtain ⟨f, r, rfl, hf, hr, hnext⟩ := exists_of_matches_tupleIn ⟨_, _, hw⟩
  have hrne : r ≠ [] := List.ne_nil_of_mem hr
  have hwords : ')' ∉ memberWords negated ++ '(' :: Text.join [',', ' '] R := by
    have : ')' ∉ memberWords negated := by cases negated <;> decide
    simp [this, hmembers.flat.2]
  have hsplit : memberHead L T ++ '(' :: (Text.join [',', ' '] xs ++
      ')' :: ((memberWords negated ++ '(' :: Text.join [',', ' '] R) ++ [')'])) = (u ++ '(' :: f) ++ ')' :: (r ++ v) := by
    rw [memberQuery, memberTail] at hq
    simpa using hq
  have hnext' : ∀ c ∈ (r ++ v).head?, c ≠ ',' ∧ c ≠ ')' := by
    obtain ⟨d, r, rfl⟩ := List.exists_cons_of_ne_nil hrne
    exact hnext
  have hclosing := eq_of_closing hhead.flat.2 hlist.closes hwords (by simp [hrne]) hnext' hsplit
  obtain ⟨-, hjoin⟩ := eq_of_opening hhead.flat.1 hlist.nested hf hclosing
  intro x hx hopen
  exact hf.1 (hjoin ▸ mem_join_of_mem hx hopen)

/-- A row value without a call is found, and the word in front of it says that it is one. -/
theorem hasTupleMembership_of_flat (hk : 2 ≤ xs.length) (hxs : ∀ x ∈ xs, IsOperand x) (negated : Bool) :
    hasTupleMembership (memberQuery L T xs negated R) = true := by
  have hhead := isOperand_memberHead hL hT
  obtain ⟨x, ys, rfl⟩ := List.exists_cons_of_length_pos (Nat.lt_of_lt_of_le Nat.zero_lt_two hk)
  obtain ⟨hx, hys⟩ := List.forall_mem_cons.1 hxs
  have hne : ys ≠ [] := by
    rintro rfl
    simp at hk
  have hlist : Text.join [',', ' '] (x :: ys) = x ++ ',' :: (' ' :: Text.join [',', ' '] ys) := by
    rw [Text.join_cons hne]
    simp
  have hrest := flat_join fun y hy => (hys y hy).flat
  obtain ⟨g, g', htakes⟩ := matches_tupleIn hx.flat (b := ' ' :: Text.join [',', ' '] ys) (by simpa using hrest) negated
    (memberHead L T) (Text.join [',', ' '] R ++ [')'])
  have hq : memberQuery L T (x :: ys) negated R = memberHead L T ++
      ('(' :: (x ++ ',' :: (' ' :: Text.join [',', ' '] ys ++ ')' :: (memberWords negated ++ ['(']))) ++
        (Text.join [',', ' '] R ++ [')'])) := by
    have hlist : Text.join ", " (x :: ys) = _ := hlist
    rw [memberQuery, memberTail, hlist]
    simp
  obtain ⟨m, hm⟩ := Option.isSome_iff_exists.1 (isSome_matchAt?_iff.2 ⟨_, _, g, g', rfl, htakes⟩)
  obtain ⟨w₁, v₁, -, hfirst, -⟩ := matchAt?_eq_some hm
  have hconsuming : tupleIn.Consuming := by
    rintro u w v h rfl
    obtain ⟨f, r, hnil, -⟩ := exists_of_matches_tupleIn h
    cases hnil
  rw [hasTupleMembership, List.any_eq_true, hq]
  refine ⟨m, (mem_findAll_or_exists hconsuming hm).resolve_right ?_, ?_⟩
  · -- no row value begins in front of the first parenthesis
    rintro ⟨m', hm', hlt, -⟩
    obtain ⟨u, y, hsplit, hat⟩ := exists_of_mem_findAll hm'
    obtain ⟨w, v, rfl, hfirst', -, hw⟩ := matchAt?_eq_some hat
    obtain ⟨f, r, rfl, -⟩ := exists_of_matches_tupleIn ⟨_, _, hw⟩
    simp only [Match.start, hfirst, hfirst', offset_between] at hlt
    rcases List.append_eq_append_iff.1 hsplit with ⟨c, rfl, -⟩ | ⟨c, hc, hc'⟩
    · rw [Text.width_append] at hlt
      omega
    · cases c with
      | nil =>
        rw [hc, List.append_nil] at hlt
        omega
      | cons d c =>
        obtain ⟨rfl, -⟩ := List.cons.inj hc'
        exact hhead.flat.1 (by rw [hc]; simp)
  · have hfront : m.first.left.text.reverse = memberHead L T := by rw [hfirst, left_between, List.reverse_reverse]
    have hwhere : " WHERE ".toList = [' '] ++ ("WHERE".toList ++ [' ']) := rfl
    have hhead : memberHead L T = ("SELECT ".toList ++ (Text.join [',', ' '] L ++ (" FROM ".toList ++
        Text.join [',', ' '] T)) ++ [' ']) ++ ("WHERE".toList ++ [' ']) := by
      have hdef : memberHead L T = "SELECT ".toList ++ (Text.join [',', ' '] L ++ (" FROM ".toList ++
        (Text.join [',', ' '] T ++ " WHERE ".toList))) := rfl
      rw [hdef, hwhere]
      simp only [List.append_assoc]
    obtain ⟨w, hfind, hgroup⟩ := find?_trailingWord (b := [' ']) (n := "WHERE".toList)
      (endsInWord_blanks (b := [' ']) (by simp) (by decide) ("SELECT ".toList ++ (Text.join [',', ' '] L ++
        (" FROM ".toList ++ Text.join [',', ' '] T)))) (by decide) (by decide)
    rw [hfront, hhead, hfind]
    simp only [hgroup]
    decide

/-- **A membership test is found** just where no part of the row value is a call. -/
theorem hasTupleMembership_iff (hk : 2 ≤ xs.length) (hxs : ∀ x ∈ xs, RowItem x) (hR : ∀ r ∈ R, IsOperand r)
    (negated : Bool) : hasTupleMembership (memberQuery L T xs negated R) = true ↔ ∀ x ∈ xs, '(' ∉ x :=
  ⟨flat_of_hasTupleMembership hL hT hxs hR, fun h =>
    hasTupleMembership_of_flat hL hT hk (fun x hx => (hxs x hx).isOperand (h x hx)) negated⟩

/-- **A membership test is reported** just where no part of the row value is a call. -/
theorem membership_reported_iff (hk : 2 ≤ xs.length) (hxs : ∀ x ∈ xs, RowItem x) (hR : ∀ r ∈ R, IsOperand r)
    (negated : Bool) {log : List Warning} (hlog : ¬ Raised .tupleMembership log) :
    ∃ log', (detectOracle (memberQuery L T xs negated R)).run log = some (memberQuery L T xs negated R, log') ∧
      (Raised .tupleMembership log' ↔ ∀ x ∈ xs, '(' ∉ x) := by
  obtain ⟨log', hrun⟩ := gives_detectOracle (memberQuery L T xs negated R) log
  refine ⟨log', hrun, ?_⟩
  have hraised : Raised .tupleMembership log' ↔ _ := leads_detectOracle _ hlog _ _ hrun
  rw [hraised, mask_memberQuery hL hT hxs hR]
  exact hasTupleMembership_iff hL hT hk hxs hR negated

end

/-- `(a, t.b) NOT IN (c, 1)` is reported. -/
theorem membership_reported_names :
    ∃ log', (detectOracle (memberQuery ["a"] ["t", "u"] ["a", "t.b"] true ["c", "1"])).run [] =
        some (memberQuery ["a"] ["t", "u"] ["a", "t.b"] true ["c", "1"], log') ∧
      (Raised .tupleMembership log' ↔ ∀ x ∈ ["a".toList, "t.b".toList], '(' ∉ x) := by
  have hnames : ∀ {ts : List Text}, (∀ t ∈ ts, ∀ c ∈ t, isNameSign c = true) → ∀ t ∈ ts, IsOperand t :=
    fun h t ht => isOperand_of_names (h t ht)
  exact membership_reported_iff (hnames (by decide)) (hnames (by decide)) (by decide)
    (fun x hx => .operand (hnames (by decide) x hx)) (hnames (by decide)) true (by simp [Raised])

/-- With a call in the row value, nothing is reported. -/
theorem membership_with_call_silent : (∀ x ∈ ["f(a)".toList, "b".toList], RowItem x) ∧
    memberQuery ["a"] ["t"] ["f(a)", "b"] false ["c"] = "SELECT a FROM t WHERE (f(a), b) IN (c)" ∧
    (detectOracle "SELECT a FROM t WHERE (f(a), b) IN (c)").run [] =
      some ("SELECT a FROM t WHERE (f(a), b) IN (c)".toList, []) := by
  refine ⟨?_, by decide +kernel, by decide +kernel⟩
  have hcall : RowItem (callText "f" ["a"]) := .call (isOperand_of_names (by decide)) (by
    simpa using RowItem.operand (isOperand_of_names (by decide)))
  simp only [List.forall_mem_cons]
  exact ⟨hcall, .operand (isOperand_of_names (by decide)), by simp⟩

end DialectBridge.Detection
