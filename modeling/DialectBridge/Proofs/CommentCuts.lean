import DialectBridge.Proofs.Captures
import DialectBridge.Proofs.MaskedTokens
import DialectBridge.Proofs.Outcomes
/-!
# Comments in text that is taken out

A clause is found in the mask, where a comment is white space: with the clause go the comments
between its words and those in front of it. What stands around the clause is lexed as before, so no
other comment is lost (`Replaced.exists_comments`).
-/
namespace DialectBridge
open Pattern Cursor LexState Segment

/-! ## Text between code -/

/-- The text `w` between `x` and `y` begins and ends in code. -/
structure Removed (x w y : Text) : Prop where
  live : (code.after x).live = true
  joins : (code.after x).joins (w ++ y) = true
  behind : code.after (x ++ w) = code

/-- Whether what a pattern takes begins, behind white space, with a character that is code wherever
it is shown. -/
def BeginsFirm (p : Pattern) : Prop :=
  ∀ u w v, Matches p u w v → ∃ b f k, w = b ++ f :: k ∧ (∀ c ∈ b, Unicode.isBlank c = true) ∧
    isFirm f = true ∧ Unicode.isBlank f = false

/-- Whether what a pattern takes ends with a character that is code wherever it is shown. -/
def EndsFirm (p : Pattern) : Prop :=
  ∀ u w v, Matches p u w v → ∃ k z, w = k ++ [z] ∧ isFirm z = true

section
variable {p q : Pattern}

theorem beginsFirm_word {t : Text} (ht : isName t = true) : BeginsFirm (word t) := by
  intro u w v h
  rw [matches_word] at h
  obtain ⟨f, k, rfl⟩ := List.exists_cons_of_ne_nil (h.ne_nil ht)
  have hf := h.isWordChar ht f (by simp)
  refine ⟨[], f, k, rfl, by simp, isFirm_of_isWordChar hf, ?_⟩
  by_contra hblank
  rw [Bool.not_eq_false] at hblank
  rw [isWordChar_of_isBlank hblank] at hf
  exact absurd hf (by decide)

theorem beginsFirm_open : BeginsFirm (sym '(') := by
  rintro u w v h
  exact ⟨[], '(', [], matches_sym.1 h, by simp, by decide, by decide⟩

theorem BeginsFirm.seq (hp : BeginsFirm p) (q : Pattern) : BeginsFirm (p ++ q) := by
  intro u w v h
  obtain ⟨a, c, rfl, ha, -⟩ := matches_seq.1 h
  obtain ⟨b, f, k, rfl, hb, hf⟩ := hp _ _ _ ha
  exact ⟨b, f, k ++ c, by simp, hb, hf⟩

/-- White space in front does not matter. -/
theorem BeginsFirm.of_blank (hp : ∀ u w v, Matches p u w v → ∀ c ∈ w, Unicode.isBlank c = true)
    (hq : BeginsFirm q) : BeginsFirm (p ++ q) := by
  intro u w v h
  obtain ⟨a, c, rfl, ha, hc⟩ := matches_seq.1 h
  obtain ⟨b, f, k, rfl, hb, hf⟩ := hq _ _ _ hc
  refine ⟨a ++ b, f, k, by simp, fun c hc => ?_, hf⟩
  exact (List.mem_append.1 hc).elim (hp _ _ _ ha c) (hb c)

theorem isBlank_of_matches_blanks {u w v : Text} (h : Matches blanks u w v) :
    ∀ c ∈ w, Unicode.isBlank c = true :=
  matches_many_one.1 h

/-- White space and an edge take white space only. -/
theorem isBlank_of_matches_blanks_edge {u w v : Text} (h : Matches (blanks ++ edge) u w v) :
    ∀ c ∈ w, Unicode.isBlank c = true := by
  obtain ⟨b, e, rfl, hb, he⟩ := matches_seq.1 h
  obtain ⟨rfl, -⟩ := matches_edge.1 he
  rw [List.append_nil]
  exact isBlank_of_matches_blanks hb

theorem beginsFirm_blanks_word {t : Text} (ht : isName t = true) :
    BeginsFirm (blanks ++ edge ++ word t) :=
  .of_blank (fun _ _ _ => isBlank_of_matches_blanks_edge) (beginsFirm_word ht)

theorem BeginsFirm.alt (hp : BeginsFirm p) (hq : BeginsFirm q) : BeginsFirm (alt p q) := fun u w v h =>
  (matches_alt.1 h).elim (hp u w v) (hq u w v)

theorem endsFirm_word {t : Text} (ht : isName t = true) : EndsFirm (word t) := by
  intro u w v h
  rw [matches_word] at h
  obtain ⟨k, z, rfl⟩ := (List.eq_nil_or_concat w).resolve_left (h.ne_nil ht)
  exact ⟨k, z, by simp, isFirm_of_isWordChar (h.isWordChar ht z (by simp))⟩

theorem endsFirm_close : EndsFirm (sym ')') := by
  rintro u w v h
  exact ⟨[], ')', matches_sym.1 h, by decide⟩

theorem EndsFirm.seq (hq : EndsFirm q) (p : Pattern) : EndsFirm (p ++ q) := by
  intro u w v h
  obtain ⟨a, c, rfl, -, hc⟩ := matches_seq.1 h
  obtain ⟨k, z, rfl, hz⟩ := hq _ _ _ hc
  exact ⟨a ++ k, z, by simp, hz⟩

/-- An edge behind does not matter. -/
theorem EndsFirm.edge (hp : EndsFirm p) : EndsFirm (p ++ edge) := by
  intro u w v h
  obtain ⟨a, e, rfl, ha, he⟩ := matches_seq.1 h
  obtain ⟨rfl, -⟩ := matches_edge.1 he
  rw [List.append_nil]
  exact hp _ _ _ ha

theorem EndsFirm.alt (hp : EndsFirm p) (hq : EndsFirm q) : EndsFirm (alt p q) := fun u w v h =>
  (matches_alt.1 h).elim (hp u w v) (hq u w v)

end

/-- A match that begins and ends firmly is taken out of code. -/
theorem removed_of_mem_findAll {p : Pattern} (hframed : p.framed = true) (hbegin : BeginsFirm p)
    (hend : EndsFirm p) {sql x w y : Text} {m : Match} (hm : m ∈ p.findAll (mask sql)) (hsql : sql = x ++ (w ++ y))
    (hstart : m.start = Text.width x) (hstop : m.stop = Text.width (x ++ w)) : Removed x w y := by
  obtain ⟨u, t, hmask, hat⟩ := exists_of_mem_findAll hm
  have hside := isBlank_of_mem_findAll hframed (hmask ▸ hm) hat
  obtain ⟨mw, v, rfl, hfirst, hlast, hw⟩ := matchAt?_eq_some hat
  obtain ⟨b, f, k₁, rfl, hb, hf, hvisible⟩ := hbegin _ _ _ ⟨_, _, hw⟩
  obtain ⟨k₂, z, hk, hz⟩ := hend _ _ _ ⟨_, _, hw⟩
  have hwidth : Text.width x = Text.width u := by rw [← hstart]; simp [Match.start, hfirst]
  have hwidth' : Text.width (x ++ w) = Text.width (u ++ (b ++ f :: k₁)) := by
    rw [← hstop]
    simp [Match.stop, hlast]
  -- the end of the match
  have hmask' : mask sql = u ++ k₂ ++ [z] ++ v := by
    rw [hmask, hk]
    simp only [List.append_assoc]
  obtain ⟨e, t, hcut, he, -, -, hcode⟩ := exists_cut_after hz hmask'
  have hend : mask e = u ++ b ++ f :: k₁ := by
    rw [he, List.append_assoc, List.append_assoc, hk]
  obtain ⟨rfl, rfl⟩ := Text.append_inj_of_width
    ((List.append_assoc x w y).trans (hsql.symm.trans hcut))
    (by rw [hwidth', ← width_mask e, hend, List.append_assoc])
  -- its first character that is no white space
  obtain ⟨x₁, y₁, hcut', hx₁, -, hhead, hjoins⟩ := exists_cut_before hf hend
  obtain ⟨y₁, rfl⟩ := List.head?_eq_some_iff.1 hhead
  have hlive₁ : (code.after x₁).live = true := by
    refine live_of_joins hjoins ?_
    rintro rfl
    exact absurd hvisible (by decide)
  obtain ⟨y₀, rfl, hw⟩ := Text.exists_of_width_le hcut' (by
    rw [← width_mask x₁, hx₁, Text.width_append, hwidth]
    omega)
  obtain ⟨-, hlive, hj⟩ := cut_of_mask_eq hx₁ hlive₁ hwidth hb (hside.imp id fun hhead =>
    eq_nil_of_blanks hb (List.append_assoc b _ v ▸ hhead))
  refine ⟨hlive, ?_, hcode⟩
  rw [hw]
  cases y₀ with
  | nil =>
    rw [List.append_nil] at hjoins
    rwa [List.nil_append, joins_cons_append]
  | cons d y₀ => rwa [List.append_assoc, joins_cons_append]

theorem Removed.mask_eq {x w y : Text} (h : Removed x w y) : mask (x ++ (w ++ y)) = mask x ++ (mask w ++ mask y) := by
  have hfront : mask (x ++ w) = mask x ++ mask w := by
    cases w with
    | nil => rw [List.append_nil, mask_nil, List.append_nil]
    | cons c w =>
      have hjoins := h.joins
      rw [joins_cons_append] at hjoins
      exact mask_append hjoins
  rw [← List.append_assoc, mask_append (by rw [h.behind]; exact joins_code y), hfront, List.append_assoc]

/-- What is taken out of code is matched between the masks of what stands around it. -/
theorem Removed.matches {p : Pattern} {x w y : Text} {m : Match} (h : Removed x w y)
    (hm : m ∈ p.findAll (mask (x ++ (w ++ y)))) (hstart : m.start = Text.width x)
    (hstop : m.stop = Text.width (x ++ w)) : Matches p (mask x) (mask w) (mask y) := by
  obtain ⟨u, t, hmask, hat⟩ := exists_of_mem_findAll hm
  obtain ⟨mw, v, rfl, hfirst, hlast, hw⟩ := matchAt?_eq_some hat
  have hu : Text.width u = Text.width (mask x) := by
    rw [width_mask, ← hstart, Match.start, hfirst, offset_between]
  have huw : Text.width (u ++ mw) = Text.width (mask x ++ mask w) := by
    rw [Text.width_append (mask x), width_mask, width_mask, ← Text.width_append, ← hstop, Match.stop, hlast,
      offset_between]
  rw [h.mask_eq] at hmask
  obtain ⟨rfl, hrest⟩ := Text.append_inj_of_width hmask.symm hu
  rw [Text.width_append, Text.width_append, Nat.add_left_cancel_iff] at huw
  obtain ⟨rfl, rfl⟩ := Text.append_inj_of_width hrest huw
  exact ⟨_, _, hw⟩

/-! ## Comments -/

theorem comments_of_isPlain {t : Text} (h : ∀ c ∈ t, isPlain c = true) : comments t = [] := by
  induction t with
  | nil => simp [comments, segments]
  | cons c t ih =>
    have hc := h c (by simp)
    have hjoins : (code.after [c]).joins t = true := by
      rw [after_cons, step, ofCode_of_isPlain hc]
      exact joins_code t
    have hone : comments [c] = [] := by
      have hopens : opens [c] = false := by
        simp only [isPlain, Bool.and_eq_true, bne_iff_ne, ne_eq] at hc
        simp [opens, hc]
      rw [comments, segments, next_of_opens_eq_false hopens]
      simp [splitCode, segments]
    rw [← List.singleton_append, comments_append hjoins, hone, ih fun d hd => h d (by simp [hd])]
    rfl

/-- Whether a text can stand behind any code. -/
def Stands (t : Text) : Prop := ∀ s : LexState, s.live = true → s.joins t = true

theorem stands_of_isPlain {t : Text} (h : ∀ c ∈ t.head?, isPlain c = true) : Stands t :=
  fun _ hs => joins_of_head?_isPlain hs h

/-- Plain text that is put into code has no comment and starts a new one nowhere. -/
theorem comments_between {x r : Text} (hx : (code.after x).live = true) (hr : ∀ c ∈ r, isPlain c = true) (hne : r ≠ [])
    (y : Text) : comments (x ++ (r ++ y)) = comments x ++ comments y := by
  have hcode : code.after (x ++ r) = code := by rw [after_append, after_of_all_isPlain hx hr hne]
  rw [← List.append_assoc, comments_append (by rw [hcode]; exact joins_code y),
    comments_append (stands_of_isPlain (fun c hc => hr c (List.mem_of_head? hc)) _ hx), comments_of_isPlain hr,
    List.append_nil]

namespace Removed
variable {x w y r : Text} (h : Removed x w y)
include h

theorem comments_eq : comments (x ++ (w ++ y)) = comments x ++ (comments w ++ comments y) := by
  rw [comments_append h.joins]
  cases w with
  | nil => rw [comments_of_isPlain (t := []) (by simp), List.nil_append, List.nil_append]
  | cons c w =>
    have hjoins := h.joins
    have hbehind := h.behind
    rw [joins_cons_append] at hjoins
    rw [after_append, after_of_joins hjoins (List.cons_ne_nil c w)] at hbehind
    rw [comments_append (by rw [hbehind]; exact joins_code y)]

/-- What is put in the place of the text has no comment, and what follows goes on as it did. -/
theorem comments_replaced (hr : ∀ c ∈ r, isPlain c = true) (hstands : r = [] → Stands y) :
    comments (x ++ (r ++ y)) = comments x ++ comments y := by
  by_cases hne : r = []
  · rw [hne, List.nil_append, comments_append (hstands hne _ h.live)]
  · exact comments_between h.live hr hne y

end Removed

def insideMatch (sql : Text) (m : Match) : List Text :=
  comments ((Text.slice? sql m.start m.stop).getD [])

/-- The comments of a query out of which matches are taken: those in the matches are lost. -/
theorem Replaced.exists_comments {g : Match → Option Text} {k : Nat} {ms : List Match}
    {sql t out : Text} (pre y : Text) (h : Replaced g k ms t out) (hk : k = Text.width pre)
    (hsql : sql = pre ++ t) (hpre : code.after pre = code)
    (hms : ∀ m ∈ ms, ∀ x w z, sql = x ++ (w ++ z) → m.start = Text.width x →
      m.stop = Text.width (x ++ w) → Removed x w z ∧ ∃ r, g m = some r ∧
        (∀ c ∈ r, isPlain c = true) ∧ (r = [] → Stands z))
    (hy : (code.after y).live = true) (hhead : code.after y = code ∨ Stands t) :
    ∃ l, comments (y ++ out) = comments y ++ l ∧ l.Sublist (comments t) ∧
      (comments t).length = l.length + (ms.flatMap (insideMatch sql)).length := by
  induction h generalizing pre y with
  | nil k t =>
    have hjoins : (code.after y).joins t = true := by
      rcases hhead with hcode | hstands
      · rw [hcode]
        exact joins_code t
      · exact hstands _ hy
    exact ⟨comments t, comments_append hjoins, List.Sublist.refl _, by simp⟩
  | @cons k m ms a w rest out hstart hstop hrest ih =>
    obtain ⟨hremoved, r, hr, hplain, hstands⟩ := hms m (by simp) (pre ++ a) w rest
      (by rw [hsql]; simp) (by rw [hstart, hk, Text.width_append])
      (by rw [hstop, hstart, hk, Text.width_append, Text.width_append])
    have hafter : code.after (pre ++ a) = code.after a := by rw [after_append, hpre]
    obtain ⟨hlive, hjoins, hbehind⟩ := hremoved
    rw [after_append, hafter] at hbehind
    rw [hafter] at hlive hjoins
    have hold : comments (a ++ w ++ rest) = comments a ++ (comments w ++ comments rest) := by
      rw [List.append_assoc, Removed.comments_eq ⟨hlive, hjoins, by rw [after_append, hbehind]⟩]
    -- what is left of it
    have hya : (code.after y).joins a = true := by
      cases a with
      | nil => exact joins_nil _
      | cons c a =>
        rcases hhead with hcode | hstands
        · rw [hcode]
          exact joins_code _
        · rw [← joins_cons_append _ c a (w ++ rest), ← List.append_assoc]
          exact hstands _ hy
    have hlive' : (code.after (y ++ a)).live = true := by
      by_cases ha : a = []
      · rwa [ha, List.append_nil]
      · rwa [after_append, after_of_joins hya ha]
    have hr' : (code.after (y ++ a)).joins r = true :=
      stands_of_isPlain (fun c hc => hplain c (List.mem_of_head? hc)) _ hlive'
    have hnext : (code.after (y ++ a ++ r)).live = true ∧
        (code.after (y ++ a ++ r) = code ∨ Stands rest) := by
      by_cases hnil : r = []
      · rw [hnil, List.append_nil]
        exact ⟨hlive', .inr (hstands hnil)⟩
      · have := after_of_all_isPlain hlive' hplain hnil
        rw [after_append, this]
        exact ⟨rfl, .inl rfl⟩
    obtain ⟨l, hl, hsub, hlength⟩ := ih (pre ++ a ++ w) (y ++ a ++ r)
      (by rw [hstop, hstart, hk, Text.width_append, Text.width_append]) (by rw [hsql]; simp)
      (by rw [after_append, hafter, hbehind]) (fun m' hm' => hms m' (by simp [hm'])) hnext.1 hnext.2
    have hinside : insideMatch sql m = comments w := by
      have hslice := Text.slice?_append (pre ++ a) w rest
      rw [insideMatch, hstop, hstart, hk, ← Text.width_append, hsql, ← List.append_assoc,
        ← List.append_assoc, hslice, Option.getD_some]
    refine ⟨comments a ++ l, ?_, ?_, ?_⟩
    · have hout : y ++ (a ++ (g m).getD w ++ out) = y ++ a ++ r ++ out := by
        rw [hr, Option.getD_some]
        simp only [List.append_assoc]
      rw [hout, hl, comments_append hr', comments_append hya, comments_of_isPlain hplain,
        List.append_nil, List.append_assoc]
    · rw [hold]
      exact (List.Sublist.refl _).append (hsub.trans (List.sublist_append_right _ _))
    · rw [hold, List.flatMap_cons, hinside]
      simp only [List.length_append, hlength]
      omega

/-- Whether the text behind a match can stand behind any code. -/
def clearBehind (sql : Text) (m : Match) : Bool :=
  (Text.from? sql m.stop).all fun z => z.head?.all isPlain

theorem stands_of_clearBehind {a z : Text} {m : Match} (h : clearBehind (a ++ z) m = true)
    (hstop : m.stop = Text.width a) : Stands z := by
  refine stands_of_isPlain fun c hc => ?_
  rw [clearBehind, hstop, Text.from?_append, Option.all_some] at h
  exact (Option.all_eq_true _ _).1 h c hc

/-- The comments in the text that the matches of a pattern take. -/
def commentsTaken (p : Pattern) (sql : Text) : List Text :=
  (p.findAll (mask sql)).flatMap (insideMatch sql)

/-- Replacing firm matches by plain text leaves the comments that are outside of them. -/
theorem exists_comments_replaceSpans {σ : Type} {p : Pattern} (hframed : p.framed = true)
    (hbegin : BeginsFirm p) (hend : EndsFirm p) {sql : Text} {f : Match → Editing σ (Option Text)}
    {g : Match → Option Text} (hf : ∀ m ∈ p.findAll (mask sql), Gives (f m) (g m))
    (hg : ∀ m ∈ p.findAll (mask sql), ∃ r, g m = some r ∧ (∀ c ∈ r, isPlain c = true) ∧
      (r = [] → clearBehind sql m = true)) :
    ∃ out, Gives (replaceSpans sql p f) out ∧ (comments out).Sublist (comments sql) ∧
      (comments sql).length = (comments out).length + (commentsTaken p sql).length := by
  obtain ⟨out, hout, hreplaced⟩ := gives_replaceSpans hframed hf
  have hms : ∀ m ∈ p.findAll (mask sql), ∀ x w z, sql = x ++ (w ++ z) → m.start = Text.width x →
      m.stop = Text.width (x ++ w) → Removed x w z ∧ ∃ r, g m = some r ∧
        (∀ c ∈ r, isPlain c = true) ∧ (r = [] → Stands z) := by
    intro m hm x w z hsql hstart hstop
    obtain ⟨r, hr, hplain, hclear⟩ := hg m hm
    refine ⟨removed_of_mem_findAll hframed hbegin hend hm hsql hstart hstop, r, hr, hplain, fun hnil => ?_⟩
    have hclear := hclear hnil
    rw [hsql, ← List.append_assoc] at hclear
    exact stands_of_clearBehind hclear hstop
  obtain ⟨l, hl, hsub, hlength⟩ := hreplaced.exists_comments [] [] rfl rfl rfl hms rfl (.inl rfl)
  have hnil : comments [] = [] := comments_of_isPlain (by simp)
  rw [hnil, List.nil_append, List.nil_append] at hl
  exact ⟨out, hout, hl ▸ hsub, hl ▸ hlength⟩

theorem sublist_iff_taken_eq_nil {old new taken : List Text} (hsub : new.Sublist old)
    (hlength : old.length = new.length + taken.length) : old.Sublist new ↔ taken = [] := by
  constructor
  · intro h
    have := h.length_le
    exact List.length_eq_zero_iff.1 (by omega)
  · rintro rfl
    exact (hsub.eq_of_length (by simpa using hlength.symm)) ▸ List.Sublist.refl _

end DialectBridge
