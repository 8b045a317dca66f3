import DialectBridge.Proofs.CallCuts
import DialectBridge.Proofs.CommentCuts
import Mathlib.Data.List.Infix
/-!
# Comments in the arguments of calls

An argument is trimmed, and a comment that runs to the end of its line loses the line feed that ends
it. In a text without such comments an argument ends in code, and its comments are comments of the text
(`Piece`, `CallCut.clean`).
-/
namespace DialectBridge
open Pattern LexState

/-! ## Texts without comments to the end of the line -/

/-- Whether the lexer is nowhere in a comment that runs to the end of its line. -/
def Unlined (t : Text) : Prop := ∀ a, a <+: t → code.after a ≠ line

instance (t : Text) : Decidable (Unlined t) :=
  decidable_of_iff (∀ a ∈ t.inits, code.after a ≠ line) (by simp [Unlined, List.mem_inits])

section
variable {t u v : Text}

theorem unlined_of_isPlain (h : ∀ c ∈ t, isPlain c = true) : Unlined t := fun a ha => by
  cases a with
  | nil => simp
  | cons c a =>
    rw [after_of_all_isPlain rfl (fun d hd => h d (ha.subset hd)) (by simp)]
    simp

theorem Unlined.append (hu : Unlined u) (hv : Unlined v) (h : (code.after u).joins v = true) : Unlined (u ++ v) := by
  rintro a ⟨d, hd⟩
  rcases List.append_eq_append_iff.1 hd with ⟨b, rfl, -⟩ | ⟨b, rfl, rfl⟩
  · exact hu a (List.prefix_append a b)
  cases b with
  | nil => simpa using hu u List.prefix_rfl
  | cons c b =>
    rw [after_append, after_of_joins (by rwa [joins_cons_append] at h) (by simp)]
    exact hv _ (List.prefix_append _ _)

theorem Unlined.left (h : Unlined (u ++ v)) : Unlined u := fun a ha => h a (ha.trans (List.prefix_append u v))

theorem Unlined.right (h : Unlined (u ++ v)) (hj : (code.after u).joins v = true) : Unlined v := fun a ha => by
  cases a with
  | nil => simp
  | cons c a =>
    obtain ⟨d, rfl⟩ := ha
    have := h (u ++ c :: a) (by simp)
    rwa [after_append, after_of_joins (by rwa [joins_cons_append] at hj) (by simp)] at this

/-- Plain characters end no comment but one that runs to the end of the line. -/
theorem live_of_plain (h : code.after u ≠ line) (hv : ∀ c ∈ v, isPlain c = true)
    (hlive : (code.after (u ++ v)).live = true) : (code.after u).live = true := by
  by_contra hnot
  rw [Bool.not_eq_true] at hnot
  rw [after_append, live_after_dull hnot] at hlive
  · exact absurd hlive (by simp)
  · intro c hc
    simp [isDull, hv c hc, h]

end

/-- A text without comments to the end of the line, all of whose comments are in `S`. -/
structure Clean (S : List Text) (t : Text) : Prop where
  unlined : Unlined t
  comments : ∀ c ∈ comments t, c ∈ S

section
variable {S : List Text} {t u v w : Text}

theorem clean_of_isPlain (h : ∀ c ∈ t, isPlain c = true) : Clean S t :=
  ⟨unlined_of_isPlain h, by simp [comments_of_isPlain h]⟩

theorem Clean.append (hu : Clean S u) (hv : Clean S v) (h : (code.after u).joins v = true) :
    Clean S (u ++ v) := by
  refine ⟨hu.unlined.append hv.unlined h, ?_⟩
  rw [comments_append h]
  exact fun c hc => (List.mem_append.1 hc).elim (hu.comments c) (hv.comments c)

theorem Clean.left (h : Clean S (u ++ v)) (hj : (code.after u).joins v = true) : Clean S u := by
  refine ⟨h.unlined.left, fun c hc => h.comments c ?_⟩
  rw [comments_append hj]
  exact List.mem_append_left _ hc

theorem Clean.right (h : Clean S (u ++ v)) (hj : (code.after u).joins v = true) : Clean S v := by
  refine ⟨h.unlined.right hj, fun c hc => h.comments c ?_⟩
  rw [comments_append hj]
  exact List.mem_append_right _ hc

/-- A clean text that ends in code. -/
def Piece (S : List Text) (t : Text) : Prop := Clean S t ∧ (code.after t).live = true

/-- Trimming takes white space off both ends, and leaves a text that ends in code. -/
theorem Piece.exists_trim (h : Piece S t) : ∃ b e, t = b ++ (Text.trim t ++ e) ∧
    (∀ c ∈ b, Unicode.isBlank c = true) ∧ (∀ c ∈ e, Unicode.isBlank c = true) ∧ Piece S (Text.trim t) := by
  obtain ⟨hclean, hlive⟩ := h
  obtain ⟨b, hb, hfront, hcode⟩ := exists_trimStart t
  obtain ⟨e, he, hblank⟩ := Text.exists_eq_dropTrailing_append Unicode.isBlank (Text.trimStart t)
  change Text.trimStart t = Text.trim t ++ e at he
  rw [hb] at hclean hlive
  have hclean := hclean.right (by rw [hcode]; exact joins_code _)
  rw [after_append, hcode, he] at hlive
  rw [he] at hclean
  have hlive := live_of_plain (hclean.unlined _ (List.prefix_append _ _)) (fun c hc => isPlain_of_isBlank (hblank c hc)) hlive
  refine ⟨b, e, by rw [← he, ← hb], hfront, hblank, hclean.left (joins_of_head?_isPlain hlive fun c hc => ?_), hlive⟩
  exact isPlain_of_isBlank (hblank c (List.mem_of_head? hc))

theorem Piece.trim (h : Piece S t) : Piece S (Text.trim t) := by
  obtain ⟨-, -, -, -, -, htrim⟩ := h.exists_trim
  exact htrim

/-- The pieces between commas in code. -/
theorem Clean.piece_of_join {pieces : List Text} (h : Clean S (Text.join [','] pieces))
    (hlive : ∀ p ∈ pieces, (code.after p).live = true) : ∀ p ∈ pieces, Piece S p := by
  induction pieces with
  | nil => simp
  | cons q pieces ih =>
    have hq := hlive q (by simp)
    by_cases hnil : pieces = []
    · subst hnil
      simpa [Text.join, List.intercalate, Piece, hq] using h
    rw [Text.join_cons hnil, List.append_assoc] at h
    have hcomma : code.after [','] = code := rfl
    have hjoins : (code.after q).joins ([','] ++ Text.join [','] pieces) = true :=
      joins_of_live hq (by decide)
    have hrest := (h.right hjoins).right (by rw [hcomma]; exact joins_code _)
    rintro p hp
    rcases List.mem_cons.1 hp with rfl | hp
    · exact ⟨h.left hjoins, hq⟩
    · exact ih hrest (fun p hp => hlive p (by simp [hp])) p hp

end

/-! ## The arguments of a call -/

/-- The parts of a query around and inside of a call. -/
theorem CallCut.clean {S : List Text} {name sql x a inside y : Text} {m : Match} {closing : Nat}
    {pieces : List Text} (hcut : CallCut name sql m closing x a inside y pieces) (h : Clean S sql) :
    Clean S x ∧ Clean S inside ∧ Clean S y := by
  have hsplit : sql = x ++ a ++ ['('] ++ (inside ++ ([')'] ++ y)) := by rw [hcut.split]; simp
  have hclose : code.after [')'] = code := rfl
  have hjoins : (code.after inside).joins ([')'] ++ y) = true := joins_of_live hcut.closed (by decide)
  have hrest := (hsplit ▸ h).right (by rw [hcut.opened]; exact joins_code _)
  have hright := (hrest.right hjoins).right (by rw [hclose]; exact joins_code _)
  exact ⟨(hcut.split ▸ h).left hcut.joins, hrest.left hjoins, hright⟩

end DialectBridge
