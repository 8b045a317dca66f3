import DialectBridge.Proofs.CallComments
import DialectBridge.Proofs.Marks
import DialectBridge.Proofs.Sweep
import DialectBridge.Proofs.Terms
/-!
# Calls written anew

The pieces of a call are those of its arguments, in order, with fillers around them
(`CallCut.exists_sewn`), and so are the pieces of a text that a rule stitches together from the same
arguments (`sewn_stitch`).
-/
namespace DialectBridge
open Pattern LexState

/-! ## Splitting the pieces of the code -/

def codePieces (t : Text) : List Text := pieces (mask t)

/-- Whether the code of two texts in a row is that of the one and of the other. -/
structure Splits (a b : Text) : Prop where
  joins : (code.after a).joins b = true
  apart : Apart (mask a) (mask b)

/-- A clean text whose code spares the names. -/
structure Sane (S : List Text) (names : List String) (t : Text) : Prop where
  clean : Clean S t
  spares : Spares names (mask t)

structure SanePart (S : List Text) (names : List String) (t : Text) : Prop extends Sane S names t where
  live : (code.after t).live = true

section
variable {S : List Text} {names : List String} {a b t : Text}

theorem Splits.codePieces_eq (h : Splits a b) : codePieces (a ++ b) = codePieces a ++ codePieces b := by
  rw [codePieces, mask_append h.joins, pieces_append h.apart]
  rfl

@[simp] theorem codePieces_nil : codePieces [] = [] := by simp [codePieces]

theorem codePieces_cons {c : Char} (hc : isPlain c = true) (hword : Unicode.isWordChar c = false) (t : Text) :
    codePieces (c :: t) = [c] :: codePieces t := by
  rw [codePieces, mask_cons_of_isPlain hc, pieces_cons_of_not_word hword]
  rfl

theorem Front.splits (ha : Front a) (b : Text) : Splits a b where
  joins := by rw [ha.code]; exact joins_code _
  apart := .of_ends (by rw [endsInWord_mask (by rw [ha.code]; rfl)]; exact ha.left) _

theorem Behind.splits (hb : Behind b) (ha : (code.after a).live = true) : Splits a b where
  joins := joins_of_head?_isPlain ha hb.plain
  apart := .of_begins (by rw [beginsInWord_mask]; exact hb.right) _

theorem Behind.of_close (t : Text) : Behind (')' :: t) := ⟨by simp; decide, rfl⟩

theorem behind_of_blanks (hb : ∀ c ∈ b, Unicode.isBlank c = true) : Behind b where
  plain c hc := isPlain_of_isBlank (hb c (List.mem_of_head? hc))
  right := beginsInWord_of_blanks hb

theorem Front.of_append {u : Text} (ha : (LexState.code.after a).live = true) (hu : Front u) (hne : u ≠ [])
    (hplain : ∀ c ∈ u.head?, isPlain c = true) : Front (a ++ u) := by
  refine ⟨?_, by rw [endsInWord_append hne]; exact hu.left⟩
  rw [after_append, after_of_joins (joins_of_head?_isPlain ha hplain) hne]
  exact hu.code

theorem Sane.append (ha : Sane S names a) (hb : Sane S names b) (h : Splits a b) : Sane S names (a ++ b) where
  clean := ha.clean.append hb.clean h.joins
  spares p hp := by
    change p ∈ codePieces (a ++ b) at hp
    rw [h.codePieces_eq] at hp
    exact (List.mem_append.1 hp).elim (ha.spares p) (hb.spares p)

theorem Sane.left (h : Sane S names (a ++ b)) (hsplits : Splits a b) : Sane S names a where
  clean := h.clean.left hsplits.joins
  spares p hp := h.spares p (by
    change p ∈ codePieces (a ++ b)
    rw [hsplits.codePieces_eq]
    exact List.mem_append_left _ hp)

theorem Sane.right (h : Sane S names (a ++ b)) (hsplits : Splits a b) : Sane S names b where
  clean := h.clean.right hsplits.joins
  spares p hp := h.spares p (by
    change p ∈ codePieces (a ++ b)
    rw [hsplits.codePieces_eq]
    exact List.mem_append_right _ hp)

theorem sane_of_isPlain (hplain : ∀ c ∈ t, isPlain c = true) (h : Spares names t) : Sane S names t :=
  ⟨clean_of_isPlain hplain, by rwa [mask_of_all_isPlain hplain]⟩

end

/-! ## Pieces of no mark -/

/-- Pieces that are found in no mark, or in its seams only. -/
def Inert (l : List Text) : Prop := ∀ p ∈ l, p ∉ markWords

instance (l : List Text) : Decidable (Inert l) := inferInstanceAs (Decidable (∀ p ∈ l, p ∉ markWords))

/-- Whether a name is in no mark, however it is spelled. -/
def Unmarked (name : Text) : Prop := ∀ w ∈ markWords ++ markSeams, ¬ Spelled name w

instance (name : Text) : Decidable (Unmarked name) :=
  inferInstanceAs (Decidable (∀ w ∈ markWords ++ markSeams, ¬ Spelled name w))

section
variable {l l' : List Text} {b n name : Text}

theorem Inert.append (h : Inert l) (h' : Inert l') : Inert (l ++ l') := fun p hp =>
  (List.mem_append.1 hp).elim (h p) (h' p)

theorem inert_blanks (hb : ∀ c ∈ b, Unicode.isBlank c = true) : Inert (pieces b) := by
  have hmarks : ∀ w ∈ markWords, ∃ c ∈ w, Unicode.isBlank c = false := by decide
  rw [pieces_blanks hb]
  rintro p hp hmark
  obtain ⟨c, hc, rfl⟩ := List.mem_map.1 hp
  obtain ⟨d, hd, hshown⟩ := hmarks _ hmark
  rw [List.mem_singleton.1 hd, hb c hc] at hshown
  exact absurd hshown (by decide)

theorem inert_spelled (hname : Unmarked name) (hn : Spelled name n) : Inert [n] := fun p hp hmark => by
  rw [List.mem_singleton.1 hp] at hmark
  exact hname n (List.mem_append_left _ hmark) hn

theorem IsFiller.of_spelled (hname : Unmarked name) (hn : Spelled name n) : IsFiller [n] :=
  ⟨inert_spelled hname hn, n, by simp, fun h => hname n (List.mem_append_right _ h) hn⟩

end

/-! ## The pieces of a call -/

section
variable {S : List Text} {names : List String} {t y : Text} {a c : List Text}

theorem Piece.exists_codePieces_trim (h : Piece S t) : ∃ b e, Inert b ∧ Inert e ∧
    codePieces t = b ++ (codePieces (Text.trim t) ++ e) := by
  obtain ⟨b, e, ht, hb, he, -, hlive⟩ := h.exists_trim
  have hmask : ∀ {u : Text}, (∀ c ∈ u, Unicode.isBlank c = true) → mask u = u := fun hu =>
    mask_of_all_isPlain fun c hc => isPlain_of_isBlank (hu c hc)
  refine ⟨pieces b, pieces e, inert_blanks hb, inert_blanks he, ?_⟩
  have hfront : Splits b (Text.trim t ++ e) := by
    by_cases hnil : b = []
    · subst hnil
      exact (Front.mk rfl rfl).splits _
    · refine Front.splits ⟨after_of_all_isPlain rfl (fun c hc => isPlain_of_isBlank (hb c hc)) hnil, ?_⟩ _
      simpa using endsInWord_blanks hnil hb []
  conv_lhs => rw [ht]
  rw [hfront.codePieces_eq, ((behind_of_blanks he).splits hlive).codePieces_eq, codePieces, codePieces, codePieces,
    hmask hb, hmask he]

/-- The pieces between commas are sewn of the arguments. -/
theorem sewn_join {ps : List Text} (hne : ps ≠ []) (hps : ∀ p ∈ ps, Piece S p) (ha : IsFiller a) (hc : IsFiller c) :
    Sewn IsFiller ((ps.map Text.trim).map codePieces) (a ++ (codePieces (Text.join [','] ps) ++ c)) := by
  have hcomma : IsFiller [[',']] := ⟨by decide, by decide⟩
  induction ps generalizing a with
  | nil => exact absurd rfl hne
  | cons p ps ih =>
    have hp := hps p (by simp)
    obtain ⟨b, e, hb, he, hpieces⟩ := hp.exists_codePieces_trim
    by_cases hnil : ps = []
    · subst hnil
      have hjoin : Text.join [','] [p] = p := by simp [Text.join, List.intercalate]
      have hsewn := Sewn.part (p := codePieces (Text.trim p)) (ha.append_right hb) (.last (hc.append_left he))
      rw [hjoin, hpieces]
      simpa only [List.append_assoc, List.map_cons, List.map_nil] using hsewn
    · have hsplit : Splits p (',' :: Text.join [','] ps) := (Behind.mk (by simp; decide) rfl).splits hp.2
      have hjoin : Text.join [','] (p :: ps) = p ++ ',' :: Text.join [','] ps := by
        rw [Text.join_cons hnil, List.append_assoc, List.singleton_append]
      have hsewn := Sewn.part (p := codePieces (Text.trim p)) (ha.append_right hb)
        (ih hnil (fun q hq => hps q (by simp [hq])) (hcomma.append_left he))
      rw [hjoin, hsplit.codePieces_eq, codePieces_cons (by decide) (by decide), hpieces]
      simpa only [List.append_assoc, List.map_cons, List.singleton_append, List.cons_append,
        List.nil_append] using hsewn

end

section
variable {S : List Text} {names : List String} {name sql x h inside y : Text} {m : Match} {closing : Nat}
  {ps : List Text}

theorem CallCut.splits (hcut : CallCut name sql m closing x h inside y ps) (z : Text) :
    Splits x (h ++ '(' :: (inside ++ ')' :: y)) ∧ Splits (x ++ h ++ ['(']) z ∧ Splits inside (')' :: z) :=
  ⟨⟨hcut.joins, .of_ends hcut.left _⟩,
    Front.splits ⟨hcut.opened, by rw [endsInWord_append (by simp)]; decide⟩ _, (Behind.of_close z).splits hcut.closed⟩

theorem live_of_step_open {s : LexState} (h : s.step '(' = code) : s.live = true := by
  rcases s with _ | _ | _ | q | q | _ | _ | _
  all_goals first | rfl | (cases q <;> revert h <;> decide) | (revert h; decide)

/-- The pieces of the head of a call. -/
theorem CallCut.exists_codePieces_head (hname : isName name = true)
    (hcut : CallCut name sql m closing x h inside y ps) : ∃ n b, Spelled name n ∧
      (∀ c ∈ b, Unicode.isBlank c = true) ∧
      codePieces (x ++ h ++ ['(']) = codePieces x ++ ([n] ++ (pieces b ++ [['(']])) := by
  obtain ⟨n, b, hmask, hn, hb⟩ := hcut.named
  have hlive : (code.after (x ++ h)).live = true := live_of_step_open (by simpa using hcut.opened)
  have hbegin : beginsInWord (b ++ ['(']) = false := beginsInWord_blanks hb rfl
  have hopen : mask ['('] = ['('] := mask_of_all_isPlain (by decide)
  refine ⟨n, b, hn, hb, ?_⟩
  rw [codePieces, mask_append (joins_of_live hlive (by decide)), hmask, hopen, List.append_assoc, List.append_assoc,
    pieces_append (.of_ends hcut.left _), pieces_append (.of_begins hbegin _), pieces_append (.of_begins rfl _),
    pieces_word (hn.ne_nil hname) (hn.isWordChar hname)]
  rfl

/-- A call is sewn of the text between its parentheses, and of its arguments. -/
theorem CallCut.exists_sewn (hname : isName name = true) (hunmarked : Unmarked name)
    (hcut : CallCut name sql m closing x h inside y ps) (hclean : Clean S sql) :
    ∃ l, codePieces sql = codePieces x ++ (l ++ codePieces y) ∧ Sewn IsFiller [codePieces inside] l ∧
      Sewn IsFiller ((ps.map Text.trim).map codePieces) l := by
  obtain ⟨n, b, hn, hb, hhead⟩ := hcut.exists_codePieces_head hname
  obtain ⟨-, hinside, -⟩ := hcut.clean hclean
  have hps : ∀ p ∈ ps, Piece S p := (hcut.arguments.joined ▸ hinside).piece_of_join hcut.arguments.live
  have hopen : IsFiller ([n] ++ (pieces b ++ [['(']])) :=
    (IsFiller.of_spelled hunmarked hn).append_right ((inert_blanks hb).append (by decide))
  have hclose : IsFiller [[')']] := ⟨by decide, by decide⟩
  refine ⟨([n] ++ (pieces b ++ [['(']])) ++ (codePieces inside ++ [[')']]), ?_, .part hopen (.last hclose), ?_⟩
  · obtain ⟨-, hfront, -⟩ := hcut.splits (inside ++ ')' :: y)
    obtain ⟨-, -, hinner⟩ := hcut.splits y
    have hsplit : sql = x ++ h ++ ['('] ++ (inside ++ ')' :: y) := by rw [hcut.split]; simp
    rw [hsplit, hfront.codePieces_eq, hinner.codePieces_eq, codePieces_cons (by decide) (by decide), hhead]
    simp
  · rw [hcut.arguments.joined]
    exact sewn_join hcut.arguments.ne_nil hps hopen hclose

theorem CallCut.sane_sides (hcut : CallCut name sql m closing x h inside y ps) (hsane : Sane S names sql) :
    Sane S names x ∧ Sane S names y := by
  have hsplit : sql = x ++ h ++ ['('] ++ (inside ++ ')' :: y) := by rw [hcut.split]; simp
  have hfront : Splits [')'] y := (Front.mk rfl rfl).splits y
  refine ⟨(hcut.split ▸ hsane).left (hcut.splits []).1, ?_⟩
  exact (((hsplit ▸ hsane).right (hcut.splits _).2.1).right (hcut.splits y).2.2).right hfront

/-- The arguments of a call, and the text between its parentheses, are sane. -/
theorem CallCut.sane_parts (hname : isName name = true) (hunmarked : Unmarked name)
    (hcut : CallCut name sql m closing x h inside y ps) (hsane : Sane S names sql) :
    SanePart S names inside ∧ ∀ t ∈ ps.map Text.trim, SanePart S names t := by
  obtain ⟨-, hinside, -⟩ := hcut.clean hsane.clean
  obtain ⟨l, hl, hinner, hargs⟩ := hcut.exists_sewn hname hunmarked hsane.clean
  have hspares : ∀ p ∈ l, ∀ n ∈ names, ¬ Spelled n.toList p := fun p hp => hsane.spares p (by
    change p ∈ codePieces sql
    simp [hl, hp])
  refine ⟨⟨⟨hinside, fun p hp => hspares p (hinner.mem_of_part (List.mem_singleton.2 rfl) hp)⟩, hcut.closed⟩, fun t ht => ?_⟩
  obtain ⟨p, hp, rfl⟩ := List.mem_map.1 ht
  have hpiece := ((hcut.arguments.joined ▸ hinside).piece_of_join hcut.arguments.live p hp).trim
  exact ⟨⟨hpiece.1, fun q hq => hspares q (hargs.mem_of_part (List.mem_map_of_mem ht) hq)⟩, hpiece.2⟩

end

/-! ## Texts stitched together -/

/-- Parts with joints in front of each of them and at the end. -/
def stitch {α : Type} : (joints parts : List (List α)) → List α
  | g :: gs, p :: ps => g ++ (p ++ stitch gs ps)
  | gs, _ => gs.flatten

@[simp] theorem stitch_singleton {α : Type} (g : List α) : stitch [g] [] = g := by simp [stitch]

theorem sewn_stitch {gs ps : List (List Text)} (h : gs.length = ps.length + 1) :
    Sewn (fun _ => True) ps (stitch gs ps) := by
  induction ps generalizing gs with
  | nil => exact .last trivial
  | cons p ps ih =>
    match gs, h with
    | g :: gs, h => exact .part trivial (ih (by simpa using h))

theorem stitch_cons {α : Type} (g : List α) (gs ps : List (List α)) : ∃ t, stitch (g :: gs) ps = g ++ t := by
  cases ps with
  | nil => exact ⟨gs.flatten, by simp [stitch]⟩
  | cons p ps => exact ⟨p ++ stitch gs ps, rfl⟩

/-- A sane text that can stand in front of a part, and behind any code. -/
structure IsJoint (S : List Text) (names : List String) (g : Text) : Prop where
  front : Front g
  sane : Sane S names g
  plain : ∃ c ∈ g.head?, isPlain c = true

/-- Joints, all of which but the first can stand behind a part. -/
structure Joints (S : List Text) (names : List String) (gs : List Text) : Prop where
  joint : ∀ g ∈ gs, IsJoint S names g
  right : ∀ g ∈ gs.tail, beginsInWord g = false

section
variable {S : List Text} {names : List String} {g x t z : Text} {gs ps : List Text}

instance : Decidable (IsJoint S names g) :=
  decidable_of_iff (((code.after g = code ∧ endsInWord g = false) ∧ (Unlined g ∧ ∀ c ∈ comments g, c ∈ S) ∧
      Spares names (mask g)) ∧ ∃ c ∈ g.head?, isPlain c = true)
    ⟨fun ⟨⟨⟨hcode, hleft⟩, ⟨hunlined, hcomments⟩, hspares⟩, hplain⟩ =>
      ⟨⟨hcode, hleft⟩, ⟨⟨hunlined, hcomments⟩, hspares⟩, hplain⟩,
    fun ⟨⟨hcode, hleft⟩, ⟨⟨hunlined, hcomments⟩, hspares⟩, hplain⟩ =>
      ⟨⟨⟨hcode, hleft⟩, ⟨hunlined, hcomments⟩, hspares⟩, hplain⟩⟩

instance : Decidable (Joints S names gs) :=
  decidable_of_iff ((∀ g ∈ gs, IsJoint S names g) ∧ ∀ g ∈ gs.tail, beginsInWord g = false)
    ⟨fun ⟨h, h'⟩ => ⟨h, h'⟩, fun ⟨h, h'⟩ => ⟨h, h'⟩⟩

/-- A joint without comments and without some names is one for other comments and fewer names. -/
theorem IsJoint.mono {names' : List String} (h : IsJoint [] names' g) (hnames : names ⊆ names') : IsJoint S names g where
  front := h.front
  sane := ⟨⟨h.sane.clean.unlined, fun c hc => by simpa using h.sane.clean.comments c hc⟩, h.sane.spares.mono hnames⟩
  plain := h.plain

theorem Joints.mono {names' : List String} (h : Joints [] names' gs) (hnames : names ⊆ names') : Joints S names gs :=
  ⟨fun g hg => (h.joint g hg).mono hnames, h.right⟩

theorem IsJoint.ne_nil (h : IsJoint S names g) : g ≠ [] := by
  rintro rfl
  obtain ⟨c, hc, -⟩ := h.plain
  simp at hc

theorem IsJoint.plain_of_mem (h : IsJoint S names g) : ∀ c ∈ g.head?, isPlain c = true := fun c hc => by
  obtain ⟨d, hd, hplain⟩ := h.plain
  rwa [Option.mem_unique hc hd]

/-- Sane parts stitched together make a sane text, whose pieces are stitched together too. -/
theorem isJoint_stitch (ps : List Text) (hgs : Joints S names gs) (hlength : gs.length = ps.length + 1)
    (hps : ∀ p ∈ ps, SanePart S names p) :
    IsJoint S names (stitch gs ps) ∧ codePieces (stitch gs ps) = stitch (gs.map codePieces) (ps.map codePieces) := by
  induction ps generalizing gs with
  | nil =>
    obtain ⟨g, rfl⟩ := List.length_eq_one_iff.1 hlength
    rw [stitch_singleton]
    exact ⟨hgs.joint g (by simp), by simp⟩
  | cons p ps ih =>
    match gs, hlength with
    | g :: g' :: gs, hlength =>
      have hg := hgs.joint g (by simp)
      have hp := hps p (by simp)
      have hgs' : Joints S names (g' :: gs) :=
        ⟨fun k hk => hgs.joint k (by simp [hk]), fun k hk => hgs.right k (by simpa using Or.inr hk)⟩
      obtain ⟨hrest, hpieces⟩ := ih hgs' (by simpa using hlength) fun q hq => hps q (by simp [hq])
      have hbehind : Behind (stitch (g' :: gs) ps) := by
        refine ⟨hrest.plain_of_mem, ?_⟩
        obtain ⟨t, ht⟩ := stitch_cons g' gs ps
        rw [ht, beginsInWord_append (hgs.joint g' (by simp)).ne_nil]
        exact hgs.right g' (by simp)
      have hinner : Splits p (stitch (g' :: gs) ps) := hbehind.splits hp.live
      have houter : Splits g (p ++ stitch (g' :: gs) ps) := hg.front.splits _
      have hlive : (code.after (g ++ p)).live = true := by rw [after_append, hg.front.code]; exact hp.live
      refine ⟨⟨?_, hg.sane.append (hp.toSane.append hrest.sane hinner) houter, ?_⟩, ?_⟩
      · have hfront := Front.of_append hlive hrest.front hrest.ne_nil hbehind.plain
        rwa [List.append_assoc] at hfront
      · obtain ⟨d, hd, hplain⟩ := hg.plain
        exact ⟨d, by simp [stitch, List.head?_append, Option.mem_def.1 hd], hplain⟩
      · change codePieces (g ++ (p ++ stitch (g' :: gs) ps)) = _
        rw [houter.codePieces_eq, hinner.codePieces_eq, hpieces]
        rfl

/-- A sane text put into a query. -/
theorem IsJoint.between (ht : IsJoint S names t) (hx : Sane S names x) (hlive : (code.after x).live = true)
    (hleft : endsInWord (mask x) = false) (hz : Sane S names z) : Sane S names (x ++ (t ++ z)) ∧
      codePieces (x ++ (t ++ z)) = codePieces x ++ (codePieces t ++ codePieces z) := by
  have houter : Splits x (t ++ z) := by
    refine ⟨joins_of_head?_isPlain hlive fun c hc => ?_, .of_ends hleft _⟩
    rw [List.head?_append_of_ne_nil _ ht.ne_nil] at hc
    exact ht.plain_of_mem c hc
  have hinner : Splits t z := ht.front.splits z
  exact ⟨hx.append (ht.sane.append hz hinner) houter, by rw [houter.codePieces_eq, hinner.codePieces_eq]⟩

end

end DialectBridge
