import DialectBridge.Proofs.SkeletonRules
/-!
# Queries without comments under the rules for calls

A call that is written anew with its own arguments, in any order, brings no comment and none of the words
for tables and row limits into a query (`sane_replaceCalls`). So the rules for calls, but for the one that
rewrites formats, keep a query that has none (`Keeps`).
-/
namespace DialectBridge
open Pattern LexState

/-- Whether a text can be put into code without harm, whatever stands around it. -/
def Fits (S : List Text) (names : List String) (t : Text) : Prop :=
  ∀ x z, Sane S names x → (code.after x).live = true → endsInWord (mask x) = false → Sane S names z →
    Sane S names (x ++ (t ++ z))

section
variable {σ : Type} {s : σ} {S : List Text} {names : List String} {name sql t : Text}

theorem IsJoint.fits (h : IsJoint S names t) : Fits S names t := fun _ _ hx hlive hleft hz =>
  (h.between hx hlive hleft hz).1

theorem exists_pieces_word_append {w : Text} (hw : ∀ c ∈ w, Unicode.isWordChar c = true) (hne : w ≠ []) (t : Text) :
    ∃ p ps, pieces (w ++ t) = (w ++ p) :: ps ∧ ∀ q ∈ ps, q ∈ pieces t := by
  induction w with
  | nil => exact absurd rfl hne
  | cons c w ih =>
    have hc := hw c (by simp)
    rw [List.cons_append, pieces_cons]
    by_cases hnil : w = []
    · subst hnil
      rw [List.nil_append]
      cases ht : pieces t with
      | nil => exact ⟨[], [], rfl, by simp⟩
      | cons p ps =>
      rw [attach]
      split_ifs
      · exact ⟨p, ps, rfl, fun q hq => by simp [hq]⟩
      · exact ⟨[], p :: ps, rfl, fun q hq => hq⟩
    · obtain ⟨p, ps, hpieces, hps⟩ := ih (fun d hd => hw d (by simp [hd])) hnil
      obtain ⟨d, w, rfl⟩ := List.exists_cons_of_ne_nil hnil
      rw [hpieces, attach, if_pos (by simp [hc, hw d])]
      exact ⟨p, ps, rfl, hps⟩

/-- A word that begins no word of the list may stand in front of anything. -/
theorem Sane.word_append {w z : Text} (hw : ∀ c ∈ w, Unicode.isWordChar c = true) (hne : w ≠ [])
    (hnames : ∀ p, ∀ n ∈ names, ¬ Spelled n.toList (w ++ p)) (hz : Sane S names z) : Sane S names (w ++ z) := by
  have hplain : ∀ c ∈ w, isPlain c = true := fun c hc => isPlain_of_isWordChar (hw c hc)
  have hjoins : (code.after w).joins z = true := by
    rw [after_of_all_isPlain rfl hplain hne]
    exact joins_code z
  refine ⟨(clean_of_isPlain hplain).append hz.clean hjoins, fun q hq => ?_⟩
  obtain ⟨p, ps, hpieces, hps⟩ := exists_pieces_word_append hw hne (mask z)
  rw [mask_append hjoins, mask_of_all_isPlain hplain, hpieces] at hq
  rcases List.mem_cons.1 hq with rfl | hq
  · exact hnames p
  · exact hz.spares q (hps q hq)

/-- Calls written anew as texts that fit. -/
theorem sane_replaceCalls {f : Call → Editing σ (Option Text)} (hname : isName name = true) (hunmarked : Unmarked name)
    (hf : ∀ call s, (∀ p ∈ call.inner :: call.args, SanePart S names p) →
      Leads (f call) s fun r _ => ∀ t ∈ r, Fits S names t)
    (hsane : Sane S names sql) : Leads (replaceCalls sql name f) s fun out _ => Sane S names out := by
  refine leads_replaceCallsBefore hname (I := fun out _ => Sane S names out)
    (fun {sql s m closing x h inside y ps} hcut hsane => ?_) _ hsane
  obtain ⟨hinside, hargs⟩ := hcut.sane_parts hname hunmarked hsane
  obtain ⟨hx, hy⟩ := hcut.sane_sides hsane
  refine .bind ((hf _ s fun p hp => ?_).mono fun r s' hr => leads_pure ?_)
  · rcases List.mem_cons.1 hp with rfl | hp
    · exact hinside
    · split_ifs at hp
      · simp at hp
      · exact hargs p hp
  · cases r with
    | none => exact hsane
    | some t =>
    rintro k z hsplit hk
    obtain ⟨rfl, rfl⟩ : k = [] ∧ z = y := Text.append_inj_of_width (by simpa using hsplit.symm) hk
    exact hr t rfl x z hx hcut.live hcut.left hy

theorem leads_none : Leads (pure none : Editing σ (Option Text)) s fun r _ => ∀ t ∈ r, Fits S names t :=
  leads_pure (by simp)

theorem leads_some (h : Fits S names t) :
    Leads (pure (some t) : Editing σ (Option Text)) s fun r _ => ∀ t ∈ r, Fits S names t :=
  leads_pure (by simpa using h)

end

/-! ## The rules -/

/-- Whether a rule keeps queries without the names, all of whose comments are in `S`. -/
def Keeps (S : List Text) (names : List String) (rule : Text → Reporting Text) : Prop :=
  ∀ sql raised, Sane S names sql → Leads (rule sql) raised fun out _ => Sane S names out

section
variable {σ : Type} {s : σ} {rule rule' : Text → Reporting Text} {S : List Text} {names : List String} {t : Text}

theorem Keeps.bind (h : Keeps S names rule) (h' : Keeps S names rule') : Keeps S names fun sql => rule sql >>= rule' :=
  fun sql raised hsane => .bind ((h sql raised hsane).mono fun out raised' hout => h' out raised' hout)

/-- The words for tables and row limits do not begin with `END`. -/
theorem fits_end (hnames : names ⊆ limitWords) (h : IsJoint S names t) : Fits S names (t ++ "END".toList) := by
  intro x z hx hlive hleft hz
  have hend : ∀ p, ∀ n ∈ names, ¬ Spelled n.toList ("END".toList ++ p) := by
    have hfirst : ∀ n ∈ limitWords, ∃ c w, n.toList = c :: w ∧ 'E' ∉ Unicode.caseVariants c := by
      simp only [limitWords, List.forall_mem_cons]
      exact ⟨⟨_, _, rfl, by decide⟩, ⟨_, _, rfl, by decide⟩, ⟨_, _, rfl, by decide⟩, by simp⟩
    intro p n hn hspelled
    obtain ⟨c, w, hname, hc⟩ := hfirst n (hnames hn)
    rw [hname] at hspelled
    exact hc (List.forall₂_cons.1 hspelled).1
  rw [List.append_assoc]
  exact h.fits x _ hx hlive hleft (hz.word_append (by decide) (by simp) hend)

variable {available : List Text} (gs parts : List Text)

/-- A text stitched together from some of the parts of a call. -/
theorem leads_stitch (hgs : Joints S names gs) (hlength : gs.length = parts.length + 1)
    (hparts : ∀ p ∈ available, SanePart S names p) (hsub : parts ⊆ available) (ht : t = stitch gs parts) :
    Leads (pure (some t) : Editing σ (Option Text)) s fun r _ => ∀ t ∈ r, Fits S names t := by
  rw [ht]
  exact leads_some (isJoint_stitch parts hgs hlength fun p hp => hparts p (hsub hp)).1.fits

theorem leads_stitch_end (hnames : names ⊆ limitWords) (hgs : Joints S names gs)
    (hlength : gs.length = parts.length + 1) (hparts : ∀ p ∈ available, SanePart S names p) (hsub : parts ⊆ available)
    (ht : t = stitch gs parts ++ "END".toList) :
    Leads (pure (some t) : Editing σ (Option Text)) s fun r _ => ∀ t ∈ r, Fits S names t := by
  rw [ht]
  exact leads_some (fits_end hnames (isJoint_stitch parts hgs hlength fun p hp => hparts p (hsub hp)).1)

theorem keeps_renameCalls {old new : Text} (hold : isName old = true) (hunmarked : Unmarked old)
    (hnew : Joints S names [new ++ "(".toList, ")".toList]) : Keeps S names fun sql => renameCalls sql old new :=
  fun _ _ => sane_replaceCalls hold hunmarked fun call _ hparts =>
    leads_stitch _ [call.inner] hnew rfl hparts (by simp) (by simp [stitch])

end

namespace ToTsql
variable {S : List Text} {names : List String} {t : Text}

def rewrittenCalls : List Text :=
  ["NVL", "NVL2", "DECODE", "CAST", "TRUNC", "ADD_MONTHS", "MONTHS_BETWEEN", "LAST_DAY", "TO_DATE", "TO_NUMBER",
    "SUBSTR", "INSTR", "LENGTHB", "LENGTH"]

theorem unmarked_rewrittenCalls : ∀ name ∈ rewrittenCalls, isName name = true ∧ Unmarked name := by decide

/-- What is written around the arguments of these calls. -/
def templates : List (List Text) :=
  let styles : List (List Text) := ConvertStyle.styles.map fun entry =>
    ["CONVERT(DATETIME, ", ", ".toList ++ Text.ofNat entry.2 ++ ")".toList]
  let fixed : List (List Text) :=
    [["ISNULL(", ")"], ["CAST(", ")"], ["CASE WHEN ", " IS NOT NULL THEN ", " ELSE ", " "], ["CAST(", " AS DATE)"],
      ["DATEFROMPARTS(YEAR(", "), MONTH(", "), 1)"], ["DATEFROMPARTS(YEAR(", "), 1, 1)"], ["ROUND(", ", ", ", 1)"],
      ["DATEADD(MONTH, ", ", ", ")"], ["DATEDIFF(MONTH, ", ", ", ")"], ["EOMONTH(", ")"], ["CAST(", " AS DATETIME)"],
      ["TRY_CAST(", " AS DATETIME)"], ["CAST(", " AS DECIMAL(38, 10))"], ["TRY_CAST(", " AS DECIMAL(38, 10))"],
      ["SUBSTRING(", ")"], ["SUBSTRING(", ", ", ", LEN(", "))"], ["CHARINDEX(", ", ", ")"],
      ["CHARINDEX(", ", ", ", ", ")"], ["DATALENGTH(", ")"], ["LEN(", ")"]]
  fixed ++ styles

theorem joints_templates : ∀ gs ∈ templates, Joints [] limitWords gs := by
  unfold templates
  repeat rewrite [String.toList_ofList]
  decide +kernel

theorem keeps_rewritten {name : Text} {f : Call → Reporting (Option Text)} (hname : name ∈ rewrittenCalls)
    (hf : ∀ call raised, (∀ p ∈ call.inner :: call.args, SanePart S names p) →
      Leads (f call) raised fun r _ => ∀ t ∈ r, Fits S names t) : Keeps S names fun sql => replaceCalls sql name f :=
  fun _ _ => sane_replaceCalls (unmarked_rewrittenCalls _ hname).1 (unmarked_rewrittenCalls _ hname).2 hf

variable (hnames : names ⊆ limitWords)
include hnames

theorem keeps_renamed {old new : Text} (hold : old ∈ rewrittenCalls)
    (hnew : [new ++ "(".toList, ")".toList] ∈ templates) : Keeps S names fun sql => renameCalls sql old new :=
  keeps_renameCalls (unmarked_rewrittenCalls _ hold).1 (unmarked_rewrittenCalls _ hold).2
    ((joints_templates _ hnew).mono hnames)

theorem leads_template {σ : Type} {s : σ} {available : List Text} (gs parts : List Text) (hgs : gs ∈ templates)
    (hlength : gs.length = parts.length + 1) (hparts : ∀ p ∈ available, SanePart S names p)
    (hsub : parts ⊆ available) (ht : t = stitch gs parts) :
    Leads (pure (some t) : Editing σ (Option Text)) s fun r _ => ∀ t ∈ r, Fits S names t :=
  leads_stitch gs parts ((joints_templates gs hgs).mono hnames) hlength hparts hsub ht

theorem keeps_nvl : Keeps S names nvl := keeps_renamed hnames (by decide) (by decide)

theorem keeps_nvl2 : Keeps S names nvl2 := by
  refine keeps_rewritten (by decide) fun call raised hparts => ?_
  split
  · rename_i value ifSet ifNull hargs
    exact leads_stitch_end ["CASE WHEN ".toList, " IS NOT NULL THEN ".toList, " ELSE ".toList, " ".toList]
      [value, ifSet, ifNull] hnames ((joints_templates _ (by decide)).mono hnames) rfl hparts (by simp [hargs]) (by simp [stitch])
  · exact leads_none

/-- Whether any joint may follow a text. -/
def Leading (S : List Text) (names : List String) (t : Text) : Prop :=
  ∀ g, IsJoint S names g → beginsInWord g = false → IsJoint S names (t ++ g)

omit hnames in
theorem Leading.part {g p : Text} (ht : Leading S names t) (hg : IsJoint S names g) (hleft : beginsInWord g = false)
    (hp : SanePart S names p) : Leading S names (t ++ g ++ p) := by
  intro g' hg' hleft'
  have hjoints : Joints S names [t ++ g, g'] := ⟨by simp [ht g hg hleft, hg'], by simpa using hleft'⟩
  have hjoint := (isJoint_stitch [p] hjoints rfl (by simpa using hp)).1
  simpa [stitch] using hjoint

theorem leading_case : Leading S names "CASE".toList := by
  intro g hg hleft
  have hsplits : Splits "CASE".toList g := ⟨joins_code g, .of_begins (by rwa [beginsInWord_mask]) _⟩
  have hspares : Spares limitWords "CASE".toList := by decide
  have hcase : Sane S names "CASE".toList := sane_of_isPlain (by decide) (hspares.mono hnames)
  refine ⟨⟨?_, ?_⟩, hcase.append hg.sane hsplits, 'C', by simp, by decide⟩
  · rw [after_append]
    exact hg.front.code
  · rw [endsInWord_append hg.ne_nil]
    exact hg.front.left

/-- The texts between the arguments of `DECODE`. -/
theorem isJoint_between_branches : ∀ g ∈ [" WHEN ".toList, " = ".toList, " THEN ".toList,
    " IS NULL".toList ++ " THEN ".toList, " ELSE ".toList, " ".toList],
    IsJoint S names g ∧ beginsInWord g = false := by
  have hjoints : ∀ g ∈ [" WHEN ".toList, " = ".toList, " THEN ".toList, " IS NULL".toList ++ " THEN ".toList,
      " ELSE ".toList, " ".toList], IsJoint [] limitWords g ∧ beginsInWord g = false := by
    decide +kernel
  exact fun g hg => ⟨(hjoints g hg).1.mono hnames, (hjoints g hg).2⟩

theorem leading_decodeBranches {expr : Text} {l : List Text} (hexpr : SanePart S names expr)
    (hl : ∀ a ∈ l, SanePart S names a) (ht : Leading S names t) : Leading S names (t ++ decodeBranches expr l) := by
  have hjoints := isJoint_between_branches (S := S) hnames
  simp only [List.forall_mem_cons] at hjoints
  obtain ⟨hwhen, hequals, hthen, hnull, helse, -⟩ := hjoints
  fun_induction decodeBranches expr l generalizing t with
  | case1 search result more test =>
    rename_i ih
    have hbranch : Leading S names (t ++ " WHEN ".toList ++ expr ++ test ++ " THEN ".toList ++ result) := by
      have hexpr := ht.part hwhen.1 hwhen.2 hexpr
      simp only [test]
      split_ifs
      · rw [List.append_assoc _ " IS NULL".toList]
        exact hexpr.part hnull.1 hnull.2 (hl result (by simp))
      · rw [← List.append_assoc]
        exact (hexpr.part hequals.1 hequals.2 (hl search (by simp))).part hthen.1 hthen.2 (hl result (by simp))
    have hmore := ih (fun a ha => hl a (by simp [ha])) hbranch
    simpa only [List.append_assoc] using hmore
  | case2 otherwise =>
    rw [← List.append_assoc]
    exact ht.part helse.1 helse.2 (hl _ (by simp))
  | case3 => simpa using ht

theorem keeps_decode : Keeps S names decode := by
  refine keeps_rewritten (by decide) fun call raised hparts => ?_
  split
  · rename_i expr search result more hargs
    have hbranches := leading_decodeBranches hnames (l := search :: result :: more) (hparts expr (by simp [hargs]))
      (fun a ha => hparts a (by simp [hargs, ha])) (leading_case hnames)
    have hfits := fits_end hnames (hbranches " ".toList (isJoint_between_branches hnames _ (by simp)).1 (by decide))
    exact leads_some (by simpa using hfits)
  · exact leads_none

theorem leads_truncToUnit? {σ : Type} {s : σ} {available : List Text} {value unit : Text}
    (hparts : ∀ p ∈ available, SanePart S names p) (hvalue : value ∈ available)
    (ht : truncToUnit? value unit = some t) :
    Leads (pure (some t) : Editing σ (Option Text)) s fun r _ => ∀ t ∈ r, Fits S names t := by
  unfold truncToUnit? at ht
  split_ifs at ht
  · exact leads_template hnames ["CAST(".toList, " AS DATE)".toList] [value] (by decide) rfl hparts (by simpa using hvalue)
      (by simp [stitch, ← Option.some.inj ht])
  · exact leads_template hnames ["DATEFROMPARTS(YEAR(".toList, "), MONTH(".toList, "), 1)".toList] [value, value]
      (by decide) rfl hparts (by simpa using hvalue) (by simp [stitch, ← Option.some.inj ht])
  · exact leads_template hnames ["DATEFROMPARTS(YEAR(".toList, "), 1, 1)".toList] [value] (by decide) rfl hparts
      (by simpa using hvalue) (by simp [stitch, ← Option.some.inj ht])

theorem keeps_trunc : Keeps S names trunc := by
  refine keeps_rewritten (by decide) fun call raised hparts => ?_
  split
  · rename_i value hargs
    exact leads_template hnames ["CAST(".toList, " AS DATE)".toList] [value] (by decide) rfl hparts (by simp [hargs])
      (by simp [stitch])
  · rename_i value unit hargs
    split_ifs
    · exact leads_template hnames ["ROUND(".toList, ", ".toList, ", 1)".toList] [value, unit] (by decide) rfl hparts
        (by simp [hargs]) (by simp [stitch])
    split
    · exact .bind (leads_modify leads_none)
    split
    · rename_i hnew
      exact leads_truncToUnit? hnames hparts (by simp [hargs]) hnew
    · exact .bind (leads_modify leads_none)
  · exact leads_none

theorem keeps_dateFunctions : Keeps S names dateFunctions := by
  unfold dateFunctions
  refine .bind ?_ (.bind ?_ (keeps_renamed hnames (by decide) (by decide)))
  · refine keeps_rewritten (by decide) fun call raised hparts => ?_
    split
    · rename_i date months hargs
      exact leads_template hnames ["DATEADD(MONTH, ".toList, ", ".toList, ")".toList] [months, date] (by decide) rfl
        hparts (by simp [hargs]) (by simp [stitch])
    · exact leads_none
  · refine keeps_rewritten (by decide) fun call raised hparts => ?_
    split
    · rename_i later earlier hargs
      refine .bind (leads_modify ?_)
      exact leads_template hnames ["DATEDIFF(MONTH, ".toList, ", ".toList, ")".toList] [earlier, later] (by decide) rfl
        hparts (by simp [hargs]) (by simp [stitch])
    · exact leads_none

theorem keeps_toDate : Keeps S names toDate := by
  refine keeps_rewritten (by decide) fun call raised hparts => ?_
  split
  · rename_i value hargs
    exact leads_template hnames ["CAST(".toList, " AS DATETIME)".toList] [value] (by decide) rfl hparts (by simp [hargs])
      (by simp [stitch])
  · rename_i value format _ hargs
    split
    · rename_i style hstyle
      obtain ⟨mask, -, hmask⟩ := Option.bind_eq_some_iff.1 hstyle
      obtain ⟨entry, hentry, rfl⟩ := Option.map_eq_some_iff.1 hmask
      have hstyle : ["CONVERT(DATETIME, ".toList, ", ".toList ++ Text.ofNat entry.2 ++ ")".toList] ∈ templates :=
        List.mem_append_right _ (List.mem_map.2 ⟨entry, List.mem_of_find?_eq_some hentry, rfl⟩)
      exact leads_template hnames _ [value] hstyle rfl hparts (by simp [hargs]) (by simp [stitch])
    · refine .bind (leads_modify ?_)
      exact leads_template hnames ["TRY_CAST(".toList, " AS DATETIME)".toList] [value] (by decide) rfl hparts
        (by simp [hargs]) (by simp [stitch])
  · exact leads_none

theorem keeps_toNumber : Keeps S names toNumber := by
  refine keeps_rewritten (by decide) fun call raised hparts => ?_
  split
  · rename_i value hargs
    exact leads_template hnames ["CAST(".toList, " AS DECIMAL(38, 10))".toList] [value] (by decide) rfl hparts
      (by simp [hargs]) (by simp [stitch])
  · rename_i value _ _ hargs
    refine .bind (leads_modify ?_)
    exact leads_template hnames ["TRY_CAST(".toList, " AS DECIMAL(38, 10))".toList] [value] (by decide) rfl hparts
      (by simp [hargs]) (by simp [stitch])
  · exact leads_none

theorem keeps_stringFunctions : Keeps S names stringFunctions := by
  unfold stringFunctions
  refine .bind ?_ (.bind ?_ (.bind (keeps_renamed hnames (by decide) (by decide)) (keeps_renamed hnames (by decide) (by decide))))
  · refine keeps_rewritten (by decide) fun call raised hparts => ?_
    split
    · exact leads_template hnames ["SUBSTRING(".toList, ")".toList] [call.inner] (by decide) rfl hparts (by simp)
        (by simp [stitch])
    · rename_i text start hargs
      exact leads_template hnames ["SUBSTRING(".toList, ", ".toList, ", LEN(".toList, "))".toList] [text, start, text]
        (by decide) rfl hparts (by simp [hargs]) (by simp [stitch])
    · exact leads_none
  · refine keeps_rewritten (by decide) fun call raised hparts => ?_
    split
    · rename_i text needle hargs
      exact leads_template hnames ["CHARINDEX(".toList, ", ".toList, ")".toList] [needle, text] (by decide) rfl hparts
        (by simp [hargs]) (by simp [stitch])
    · rename_i text needle start hargs
      exact leads_template hnames ["CHARINDEX(".toList, ", ".toList, ", ".toList, ")".toList] [needle, text, start]
        (by decide) rfl hparts (by simp [hargs]) (by simp [stitch])
    · exact .bind (leads_modify leads_none)
    · exact leads_none

end ToTsql

end DialectBridge
