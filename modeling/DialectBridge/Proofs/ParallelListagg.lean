import DialectBridge.Proofs.ParallelRules
/-!
# `LISTAGG`, run side by side

The clause behind a call is found in the mask, so it stands in the same place behind calls that are alike, and
its list is alike (`exists_clauses`). What is asked of an argument or of the list, `DISTINCT` in front, `DESC` at
the end or whether it is a name, is asked of plain text. The placeholder of the skeleton is any text, which may
open a literal or a comment: the rule keeps queries alike if the skeleton that it stands in does not
(`parallel_listagg`).
-/
namespace DialectBridge
open Pattern LexState

section
variable {t t' v y y' : Text}

/-! ## The list of a clause -/

/-- What stands behind the words `ORDER BY`, less the white space in front of it. -/
def behindOrder (t : Text) : Text := Text.trimStart ((Text.trimStart (t.drop 5)).drop 2)

theorem trimStart_of_isBlank {b : Text} (hb : ∀ c ∈ b, Unicode.isBlank c = true) (t : Text) :
    Text.trimStart (b ++ t) = Text.trimStart t :=
  List.dropWhile_append_of_pos hb

theorem trimStart_of_spelled {name w : Text} (hname : isName name = true) (hw : Spelled name w) (t : Text) :
    Text.trimStart (w ++ t) = w ++ t := by
  obtain ⟨c, w, rfl⟩ := List.exists_cons_of_ne_nil (hw.ne_nil hname)
  refine List.dropWhile_cons_of_neg fun hblank => ?_
  have hword := hw.isWordChar hname c (by simp)
  rw [isWordChar_of_isBlank hblank] at hword
  exact absurd hword (by decide)

theorem behindOrder_append {p c : Text} (hp : IsPair "ORDER".toList "BY".toList p)
    (hc : ∀ d ∈ c, Unicode.isBlank d = true) : behindOrder (p ++ (c ++ v)) = Text.trimStart v := by
  obtain ⟨n, b, k, rfl, hn, ⟨-, hb⟩, hk⟩ := hp
  have hn5 : n.length = 5 := hn.length_eq.symm
  have hk2 : k.length = 2 := hk.length_eq.symm
  rw [behindOrder, List.append_assoc, List.drop_left' hn5, List.append_assoc, trimStart_of_isBlank hb,
    trimStart_of_spelled (by decide) hk, List.drop_left' hk2, trimStart_of_isBlank hc]

theorem matches_orderByHead {p c : Text} (hp : IsPair "ORDER".toList "BY".toList p)
    (hc : c ≠ [] ∧ ∀ d ∈ c, Unicode.isBlank d = true) (v : Text) : Matches orderByHead [] (p ++ c) v := by
  obtain ⟨n, b, k, rfl, hn, hb, hk⟩ := hp
  have hfirst : Matches (textStart ++ word "ORDER".toList) [] n (b ++ (k ++ (c ++ v))) :=
    matches_seq.2 ⟨[], n, rfl, matches_textStart.2 ⟨rfl, rfl⟩, matches_word.2 hn⟩
  have hgap : Matches (textStart ++ word "ORDER".toList ++ blanks1) [] (n ++ b) (k ++ (c ++ v)) :=
    matches_seq.2 ⟨n, b, rfl, hfirst, matches_blanks1.2 hb⟩
  have hsecond : Matches (textStart ++ word "ORDER".toList ++ blanks1 ++ word "BY".toList) [] (n ++ (b ++ k))
      (c ++ v) :=
    matches_seq.2 ⟨n ++ b, k, by simp, hgap, matches_word.2 hk⟩
  exact matches_seq.2 ⟨n ++ (b ++ k), c, rfl, hsecond, matches_blanks1.2 hc⟩

/-- The words `ORDER BY` at the front of a list are at the front of the lists that are alike. -/
theorem exists_order_of_twin (h : Twin t t') {m : Match} (hm : orderByHead.find? t = some m) :
    ∃ v v' m', orderByHead.replaceFirstBy (fun _ => []) t = v ∧ orderByHead.find? t' = some m' ∧
      Text.trimStart v' = Text.trimStart (orderByHead.replaceFirstBy (fun _ => []) t') ∧ Twin v v' := by
  obtain ⟨p, c, v, rfl, hp, ⟨hne, hc⟩, hv⟩ := exists_orderByHead hm
  rw [← List.append_assoc] at h
  obtain ⟨v', rfl, htwin⟩ := h.drop_plain (isPlain_pair_append (by decide) (by decide) hp hc)
  have hmatch := matches_orderByHead hp ⟨hne, hc⟩ v'
  obtain ⟨m', hm'⟩ := Option.isSome_iff_exists.1 (occursIn_of_matches hmatch)
  rw [List.nil_append] at hm'
  refine ⟨v, v', m', hv, hm', ?_, htwin⟩
  obtain ⟨p', c', w, hsplit, hp', ⟨-, hc'⟩, hw⟩ := exists_orderByHead hm'
  have hrest : Text.trimStart v' = behindOrder (p' ++ (c' ++ w)) := by
    rw [← hsplit, List.append_assoc, behindOrder_append hp hc]
  rw [hw, hrest, behindOrder_append hp' hc']

theorem Twin.order (h : Twin t t') : Twin (Text.trim (orderByHead.replaceFirstBy (fun _ => []) t))
    (Text.trim (orderByHead.replaceFirstBy (fun _ => []) t')) := by
  cases hm : orderByHead.find? t with
  | some m =>
    obtain ⟨v, v', m', hv, -, hv', htwin⟩ := exists_order_of_twin h hm
    have htrim : Text.trim (orderByHead.replaceFirstBy (fun _ => []) t') = Text.trim v' := by
      rw [Text.trim, ← hv', ← Text.trim]
    rw [hv, htrim]
    exact htwin.trim
  | none =>
    cases hm' : orderByHead.find? t' with
    | some m' =>
      obtain ⟨-, -, m, -, hsome, -⟩ := exists_order_of_twin h.symm hm'
      rw [hm] at hsome
      cases hsome
    | none =>
      rw [replaceFirstBy, replaceFirstBy, hm, hm']
      exact h.trim

/-! ## The clause behind a call -/

/-- The clauses behind two calls, with `y` and `y'` behind them: none, or lists that are alike and as many
bytes. -/
inductive Clauses (y y' : Text) : Option (Text × Nat) → Option (Text × Nat) → Prop where
  | none : Clauses y y' none none
  | some {order order' k k' z z' : Text} (horder : Twin order order') (hy : y = k ++ z) (hy' : y' = k' ++ z')
      (hwidth : Text.width k = Text.width k') (hz : Paired z z') :
      Clauses y y' (some (order, Text.width k)) (some (order', Text.width k'))

theorem GroupCut.paired {order order' a a' inside inside' z z' : Text} {n n' : Nat}
    (hcut : GroupCut y order n a inside z) (hcut' : GroupCut y' order' n' a' inside' z') (h : Paired y y') :
    Text.width a = Text.width a' ∧ Twin inside inside' ∧ Paired z z' := by
  have hmask := h.alike.mask_eq
  obtain ⟨head, hhead, hstop⟩ := hcut.found
  obtain ⟨head', hhead', hstop'⟩ := hcut'.found
  obtain rfl : head = head' := Option.some.inj (by rw [← hhead, ← hhead', hmask])
  have hwidth : Text.width a = Text.width a' := by omega
  have hshut : Text.width (a ++ '(' :: inside) = Text.width (a' ++ '(' :: inside') :=
    Option.some.inj (by rw [← hcut.shut, ← hcut'.shut, hmask, hwidth])
  simp only [Text.width_append, Text.width_cons] at hshut
  rw [hcut.split, hcut'.split] at h
  obtain ⟨-, h⟩ := h.parts (joins_of_live hcut.live (by decide)) hwidth
  obtain ⟨hinside, h⟩ := (h.of_cons (by decide)).parts (joins_of_live hcut.closed (by decide)) (by omega)
  exact ⟨hwidth, hinside.twin hcut.closed hcut'.closed, h.of_cons (by decide)⟩

theorem withinGroup?_eq_none (h : Alike y y') (hnone : withinGroup? y = some none) : withinGroup? y' = some none := by
  rw [withinGroup?, ← h.mask_eq]
  rw [withinGroup?] at hnone
  cases hhead : withinGroupHead.find? (mask y) with
  | none => rfl
  | some head =>
    cases hclosing : matchingParen? (mask y) (head.stop - 1) with
    | none => simp only [hclosing]
    | some closing =>
      simp only [hhead, hclosing] at hnone
      obtain ⟨_, -, hsome⟩ := Option.bind_eq_some_iff.1 hnone
      cases hsome

theorem exists_clauses (h : Paired y y') :
    ∃ clause clause', withinGroup? y = some clause ∧ withinGroup? y' = some clause' ∧ Clauses y y' clause clause' := by
  obtain ⟨clause, hclause, -⟩ := exists_withinGroup? y
  obtain ⟨clause', hclause', -⟩ := exists_withinGroup? y'
  refine ⟨clause, clause', hclause, hclause', ?_⟩
  match clause, clause' with
  | none, clause' =>
    obtain rfl : none = clause' := Option.some.inj ((withinGroup?_eq_none h.alike hclause).symm.trans hclause')
    exact .none
  | some _, none =>
    have hnone := withinGroup?_eq_none h.symm.alike hclause'
    rw [hclause] at hnone
    cases hnone
  | some (order, n), some (order', n') =>
    obtain ⟨a, inside, z, hcut⟩ := exists_groupCut hclause
    obtain ⟨a', inside', z', hcut'⟩ := exists_groupCut hclause'
    obtain ⟨hwidth, hinside, hz⟩ := hcut.paired hcut' h
    rw [hcut.order_eq, hcut'.order_eq, hcut.width_eq, hcut'.width_eq]
    refine .some hinside.trim.order (by rw [hcut.split]; simp) (by rw [hcut'.split]; simp) ?_ hz
    simp only [Text.width_append, Text.width_cons, hwidth, hinside.alike.width_eq]

theorem replacements_of_clauses {clause clause' : Option (Text × Nat)} (h : Clauses y y' clause clause')
    (hy : Paired y y') (ht : Stitched false t t') :
    Replacements y y' (some (t, (clause.map Prod.snd).getD 0)) (some (t', (clause'.map Prod.snd).getD 0)) := by
  cases h with
  | none =>
    have hput := Replacements.some ht (List.nil_append y).symm (List.nil_append y').symm rfl hy
    rwa [Text.width_nil] at hput
  | some _ hk hk' hwidth hz => exact .some ht hk hk' hwidth hz

end

namespace ToTsql
variable {a b t t' value value' : Text}

/-! ## What is asked of the parts -/

theorem occursIn_descending_of_twin (h : Twin t t') (ht : descending.occursIn t = true) :
    descending.occursIn t' = true := by
  obtain ⟨m, hm⟩ := Option.isSome_iff_exists.1 ht
  obtain ⟨u, x, rfl, hat⟩ := exists_of_find? hm
  obtain ⟨w, v, rfl, -, -, hw⟩ := matchAt?_eq_some hat
  obtain ⟨w, e, rfl, hw, he⟩ := matches_seq.1 (show Matches descending u w v from ⟨_, _, hw⟩)
  obtain ⟨s, n, rfl, hs, hn⟩ := matches_seq.1 hw
  obtain ⟨rfl, hedge⟩ := matches_edge.1 hs
  obtain ⟨rfl, rfl⟩ := matches_textEnd.1 he
  have hspelled := matches_word.1 hn
  simp only [List.nil_append, List.append_nil] at h hedge
  obtain ⟨u', rfl, hu⟩ := h.dropLast_plain fun c hc => isPlain_of_isWordChar (hspelled.isWordChar (by decide) c hc)
  have hword : Matches (edge ++ word "DESC".toList) u' n [] :=
    matches_seq.2 ⟨[], n, rfl, matches_edge.2 ⟨rfl, by rwa [← hu.endsInWord_eq, List.append_nil]⟩, matches_word.2 (by simpa using hspelled)⟩
  have hmatch : Matches descending u' n [] :=
    matches_seq.2 ⟨n, [], by simp, hword, matches_textEnd.2 ⟨rfl, rfl⟩⟩
  simpa using occursIn_of_matches hmatch

theorem descending_eq_of_clauses {y y' : Text} {clause clause' : Option (Text × Nat)} (h : Clauses y y' clause clause') :
    (clause.map Prod.fst).any descending.occursIn = (clause'.map Prod.fst).any descending.occursIn := by
  cases h with
  | none => rfl
  | some horder => exact Bool.eq_iff_iff.2 ⟨occursIn_descending_of_twin horder, occursIn_descending_of_twin horder.symm⟩

theorem isIdentifierPath_eq (h : Twin value value') : isIdentifierPath value = isIdentifierPath value' := by
  rw [Bool.eq_iff_iff]
  refine ⟨fun hpath => ?_, fun hpath => ?_⟩
  · rwa [h.alike.eq_of_isPlain (isPlain_of_isIdentifierPath hpath)]
  · rwa [h.alike.symm.eq_of_isPlain (isPlain_of_isIdentifierPath hpath)]

theorem isPlain_skeletonColumn (value : Text) : ∀ c ∈ skeletonColumn value, isPlain c = true := by
  rw [skeletonColumn]
  split_ifs with hpath
  · obtain ⟨l, c, hsplit, hcases⟩ := exists_splitOn_eq (· == '.') value
    have hlast : ((Text.splitOn (· == '.') value).getLast?).getD "val".toList = c := by simp [hsplit]
    have hsuffix : c <:+ value := by
      rcases hcases with ⟨-, rfl⟩ | ⟨-, front, d, -, rfl⟩
      · exact List.suffix_rfl
      · exact ⟨front ++ [d], by simp⟩
    rw [hlast]
    exact fun d hd => isPlain_of_isIdentifierPath hpath d (hsuffix.subset hd)
  · decide

/-- The column is a name in the value, or made up: no literal has a part in it. -/
theorem skeletonColumn_eq (h : Twin value value') : skeletonColumn value' = skeletonColumn value := by
  rw [skeletonColumn, skeletonColumn, ← isIdentifierPath_eq h]
  split_ifs with hpath
  · rw [h.alike.eq_of_isPlain (isPlain_of_isIdentifierPath hpath)]
  · rfl

theorem matches_distinctArgument {n b r : Text} (hn : Spelled "DISTINCT".toList n)
    (hb : b ≠ [] ∧ ∀ c ∈ b, Unicode.isBlank c = true) (hr : r ≠ []) :
    Matches distinctArgument [] (n ++ (b ++ r)) [] := by
  have hword : Matches (textStart ++ word "DISTINCT".toList) [] n (b ++ r) :=
    matches_seq.2 ⟨[], n, rfl, matches_textStart.2 ⟨rfl, rfl⟩, matches_word.2 hn⟩
  have hgap : Matches (textStart ++ word "DISTINCT".toList ++ blanks1) [] (n ++ b) r :=
    matches_seq.2 ⟨n, b, rfl, hword, matches_blanks1.2 hb⟩
  have hvalue : Matches (.group 1 (many1 anyChar)) (n ++ b) r [] :=
    matches_group.2 (matches_many1_one.2 ⟨hr, fun c _ => contains_all c⟩)
  have hall : Matches (textStart ++ word "DISTINCT".toList ++ blanks1 ++ .group 1 (many1 anyChar)) []
      (n ++ (b ++ r)) [] :=
    matches_seq.2 ⟨n ++ b, r, by simp, by simpa using hgap, hvalue⟩
  exact matches_seq.2 ⟨n ++ (b ++ r), [], by simp, hall, matches_textEnd.2 ⟨rfl, rfl⟩⟩

/-- The value behind `DISTINCT`, in arguments that are alike. -/
theorem exists_distinctValue_of_twin (h : Twin value value') {m : Match} (hm : distinctArgument.find? value = some m) :
    ∃ m', distinctArgument.find? value' = some m' ∧ Twin (Text.trim (m.groupD 1)) (Text.trim (m'.groupD 1)) := by
  obtain ⟨n, b, hvalue, hn, hb, hne⟩ := exists_distinctValue hm
  have hplain : ∀ c ∈ n ++ b, isPlain c = true := fun c hc => (List.mem_append.1 hc).elim
    (fun hc => isPlain_of_isWordChar (hn.isWordChar (by decide) c hc)) fun hc => isPlain_of_isBlank (hb.2 c hc)
  rw [hvalue, ← List.append_assoc] at h
  obtain ⟨r, rfl, htwin⟩ := h.drop_plain hplain
  have hr : r ≠ [] := fun hnil => hne (Alike.eq_nil (hnil ▸ htwin.alike.symm))
  obtain ⟨m', hm'⟩ := Option.isSome_iff_exists.1 (occursIn_of_matches (matches_distinctArgument hn hb hr))
  rw [List.nil_append, List.append_nil, ← List.append_assoc] at hm'
  refine ⟨m', hm', ?_⟩
  -- what the pattern takes for white space may be more or less, the value is the same when trimmed
  have hrest : ∀ {n b r : Text}, Spelled "DISTINCT".toList n → (∀ c ∈ b, Unicode.isBlank c = true) →
      Text.trimStart ((n ++ (b ++ r)).drop 8) = Text.trimStart r := fun hn hb => by
    rw [List.drop_left' (show List.length _ = 8 from hn.length_eq.symm), trimStart_of_isBlank hb]
  obtain ⟨n', b', hvalue', hn', hb', -⟩ := exists_distinctValue hm'
  have htrim : Text.trim (m'.groupD 1) = Text.trim r := by
    rw [Text.trim, Text.trim, ← hrest hn' hb'.2, ← hvalue', List.append_assoc, hrest hn hb.2]
  rw [htrim]
  exact htwin.trim

/-! ## The rule -/

def skeletonEnd (placeholder : Text) : Text :=
  " FROM ".toList ++ placeholder ++ " WHERE 1 = 1 /* correlate with the outer query */) AS dv)".toList

def skeletonHead (value separator : Text) : Text :=
  "(SELECT STRING_AGG(dv.".toList ++ skeletonColumn value ++ ", ".toList ++ separator ++
    ") WITHIN GROUP (ORDER BY dv.".toList ++ skeletonColumn value

theorem distinctSkeleton_eq_append (placeholder value separator : Text) (order : Option Text) :
    distinctSkeleton placeholder value separator order =
      skeletonHead value separator ++ (if order.any descending.occursIn then " DESC".toList else "".toList) ++
        ") FROM (SELECT DISTINCT ".toList ++ value ++ " AS ".toList ++ skeletonColumn value ++ skeletonEnd placeholder := by
  unfold distinctSkeleton skeletonHead skeletonEnd
  simp only [List.append_assoc]

/-- The skeletons for parts that are alike. -/
theorem stitched_distinctSkeleton {placeholder separator separator' : Text} {order order' : Option Text}
    (hplaceholder : Seam (skeletonEnd placeholder)) (hvalue : Twin value value') (hseparator : Twin separator separator')
    (horder : order.any descending.occursIn = order'.any descending.occursIn) :
    Stitched false (distinctSkeleton placeholder value separator order)
      (distinctSkeleton placeholder value' separator' order') := by
  have hcolumn := twin_of_isPlain (isPlain_skeletonColumn value)
  have hsame := skeletonColumn_eq hvalue
  have hhead : Stitched true (skeletonHead value separator) (skeletonHead value' separator') := by
    unfold skeletonHead
    rw [hsame]
    exact .part (.around (.around (.seam (by decide)) hcolumn (by decide)) hseparator (by decide)) hcolumn
  have hdirection : ∃ e, Stitched e
      (skeletonHead value separator ++ if order.any descending.occursIn then " DESC".toList else "".toList)
      (skeletonHead value' separator' ++ if order'.any descending.occursIn then " DESC".toList else "".toList) := by
    rw [horder]
    by_cases hdesc : order'.any descending.occursIn = true
    · rw [if_pos hdesc]
      exact ⟨false, .sewn hhead (by decide)⟩
    · rw [if_neg hdesc]
      exact ⟨true, by simpa using hhead⟩
  obtain ⟨e, hdirection⟩ := hdirection
  rw [distinctSkeleton_eq_append, distinctSkeleton_eq_append, hsame]
  exact .around (.around (.sewn hdirection (by decide)) hvalue (by decide)) hcolumn hplaceholder

theorem parallel_listagg {placeholder : Text} (hplaceholder : Seam (skeletonEnd placeholder)) (h : Paired a b) :
    Parallel Paired (listagg placeholder a) (listagg placeholder b) := by
  refine parallel_replaceCallsWithTail (by decide) (fun ⟨_, _, _, args, tail⟩ ⟨_, _, _, args', tail'⟩ hc => ?_) h
  extract_lets parts parts'
  have hparts : Option.Rel (fun p p' => Twin p.1 p'.1 ∧ Twin p.2 p'.2) parts parts' := by
    have hquotes : Whole "''".toList := ⟨by decide, by decide⟩
    have hblank : Twin "''".toList "''".toList := ⟨rfl, hquotes, hquotes⟩
    simp only [parts, parts']
    rcases hc.args with _ | ⟨hexpr, _ | ⟨hseparator, _ | _⟩⟩
    · exact .none
    · exact .some ⟨hexpr, hblank⟩
    · exact .some ⟨hexpr, hseparator⟩
    · exact .none
  clear_value parts parts'
  cases hparts with
  | none => exact parallel_pure .none
  | @some p p' hp =>
  obtain ⟨expr, separator⟩ := p
  obtain ⟨expr', separator'⟩ := p'
  obtain ⟨hexpr, hseparator⟩ := hp
  obtain ⟨clause, clause', hclause, hclause', hclauses⟩ := exists_clauses hc.tail
  refine (parallel_lift hclause hclause' hclauses).bind fun clause clause' hclauses => ?_
  cases hm : distinctArgument.find? expr with
  | none =>
    have hm' : distinctArgument.find? expr' = none := by
      rw [Option.eq_none_iff_forall_ne_some]
      intro m' hm'
      obtain ⟨m, hsome, -⟩ := exists_distinctValue_of_twin hexpr.symm hm'
      rw [hm] at hsome
      cases hsome
    simp only [hm']
    refine parallel_pure (replacements_of_clauses hclauses hc.tail ?_)
    have hcall := Stitched.around (.around (.seam (show Seam "STRING_AGG(".toList by decide)) hexpr
      (show Seam ", ".toList by decide)) hseparator (show Seam ")".toList by decide)
    cases hclauses with
    | none => simpa using hcall
    | some horder =>
      have hsuffix := Stitched.around (.sewn hcall (show Seam " WITHIN GROUP (ORDER BY ".toList by decide)) horder
        (show Seam ")".toList by decide)
      simpa using hsuffix
  | some m =>
    obtain ⟨m', hm', hvalue⟩ := exists_distinctValue_of_twin hexpr hm
    simp only [hm']
    refine Parallel.after_modify (parallel_pure (replacements_of_clauses hclauses hc.tail ?_))
    exact stitched_distinctSkeleton hplaceholder hvalue hseparator (descending_eq_of_clauses hclauses)

end ToTsql

end DialectBridge
