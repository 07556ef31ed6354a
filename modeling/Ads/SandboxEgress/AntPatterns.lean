import Ads.Foundation.Wildcards
import Ads.SandboxEgress.Policy
import Mathlib.Data.List.GetD

/-!
# Ant path patterns

The reference for `ant_matches`: a pattern and a path are divided at their slashes, the segment `**`
stands for any segments, and in any other segment `*` stands for any bytes and `?` for one byte
(`AntMatches`). `antMatches_spec` says that `ant_matches` computes it, if it finishes.
-/

set_option autoImplicit false
set_option relaxedAutoImplicit false

namespace Ads.SandboxEgress

open Dns Foundation.StateExcept Foundation.Wildcards Python

/-! ### The reference -/

/-- What a byte of a segment stands for. -/
def byteWildcard (char : Octet) : Wildcard Octet :=
  if char = starByte then .gap else .letter fun actual ↦ char = questionByte ∨ char = actual

/-- What a segment of a pattern stands for. -/
def segmentWildcard (glob : Bytes) : Wildcard Bytes :=
  if glob = [starByte, starByte] then .gap
  else .letter fun value ↦ value ∈ language (glob.map byteWildcard)

/-- The bytes as they are compared. -/
def folded (insensitive : Bool) (bytes : Bytes) : Bytes :=
  if insensitive then lowerBytes bytes else bytes

/-- The pattern matches the path. -/
def AntMatches (pattern path : Bytes) (insensitive : Bool) : Prop :=
  (folded insensitive path).splitOn slashByte ∈
    language (((folded insensitive pattern).splitOn slashByte).map segmentWildcard)

/-! ### Segments -/

/-- A row of the table says which prefixes of the value the bytes so far stand for. -/
def IsRow (consumed value : Bytes) (row : List Bool) : Prop :=
  row.length = value.length + 1 ∧
    ∀ count, row.getD count false = true ↔ Reaches (consumed.map byteWildcard) value count

/-- The first row. -/
theorem isRow_nil (value : Bytes) : IsRow [] value (true :: List.replicate value.length false) := by
  refine ⟨by simp, fun count ↦ ?_⟩
  rw [List.map_nil, reaches_nil]
  cases count with
  | zero => simp
  | succ count =>
    rw [List.getD_cons_succ]
    simp [List.getD_eq_getElem?_getD, List.getElem?_replicate]
    split_ifs <;> rfl

/-- The entries of a row from the second on, next to those of the row above. -/
theorem segmentRow_spec {char : Octet} {consumed value : Bytes} (before after : Bytes)
    (hvalue : value = before ++ after) {left : Bool} {above : List Bool}
    (hlength : above.length = after.length + 1)
    (habove : ∀ count, above.getD count false = true ↔
      Reaches (consumed.map byteWildcard) value (before.length + count))
    (hleft : left = true ↔
      Reaches ((consumed ++ [char]).map byteWildcard) value before.length) :
    (segmentRow char left above after).length = after.length ∧
      ∀ count, (segmentRow char left above after).getD count false = true ↔
        Reaches ((consumed ++ [char]).map byteWildcard) value (before.length + 1 + count) := by
  induction after generalizing before left above with
  | nil =>
    obtain ⟨diagonal, rfl⟩ := List.length_eq_one_iff.mp hlength
    refine ⟨rfl, fun count ↦ ⟨nofun, fun hreaches ↦ ?_⟩⟩
    have hcount := hreaches.1
    rw [hvalue, List.append_nil] at hcount
    omega
  | cons actual rest ih =>
    obtain ⟨diagonal, next, more, rfl⟩ : ∃ diagonal next more, above = diagonal :: next :: more := by
      match above, hlength with
      | diagonal :: next :: more, _ => exact ⟨diagonal, next, more, rfl⟩
    have hcurrent : (if char = starByte then next || left
        else diagonal && (char == questionByte || char == actual)) = true ↔
          Reaches ((consumed ++ [char]).map byteWildcard) value (before.length + 1) := by
      have hdiagonal := habove 0
      have hnext := habove 1
      rw [List.getD_cons_zero, Nat.add_zero] at hdiagonal
      rw [List.getD_cons_succ, List.getD_cons_zero] at hnext
      have hinside : before.length + 1 ≤ value.length := by
        rw [hvalue, List.length_append, List.length_cons]
        omega
      rw [List.map_append, List.map_singleton] at hleft ⊢
      by_cases hstar : char = starByte
      · have hbyte : byteWildcard char = .gap := if_pos hstar
        rw [hbyte] at hleft ⊢
        rw [if_pos hstar, reaches_gap_succ, Bool.or_eq_true, hnext, hleft, and_iff_right hinside]
      · have hbyte : byteWildcard char =
            .letter fun actual ↦ char = questionByte ∨ char = actual := if_neg hstar
        rw [hbyte, if_neg hstar, reaches_letter, Bool.and_eq_true, hdiagonal]
        have hactual : value[before.length]? = some actual := by
          rw [hvalue, List.getElem?_append_right le_rfl, Nat.sub_self]
          rfl
        constructor
        · rintro ⟨hreaches, haccepts⟩
          exact ⟨before.length, rfl, hreaches, actual, hactual, by simpa using haccepts⟩
        · rintro ⟨earlier, hearlier, hreaches, found, hfound, haccepts⟩
          obtain rfl : before.length = earlier := Nat.succ.inj hearlier
          obtain rfl : actual = found := Option.some.inj (hactual.symm.trans hfound)
          exact ⟨hreaches, by simpa using haccepts⟩
    have hsplit : value = (before ++ [actual]) ++ rest := by
      rw [hvalue, List.append_cons]
    have hnexts : ∀ count, (next :: more).getD count false = true ↔
        Reaches (consumed.map byteWildcard) value ((before ++ [actual]).length + count) := by
      intro count
      have hcount := habove (count + 1)
      rw [List.getD_cons_succ] at hcount
      rw [hcount, List.length_append, List.length_singleton, Nat.add_assoc, Nat.add_comm 1 count]
    obtain ⟨hrest, hrow⟩ := ih (before ++ [actual]) hsplit (by simpa using hlength) hnexts
      (by rw [List.length_append, List.length_singleton]; exact hcurrent)
    unfold segmentRow
    dsimp only
    refine ⟨by rw [List.length_cons, hrest, List.length_cons], fun count ↦ ?_⟩
    cases count with
    | zero => exact hcurrent
    | succ count =>
      rw [List.getD_cons_succ, hrow, List.length_append, List.length_singleton]
      rw [Nat.add_assoc (before.length + 1) 1 count, Nat.add_comm 1 count]

/-- One more byte of a segment. -/
theorem isRow_snoc {consumed value : Bytes} {row : List Bool} (char : Octet)
    (hrow : IsRow consumed value row) :
    IsRow (consumed ++ [char]) value ((row.headD false && char == starByte) ::
      segmentRow char (row.headD false && char == starByte) row value) := by
  obtain ⟨hlength, hreaches⟩ := hrow
  have hhead : row.headD false = true ↔ Reaches (consumed.map byteWildcard) value 0 := by
    rw [← hreaches 0]
    cases row <;> rfl
  have hleft : (row.headD false && char == starByte) = true ↔
      Reaches ((consumed ++ [char]).map byteWildcard) value 0 := by
    rw [Bool.and_eq_true, hhead, beq_iff_eq, List.map_append, List.map_singleton]
    by_cases hstar : char = starByte
    · have hbyte : byteWildcard char = .gap := if_pos hstar
      rw [hbyte, reaches_gap_zero, and_iff_left hstar]
    · have hbyte : byteWildcard char =
          .letter fun actual ↦ char = questionByte ∨ char = actual := if_neg hstar
      rw [hbyte, reaches_letter]
      constructor
      · rintro ⟨-, hsame⟩
        exact absurd hsame hstar
      · rintro ⟨earlier, hearlier, -⟩
        cases hearlier
  obtain ⟨hrest, hentries⟩ := segmentRow_spec [] value rfl hlength
    (fun count ↦ by rw [List.length_nil, Nat.zero_add]; exact hreaches count) hleft
  refine ⟨by rw [List.length_cons, hrest], fun count ↦ ?_⟩
  cases count with
  | zero => exact hleft
  | succ count =>
    rw [List.getD_cons_succ, hentries, List.length_nil, Nat.zero_add, Nat.add_comm 1 count,
      List.nil_append]

/-- The matcher fails for lack of budget only. -/
def OutOfBudget (failure : Raised) : Prop :=
  failure = .requestDenied "path_match_limit"

/-- The budget is consumed or used up. -/
theorem consume_spec (count : ℕ) (budget : MatchBudget) :
    Ensures (MatchBudget.consume count) budget (fun _ _ ↦ True) OutOfBudget := by
  unfold MatchBudget.consume
  rw [ensures_bind, ensures_get, ensures_bind, ensures_raiseIf]
  split_ifs
  · exact rfl
  · exact trivial

/-- A segment of a pattern is matched as it stands, if the matcher finishes. -/
theorem segment_spec (glob value : Bytes) (budget : MatchBudget) :
    Ensures (segment glob value) budget
      (fun matched _ ↦ matched = true ↔ value ∈ language (glob.map byteWildcard)) OutOfBudget := by
  unfold segment
  rw [ensures_bind]
  refine Ensures.mono (Ensures.foldlM (fun consumed row _ ↦ IsRow consumed value row) ?_
    (isRow_nil value)) ?_ fun _ h ↦ h
  · intro consumed char row budget hrow
    rw [ensures_bind]
    refine (consume_spec (value.length + 1) budget).mono (fun _ budget _ ↦ ?_) fun _ h ↦ h
    exact isRow_snoc char hrow
  · intro row budget hrow
    rw [List.nil_append] at hrow
    rw [ensures_pure, mem_language_iff, ← hrow.2 value.length, List.getLastD_eq_getLast?,
      List.getLast?_eq_getElem?, hrow.1, List.getD_eq_getElem?_getD]
    rfl

/-! ### Paths -/

/-- The loop over the segments that are reached. -/
theorem reachSegment_cons (glob : Bytes) (parts : List Bytes) (index : ℕ) (rest : List ℕ) :
    reachSegment glob parts (index :: rest) =
      (if index < parts.length then segment glob (parts.getD index []) else pure false) >>=
        fun matched ↦ reachSegment glob parts rest >>= fun following ↦
          pure (if matched then (index + 1) :: following else following) := by
  conv_lhs => unfold reachSegment
  by_cases hinside : index < parts.length
  · rw [if_pos hinside]
    simp only [if_pos hinside]
  · rw [if_neg hinside]
    simp only [if_neg hinside]

/-- The segments of the path that a segment of the pattern leads to. -/
def reachNext (glob : Bytes) (parts : List Bytes) (reachable : List ℕ) : MatchM (List ℕ) :=
  if glob = [starByte, starByte] then
    match reachable with
    | [] => pure []
    | least :: _ => pure ((List.range (parts.length + 1)).filter (least ≤ ·))
  else reachSegment glob parts reachable

/-- The loop over the segments of the pattern. -/
theorem reachAll_cons (glob : Bytes) (parts rest : List Bytes) (reachable : List ℕ) :
    reachAll parts (glob :: rest) reachable =
      MatchBudget.consume (parts.length + reachable.length) >>= fun _ ↦
        reachNext glob parts reachable >>= fun reached ↦
          if reached = [] then pure false else reachAll parts rest reached := by
  conv_lhs => unfold reachAll
  unfold reachNext
  by_cases hgap : glob = [starByte, starByte]
  · simp only [if_pos hgap]
    cases reachable <;> rfl
  · simp only [if_neg hgap]

/-- One more segment that is no gap: what is reached, one further where the segment matches. -/
theorem reachSegment_spec (glob : Bytes) (parts : List Bytes) (reachable : List ℕ)
    (budget : MatchBudget) :
    Ensures (reachSegment glob parts reachable) budget
      (fun reached _ ↦ reached.Sublist (reachable.map (· + 1)) ∧ ∀ count, count ∈ reached ↔
        ∃ index ∈ reachable, count = index + 1 ∧
          ∃ value, parts[index]? = some value ∧ value ∈ language (glob.map byteWildcard))
      OutOfBudget := by
  induction reachable generalizing budget with
  | nil =>
    unfold reachSegment
    rw [ensures_pure]
    exact ⟨List.Sublist.refl _, fun count ↦ ⟨nofun, fun ⟨_, hindex, _⟩ ↦ nomatch hindex⟩⟩
  | cons index rest ih =>
    rw [reachSegment_cons, ensures_bind]
    -- Whether the first of them is followed by a segment that matches.
    have hmatched : Ensures
        (if index < parts.length then segment glob (parts.getD index []) else pure false) budget
        (fun matched _ ↦ matched = true ↔
          ∃ value, parts[index]? = some value ∧ value ∈ language (glob.map byteWildcard))
        OutOfBudget := by
      rw [ensures_ite]
      constructor
      · intro hinside
        refine (segment_spec glob _ budget).mono (fun matched _ hmatched ↦ ?_) fun _ h ↦ h
        rw [hmatched, List.getD_eq_getElem _ _ hinside, List.getElem?_eq_getElem hinside]
        simp
      · intro houtside
        rw [ensures_pure, List.getElem?_eq_none (not_lt.mp houtside)]
        simp
    refine hmatched.mono (fun matched budget hmatched ↦ ?_) fun _ h ↦ h
    rw [ensures_bind]
    refine (ih budget).mono (fun following budget hfollowing ↦ ?_) fun _ h ↦ h
    obtain ⟨hsublist, hmem⟩ := hfollowing
    rw [ensures_pure]
    by_cases htrue : matched = true
    · rw [if_pos htrue]
      refine ⟨hsublist.cons_cons _, fun count ↦ ?_⟩
      rw [List.mem_cons, hmem]
      constructor
      · rintro (rfl | ⟨other, hother, hcount⟩)
        · exact ⟨index, List.mem_cons_self, rfl, hmatched.mp htrue⟩
        · exact ⟨other, List.mem_cons_of_mem _ hother, hcount⟩
      · rintro ⟨other, hother, hcount, hvalue⟩
        rcases List.mem_cons.mp hother with rfl | hrest
        · exact Or.inl hcount
        · exact Or.inr ⟨other, hrest, hcount, hvalue⟩
    · rw [if_neg htrue]
      refine ⟨hsublist.cons _, fun count ↦ ?_⟩
      rw [hmem]
      constructor
      · rintro ⟨other, hother, hcount⟩
        exact ⟨other, List.mem_cons_of_mem _ hother, hcount⟩
      · rintro ⟨other, hother, hcount, hvalue⟩
        rcases List.mem_cons.mp hother with rfl | hrest
        · exact absurd (hmatched.mpr hvalue) htrue
        · exact ⟨other, hrest, hcount, hvalue⟩

/-- The segments of the pattern so far lead to these numbers of segments of the path. -/
def IsReach (consumed parts : List Bytes) (reachable : List ℕ) : Prop :=
  reachable.Pairwise (· < ·) ∧
    ∀ count, count ∈ reachable ↔ Reaches (consumed.map segmentWildcard) parts count

/-- A path is matched as it stands, if the matcher finishes. -/
theorem reachAll_spec (parts globs consumed : List Bytes) {reachable : List ℕ} (budget : MatchBudget)
    (hreach : IsReach consumed parts reachable) :
    Ensures (reachAll parts globs reachable) budget
      (fun matched _ ↦ matched = true ↔
        parts ∈ language ((consumed ++ globs).map segmentWildcard)) OutOfBudget := by
  induction globs generalizing consumed reachable budget with
  | nil =>
    unfold reachAll
    rw [ensures_pure, List.append_nil, mem_language_iff, ← hreach.2, decide_eq_true_eq]
  | cons glob rest ih =>
    rw [reachAll_cons, ensures_bind]
    refine (consume_spec _ budget).mono (fun _ budget _ ↦ ?_) fun _ h ↦ h
    rw [ensures_bind]
    have hnext : Ensures (reachNext glob parts reachable) budget
        (fun reached _ ↦ IsReach (consumed ++ [glob]) parts reached) OutOfBudget := by
      unfold reachNext IsReach
      rw [List.map_append, List.map_singleton, ensures_ite]
      constructor
      · intro hgap
        have hsegment : segmentWildcard glob = .gap := if_pos hgap
        rw [hsegment]
        cases reachable with
        | nil =>
          rw [ensures_pure]
          refine ⟨List.Pairwise.nil, fun count ↦ ⟨nofun, fun hcount ↦ ?_⟩⟩
          exact absurd hcount (not_reaches_append fun earlier hearlier ↦
            nomatch (hreach.2 earlier).mpr hearlier)
        | cons least more =>
          rw [ensures_pure]
          refine ⟨List.Pairwise.filter _ List.pairwise_lt_range, fun count ↦ ?_⟩
          rw [List.mem_filter, List.mem_range, decide_eq_true_eq, reaches_gap, Nat.lt_succ_iff]
          refine and_congr_right fun _ ↦ ⟨fun hleast ↦ ?_, ?_⟩
          · exact ⟨least, hleast, (hreach.2 least).mp List.mem_cons_self⟩
          · rintro ⟨earlier, hearlier, hreaches⟩
            rcases List.mem_cons.mp ((hreach.2 earlier).mpr hreaches) with rfl | hmore
            · exact hearlier
            · exact (List.rel_of_pairwise_cons hreach.1 hmore).le.trans hearlier
      · intro hletter
        have hsegment : segmentWildcard glob =
            .letter fun value ↦ value ∈ language (glob.map byteWildcard) := if_neg hletter
        rw [hsegment]
        refine (reachSegment_spec glob parts reachable budget).mono ?_ fun _ h ↦ h
        rintro reached _ ⟨hsublist, hmem⟩
        refine ⟨List.Pairwise.sublist hsublist ?_, fun count ↦ ?_⟩
        · exact List.pairwise_map.mpr (hreach.1.imp Nat.succ_lt_succ)
        · rw [hmem, reaches_letter]
          constructor
          · rintro ⟨index, hindex, hcount, hvalue⟩
            exact ⟨index, hcount, (hreach.2 index).mp hindex, hvalue⟩
          · rintro ⟨index, hcount, hindex, hvalue⟩
            exact ⟨index, (hreach.2 index).mpr hindex, hcount, hvalue⟩
    refine hnext.mono (fun reached budget hreached ↦ ?_) fun _ h ↦ h
    have hsplit : consumed ++ glob :: rest = (consumed ++ [glob]) ++ rest := List.append_cons _ _ _
    rw [hsplit, ensures_ite]
    constructor
    · rintro rfl
      rw [ensures_pure, List.map_append]
      refine ⟨nofun, fun hmem ↦ absurd hmem (not_mem_language fun count hcount ↦ ?_)⟩
      exact nomatch (hreached.2 count).mpr hcount
    · intro _
      exact ih (consumed ++ [glob]) budget hreached

/-- `ant_matches` matches as the pattern stands. It fails for lack of budget, or because the pattern
is too long. -/
theorem antMatches_spec {pattern path : Bytes} (insensitive : Bool) (budget : MatchBudget)
    (hpattern : pattern.head? = some slashByte) (hpath : path.head? = some slashByte)
    (hlength : path.length ≤ 8192) (hzero : 0 ∉ path) :
    Ensures (antMatches pattern path insensitive) budget
      (fun matched _ ↦ matched = true ↔ AntMatches pattern path insensitive)
      (fun failure ↦ OutOfBudget failure ∨
        pattern.length > 8192 ∧ failure = .requestDenied "path_limit") := by
  have hstarts : ¬ (path.head? ≠ some slashByte ∨ pattern.head? ≠ some slashByte) :=
    not_or.mpr ⟨not_not.mpr hpath, not_not.mpr hpattern⟩
  unfold antMatches
  rw [if_neg hstarts, ensures_bind, ensures_raiseIf]
  by_cases hlimit : path.length > 8192 ∨ pattern.length > 8192 ∨ 0 ∈ path
  · rw [if_pos hlimit]
    refine Or.inr ⟨?_, rfl⟩
    rcases hlimit with hlong | hlong | hmem
    · exact absurd hlong (not_lt.mpr hlength)
    · exact hlong
    · exact absurd hmem hzero
  · rw [if_neg hlimit]
    have hstart : IsReach [] ((folded insensitive path).splitOn slashByte) [0] := by
      refine ⟨List.pairwise_singleton _ _, fun count ↦ ?_⟩
      rw [List.map_nil, reaches_nil, List.mem_singleton]
    change Ensures (MatchBudget.consume
      ((folded insensitive pattern).length + (folded insensitive path).length) >>= fun _ ↦
        reachAll ((folded insensitive path).splitOn slashByte)
          ((folded insensitive pattern).splitOn slashByte) [0]) budget _ _
    rw [ensures_bind]
    refine (consume_spec _ budget).mono (fun _ budget _ ↦ ?_) fun _ h ↦ Or.inl h
    exact (reachAll_spec _ _ [] budget hstart).mono (fun _ _ h ↦ h) fun _ h ↦ Or.inl h

/-! ### The answer and the budget -/

/-- The reference: both sides start with a slash, and the path matches the pattern. -/
def AntAccepts (pattern path : Bytes) (insensitive : Bool) : Prop :=
  pattern.head? = some slashByte ∧ path.head? = some slashByte ∧ AntMatches pattern path insensitive

variable {pattern path : Bytes} {insensitive matched : Bool} {budget final : MatchBudget}

/-- Without a slash at the start of both sides there is no match. -/
theorem antMatches_of_not_starts
    (hstarts : path.head? ≠ some slashByte ∨ pattern.head? ≠ some slashByte) :
    antMatches pattern path insensitive budget = .ok (false, budget) := by
  unfold antMatches
  rw [if_pos hstarts]
  rfl

/-- What is matched is short and has no zero byte. -/
theorem limits_of_antMatches (hpattern : pattern.head? = some slashByte)
    (hpath : path.head? = some slashByte)
    (hrun : antMatches pattern path insensitive budget = .ok (matched, final)) :
    path.length ≤ 8192 ∧ pattern.length ≤ 8192 ∧ 0 ∉ path := by
  have hstarts : ¬ (path.head? ≠ some slashByte ∨ pattern.head? ≠ some slashByte) :=
    not_or.mpr ⟨not_not.mpr hpath, not_not.mpr hpattern⟩
  unfold antMatches at hrun
  rw [if_neg hstarts] at hrun
  obtain ⟨_, _, hlimits, -⟩ := bind_eq_ok.mp hrun
  obtain ⟨hlimits, -⟩ := raiseIf_eq_ok.mp hlimits
  simpa only [not_or, gt_iff_lt, not_lt] using hlimits

/-- The answer is that of the reference. -/
theorem antMatches_iff
    (hrun : antMatches pattern path insensitive budget = .ok (matched, final)) :
    matched = true ↔ AntAccepts pattern path insensitive := by
  by_cases hpattern : pattern.head? = some slashByte
  · by_cases hpath : path.head? = some slashByte
    · obtain ⟨hlength, -, hzero⟩ := limits_of_antMatches hpattern hpath hrun
      have hmatches := (antMatches_spec insensitive budget hpattern hpath hlength hzero).of_eq_ok hrun
      simpa [AntAccepts, hpattern, hpath] using hmatches
    · rw [antMatches_of_not_starts (Or.inl hpath)] at hrun
      obtain ⟨rfl, -⟩ : false = matched ∧ budget = final := by simpa using hrun
      simp [AntAccepts, hpath]
  · rw [antMatches_of_not_starts (Or.inr hpattern)] at hrun
    obtain ⟨rfl, -⟩ : false = matched ∧ budget = final := by simpa using hrun
    simp [AntAccepts, hpattern]

/-- Another budget gives the same answer, or is used up. -/
theorem antMatches_of_budget (other : MatchBudget)
    (hrun : antMatches pattern path insensitive budget = .ok (matched, final)) :
    (∃ last, antMatches pattern path insensitive other = .ok (matched, last)) ∨
      antMatches pattern path insensitive other = .error (.requestDenied "path_match_limit") := by
  cases hother : antMatches pattern path insensitive other with
  | ok outcome =>
    obtain ⟨answer, last⟩ := outcome
    have hsame : answer = matched := Bool.eq_iff_iff.mpr
      ((antMatches_iff hother).trans (antMatches_iff hrun).symm)
    exact Or.inl ⟨last, by rw [hsame]⟩
  | error failure =>
    by_cases hstarts : path.head? ≠ some slashByte ∨ pattern.head? ≠ some slashByte
    · rw [antMatches_of_not_starts hstarts] at hother
      cases hother
    · simp only [not_or, not_not] at hstarts
      obtain ⟨hlength, hshort, hzero⟩ := limits_of_antMatches hstarts.2 hstarts.1 hrun
      have hfails := (antMatches_spec insensitive other hstarts.2 hstarts.1 hlength hzero).of_eq_error
        hother
      rcases hfails with hbudget | ⟨hlong, -⟩
      · exact Or.inr (congrArg Except.error hbudget)
      · exact absurd hshort (not_le.mpr hlong)

/-- **Ant patterns match as they read.** Whatever the budget lets be answered is answered as the
reference says, and another budget gives the same answer or is used up. -/
theorem antMatches_correct (pattern path : Bytes) (insensitive : Bool) (budget : MatchBudget)
    (matched : Bool) (final : MatchBudget)
    (hrun : antMatches pattern path insensitive budget = .ok (matched, final)) :
    (matched = true ↔ AntAccepts pattern path insensitive) ∧
      ∀ other, (∃ last, antMatches pattern path insensitive other = .ok (matched, last)) ∨
        antMatches pattern path insensitive other = .error (.requestDenied "path_match_limit") :=
  ⟨antMatches_iff hrun, fun other ↦ antMatches_of_budget other hrun⟩

/-- A path with a segment more than the pattern matches its last segment. -/
theorem antMatches_correct_segments :
    (true = true ↔ AntAccepts (ascii "/a/**/?") (ascii "/A/b/c") true) ∧
      ∀ other, (∃ last, antMatches (ascii "/a/**/?") (ascii "/A/b/c") true other = .ok (true, last)) ∨
        antMatches (ascii "/a/**/?") (ascii "/A/b/c") true other =
          .error (.requestDenied "path_match_limit") :=
  antMatches_correct _ _ true ⟨1000⟩ true ⟨959⟩ (by decide +kernel)

end Ads.SandboxEgress
