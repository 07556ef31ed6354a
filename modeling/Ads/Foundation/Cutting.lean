import Mathlib.Data.List.TakeDrop
import Mathlib.Data.List.TakeWhile

/-!
# Words that are cut

A word is cut where a letter first occurs (`cutAt`), wherever two letters follow one another
(`cutLines`), or at both of its ends (`trimmed`). Each is inverse to putting the parts together.
-/

set_option autoImplicit false
set_option relaxedAutoImplicit false

namespace Ads.Foundation.Cutting

variable {α : Type} [DecidableEq α]

/-! ### At a letter -/

/-- The word before the first occurrence of a letter, whether it occurs, and the word after it. -/
def cutAt (separator : α) : List α → List α × Bool × List α
  | [] => ([], false, [])
  | letter :: rest =>
    if letter = separator then ([], true, rest)
    else
      let parts := cutAt separator rest
      (letter :: parts.1, parts.2)

variable {separator : α} {word before after : List α}

/-- The parts make the word. -/
theorem cutAt_eq_true : cutAt separator word = (before, true, after) ↔
    word = before ++ separator :: after ∧ separator ∉ before := by
  induction word generalizing before with
  | nil => simp [cutAt]
  | cons letter rest ih =>
    unfold cutAt
    split_ifs with hletter
    · subst hletter
      cases before with
      | nil => simp [eq_comm]
      | cons first others => simp +contextual [eq_comm]
    · cases before with
      | nil => simp [hletter]
      | cons first others =>
        have hrest := @ih others
        cases hcut : cutAt separator rest with
        | mk start parts =>
          rw [hcut, Prod.mk.injEq] at hrest
          simp only [Prod.mk.injEq, List.cons.injEq, List.cons_append, List.mem_cons, not_or]
          constructor
          · rintro ⟨⟨rfl, hstart⟩, hparts⟩
            obtain ⟨hword, hfirst⟩ := hrest.mp ⟨hstart, hparts⟩
            exact ⟨⟨rfl, hword⟩, Ne.symm hletter, hfirst⟩
          · rintro ⟨⟨rfl, hword⟩, -, hfirst⟩
            obtain ⟨hstart, hparts⟩ := hrest.mpr ⟨hword, hfirst⟩
            exact ⟨⟨rfl, hstart⟩, hparts⟩

/-- A letter that does not occur cuts nothing. -/
theorem cutAt_eq_false : cutAt separator word = (before, false, after) ↔
    word = before ∧ separator ∉ word ∧ after = [] := by
  induction word generalizing before with
  | nil =>
    simp only [cutAt, Prod.mk.injEq, List.not_mem_nil, not_false_eq_true, true_and]
    exact and_congr_right fun _ ↦ eq_comm
  | cons letter rest ih =>
    unfold cutAt
    split_ifs with hletter
    · simp [hletter]
    · cases hcut : cutAt separator rest with
      | mk start parts =>
        cases before with
        | nil => simp
        | cons first others =>
          have hrest := @ih others
          rw [hcut, Prod.mk.injEq] at hrest
          simp only [Prod.mk.injEq, List.cons.injEq, List.mem_cons, not_or]
          constructor
          · rintro ⟨⟨rfl, hstart⟩, hparts⟩
            obtain ⟨hword, hnot, hafter⟩ := hrest.mp ⟨hstart, hparts⟩
            exact ⟨⟨rfl, hword⟩, ⟨Ne.symm hletter, hnot⟩, hafter⟩
          · rintro ⟨⟨rfl, hword⟩, ⟨-, hnot⟩, hafter⟩
            obtain ⟨hstart, hparts⟩ := hrest.mpr ⟨hword, hnot, hafter⟩
            exact ⟨⟨rfl, hstart⟩, hparts⟩

/-! ### At two letters that follow one another -/

/-- A word with one more letter in front of its first line. -/
def consFirst (letter : α) : List (List α) → List (List α)
  | [] => [[letter]]
  | line :: lines => (letter :: line) :: lines

/-- The lines of a word, between the occurrences of two letters. -/
def cutLines (first second : α) : List α → List (List α)
  | [] => [[]]
  | letter :: next :: rest =>
    if letter = first ∧ next = second then [] :: cutLines first second rest
    else consFirst letter (cutLines first second (next :: rest))
  | [letter] => [[letter]]

/-- Lines, each with its end. -/
def joinLines (ending : List α) (lines : List (List α)) : List α :=
  (lines.map (· ++ ending)).flatten

variable {first second : α} {line : List α} {lines : List (List α)}

omit [DecidableEq α] in
@[simp] theorem joinLines_nil {ending : List α} : joinLines ending [] = [] :=
  rfl

omit [DecidableEq α] in
@[simp] theorem joinLines_cons {ending : List α} :
    joinLines ending (line :: lines) = line ++ ending ++ joinLines ending lines :=
  rfl

omit [DecidableEq α] in
theorem joinLines_consFirst {ending : List α} {letter : α} (hlines : lines ≠ []) :
    joinLines ending (consFirst letter lines) = letter :: joinLines ending lines := by
  cases lines with
  | nil => exact absurd rfl hlines
  | cons line others => rfl

theorem cutLines_ne_nil : cutLines first second word ≠ [] := by
  fun_cases cutLines first second word with
  | case1 => simp
  | case2 => simp
  | case3 letter next rest =>
    cases cutLines first second (next :: rest) <;> simp [consFirst]
  | case4 => simp

/-- The lines make the word. -/
theorem joinLines_cutLines :
    joinLines [first, second] (cutLines first second word) = word ++ [first, second] := by
  fun_induction cutLines first second word with
  | case1 => rfl
  | case2 letter next rest hends ih =>
    obtain ⟨rfl, rfl⟩ := hends
    simp [ih]
  | case3 letter next rest hends ih =>
    rw [joinLines_consFirst cutLines_ne_nil, ih]
    rfl
  | case4 letter => rfl

/-- A line without the first letter is the first one. -/
theorem cutLines_append (hline : first ∉ line) :
    cutLines first second (line ++ first :: second :: word) = line :: cutLines first second word := by
  induction line with
  | nil => simp [cutLines]
  | cons letter rest ih =>
    simp only [List.mem_cons, not_or] at hline
    have hrest := ih hline.2
    cases rest with
    | nil =>
      simp only [List.nil_append] at hrest
      simp [cutLines, Ne.symm hline.1, consFirst]
    | cons next others =>
      simp only [List.cons_append] at hrest ⊢
      rw [cutLines, if_neg (fun hends ↦ hline.1 hends.1.symm), hrest]
      rfl

/-- A word without the first letter is one line. -/
theorem cutLines_of_not_mem (hword : first ∉ word) : cutLines first second word = [word] := by
  fun_induction cutLines first second word with
  | case1 => rfl
  | case2 letter next rest hends ih => exact absurd (hends.1 ▸ List.mem_cons_self) hword
  | case3 letter next rest hends ih =>
    rw [ih fun hmem ↦ hword (List.mem_cons_of_mem _ hmem)]
    rfl
  | case4 letter => rfl

omit [DecidableEq α] in
/-- What lines make ends with the end of the last of them. -/
theorem exists_joinLines {ending : List α} (hne : lines ≠ []) :
    ∃ word, word ++ ending = joinLines ending lines := by
  refine ⟨joinLines ending lines.dropLast ++ lines.getLast hne, ?_⟩
  conv_rhs => rw [← List.dropLast_concat_getLast hne]
  simp [joinLines]

/-- Lines without the first letter are those of the word they make. -/
theorem cutLines_eq_of_joinLines (hlines : ∀ line ∈ lines, first ∉ line) (hne : lines ≠ [])
    (hword : word ++ [first, second] = joinLines [first, second] lines) :
    cutLines first second word = lines := by
  induction lines generalizing word with
  | nil => exact absurd rfl hne
  | cons line others ih =>
    have hline := hlines line List.mem_cons_self
    rw [joinLines_cons] at hword
    cases others with
    | nil =>
      rw [joinLines_nil, List.append_nil] at hword
      rw [List.append_cancel_right hword]
      exact cutLines_of_not_mem hline
    | cons next more =>
      obtain ⟨rest, hrest⟩ := @exists_joinLines _ (next :: more) [first, second] (by simp)
      rw [← hrest, ← List.append_assoc] at hword
      rw [List.append_cancel_right hword]
      have hcut := @cutLines_append _ _ rest first second line hline
      rw [List.append_assoc]
      refine hcut.trans ?_
      rw [ih (fun line hmem ↦ hlines line (List.mem_cons_of_mem _ hmem)) (by simp) hrest]

/-! ### At both ends -/

/-- The word without the letters of a kind at its ends. -/
def trimmed (blank : α → Bool) (word : List α) : List α :=
  ((word.dropWhile blank).reverse.dropWhile blank).reverse

variable {blank : α → Bool} {kept : List α}

omit [DecidableEq α] in
/-- What is left begins with no such letter. -/
theorem head_dropWhile : ∀ letter ∈ (word.dropWhile blank).head?, blank letter = false := by
  intro letter hletter
  have hnot := List.head?_dropWhile_not blank word
  rw [Option.mem_def.mp hletter] at hnot
  simpa using hnot

omit [DecidableEq α] in
/-- A word that begins with no such letter is left as it is. -/
theorem dropWhile_append_eq (hbefore : before.all blank = true)
    (hhead : ∀ letter ∈ word.head?, blank letter = false) :
    (before ++ word).dropWhile blank = word := by
  rw [List.dropWhile_append_of_pos fun letter hmem ↦ List.all_eq_true.mp hbefore letter hmem]
  cases word with
  | nil => rfl
  | cons letter rest => exact List.dropWhile_cons_of_neg (by simp [hhead letter rfl])

omit [DecidableEq α] in
/-- What is left has no such letter at its ends. -/
theorem trimmed_eq_iff : trimmed blank word = kept ↔
    (∀ letter ∈ kept.head?, blank letter = false) ∧
      (∀ letter ∈ kept.getLast?, blank letter = false) ∧
        ∃ before after, before.all blank = true ∧ after.all blank = true ∧
          word = before ++ kept ++ after := by
  constructor
  · rintro rfl
    have hword := List.takeWhile_append_dropWhile (p := blank) (l := word)
    have hrest := List.takeWhile_append_dropWhile (p := blank) (l := (word.dropWhile blank).reverse)
    have hparts : word.dropWhile blank = trimmed blank word ++
        ((word.dropWhile blank).reverse.takeWhile blank).reverse := by
      rw [trimmed, ← List.reverse_append, hrest, List.reverse_reverse]
    refine ⟨fun letter hletter ↦ ?_, fun letter hletter ↦ ?_, word.takeWhile blank,
      ((word.dropWhile blank).reverse.takeWhile blank).reverse, ?_, ?_, ?_⟩
    · refine @head_dropWhile _ word blank letter ?_
      rw [hparts, List.head?_append, Option.mem_def.mp hletter]
      rfl
    · refine @head_dropWhile _ (word.dropWhile blank).reverse blank letter ?_
      rwa [trimmed, List.getLast?_reverse] at hletter
    · exact List.all_takeWhile
    · rw [List.all_reverse]
      exact List.all_takeWhile
    · rw [List.append_assoc, ← hparts, hword]
  · rintro ⟨hhead, hlast, before, after, hbefore, hafter, rfl⟩
    rcases List.eq_nil_or_concat kept with rfl | ⟨start, final, rfl⟩
    · have hall : (before ++ [] ++ after).dropWhile blank = [] := by
        rw [List.dropWhile_eq_nil_iff]
        simp only [List.all_eq_true] at hbefore hafter
        simp only [List.append_nil, List.mem_append, or_imp, forall_and]
        exact ⟨hbefore, hafter⟩
      rw [trimmed, hall]
      rfl
    · rw [List.concat_eq_append] at hhead hlast ⊢
      have hstart : (before ++ (start ++ [final]) ++ after).dropWhile blank =
          start ++ [final] ++ after := by
        rw [List.append_assoc]
        refine dropWhile_append_eq hbefore ?_
        have hsame : (start ++ [final] ++ after).head? = (start ++ [final]).head? := by
          cases start <;> rfl
        rwa [hsame]
      have hend : (start ++ [final] ++ after).reverse.dropWhile blank = (start ++ [final]).reverse := by
        rw [List.reverse_append]
        refine dropWhile_append_eq (by rwa [List.all_reverse]) ?_
        rw [List.head?_reverse]
        exact hlast
      rw [trimmed, hstart, hend, List.reverse_reverse]

end Ads.Foundation.Cutting
