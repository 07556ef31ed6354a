import Mathlib

/-!
# Classes of letters

A class of letters as a language and as a regular expression, and the languages whose words all lack
a letter.
-/

set_option autoImplicit false
set_option relaxedAutoImplicit false

namespace Ads.Foundation.Alphabets

open RegularExpression

variable {α : Type} {accepts : α → Bool} {letters : List α} {letter : α} {first second : Language α}

open scoped Computability

/-! ### Classes -/

/-- One letter of a class. -/
def letterOf (accepts : α → Bool) : Language α :=
  {word | ∃ letter, accepts letter = true ∧ word = [letter]}

/-- Letters of a class. -/
def wordsOf (accepts : α → Bool) : Language α :=
  {word | word.all accepts = true}

/-- One of some letters. -/
def oneOf : List α → RegularExpression α
  | [] => 0
  | letter :: rest => char letter + oneOf rest

theorem mem_matches_oneOf {word : List α} :
    word ∈ (oneOf letters).matches' ↔ ∃ letter ∈ letters, word = [letter] := by
  induction letters with
  | nil => simp [oneOf, Language.notMem_zero]
  | cons letter rest ih =>
    rw [oneOf, matches'_add, Language.mem_add, ih, matches'_char]
    simp only [List.mem_cons, exists_eq_or_imp]
    rfl

/-- The letters of a class among all letters. -/
theorem matches_oneOf_filter (hall : ∀ letter, letter ∈ letters) :
    (oneOf (letters.filter accepts)).matches' = letterOf accepts := by
  ext word
  rw [mem_matches_oneOf]
  simp only [List.mem_filter, hall, true_and]
  rfl

/-- The words of a class are those made of its letters. -/
theorem kstar_letterOf : (letterOf accepts)∗ = wordsOf accepts := by
  ext word
  rw [Language.mem_kstar]
  constructor
  · rintro ⟨parts, rfl, hparts⟩
    have hall : parts.flatten.all accepts = true := by
      simp only [List.all_eq_true, List.mem_flatten]
      rintro letter ⟨part, hpart, hletter⟩
      obtain ⟨other, hother, rfl⟩ := hparts part hpart
      rw [List.mem_singleton.mp hletter]
      exact hother
    exact hall
  · intro hword
    refine ⟨word.map fun letter ↦ [letter], ?_, ?_⟩
    · rw [← List.flatMap_def, List.flatMap_singleton']
    · intro part hpart
      obtain ⟨letter, hletter, rfl⟩ := List.mem_map.mp hpart
      exact ⟨letter, List.all_eq_true.mp hword letter hletter, rfl⟩

/-! ### Words that lack a letter -/

/-- The words without a letter. -/
def avoiding (letter : α) : Language α :=
  {word | letter ∉ word}

theorem mul_le_avoiding (hfirst : first ≤ avoiding letter) (hsecond : second ≤ avoiding letter) :
    first * second ≤ avoiding letter := by
  intro word hword
  obtain ⟨before, hbefore, after, hafter, rfl⟩ := Language.mem_mul.mp hword
  have hnot : letter ∉ before ++ after := by
    rw [List.mem_append, not_or]
    exact ⟨hfirst hbefore, hsecond hafter⟩
  exact hnot

theorem add_le_avoiding (hfirst : first ≤ avoiding letter) (hsecond : second ≤ avoiding letter) :
    first + second ≤ avoiding letter := by
  intro word hword
  rcases (Language.mem_add _ _ _).mp hword with hword | hword
  · exact hfirst hword
  · exact hsecond hword

theorem one_le_avoiding : 1 ≤ avoiding letter := by
  intro word hword
  rw [(Language.mem_one _).mp hword]
  exact List.not_mem_nil

theorem kstar_le_avoiding (hfirst : first ≤ avoiding letter) : first∗ ≤ avoiding letter := by
  intro word hword
  obtain ⟨parts, rfl, hparts⟩ := Language.mem_kstar.mp hword
  have hnot : letter ∉ parts.flatten := by
    rw [List.mem_flatten]
    rintro ⟨part, hpart, hletter⟩
    exact hfirst (hparts part hpart) hletter
  exact hnot

theorem wordsOf_le_avoiding (hletter : accepts letter = false) : wordsOf accepts ≤ avoiding letter := by
  intro word hword hmem
  have haccepts := List.all_eq_true.mp hword letter hmem
  rw [hletter] at haccepts
  cases haccepts

theorem letterOf_le_avoiding (hletter : accepts letter = false) :
    letterOf accepts ≤ avoiding letter := by
  rintro word ⟨other, hother, rfl⟩ hmem
  obtain rfl := List.mem_singleton.mp hmem
  rw [hletter] at hother
  cases hother

theorem singleton_le_avoiding {other : α} (hne : other ≠ letter) :
    ({[other]} : Language α) ≤ avoiding letter := by
  intro word hword
  obtain rfl : word = [other] := hword
  exact fun hmem ↦ hne (List.mem_singleton.mp hmem).symm

end Ads.Foundation.Alphabets
