import Mathlib.Computability.Language

/-!
# Patterns with wildcards

A pattern is a list of wildcards. A gap stands for any word, a letter of a kind for one such letter,
and the pattern for the words that divide into parts its wildcards stand for (`language`).

A matcher that goes through a pattern once keeps the prefixes of the word that the pattern so far
stands for. `reaches_gap` and `reaches_letter` say how one more wildcard changes them, and
`mem_language_iff` that the word matches if it is among them at the end.
-/

set_option autoImplicit false
set_option relaxedAutoImplicit false

namespace Ads.Foundation.Wildcards

variable {α : Type}

/-- A part of a pattern. -/
inductive Wildcard (α : Type)
  /-- Any word. -/
  | gap
  /-- One letter of a kind. -/
  | letter (accepts : α → Prop)

/-- The words of a wildcard. -/
def Wildcard.words : Wildcard α → Language α
  | .gap => ⊤
  | .letter accepts => {word | ∃ first, accepts first ∧ word = [first]}

/-- The words of a pattern. -/
def language (pattern : List (Wildcard α)) : Language α :=
  (pattern.map Wildcard.words).prod

/-- The pattern stands for the first letters of a word, so many of them. -/
def Reaches (pattern : List (Wildcard α)) (word : List α) (count : ℕ) : Prop :=
  count ≤ word.length ∧ word.take count ∈ language pattern

variable {pattern : List (Wildcard α)} {word : List α} {count : ℕ}

/-- A pattern with one more wildcard. -/
theorem language_append (last : Wildcard α) :
    language (pattern ++ [last]) = language pattern * last.words := by
  unfold language
  rw [List.map_append, List.prod_append, List.map_singleton, List.prod_singleton]

/-- A word matches if its pattern stands for all of its letters. -/
theorem mem_language_iff : word ∈ language pattern ↔ Reaches pattern word word.length := by
  unfold Reaches
  rw [List.take_length]
  exact ⟨fun hmem ↦ ⟨le_rfl, hmem⟩, And.right⟩

/-- The empty pattern stands for no letter. -/
theorem reaches_nil : Reaches ([] : List (Wildcard α)) word count ↔ count = 0 := by
  unfold Reaches language
  rw [List.map_nil, List.prod_nil, Language.mem_one]
  constructor
  · rintro ⟨hcount, hempty⟩
    have hlength := congrArg List.length hempty
    rw [List.length_take, min_eq_left hcount] at hlength
    exact hlength
  · rintro rfl
    exact ⟨Nat.zero_le _, rfl⟩

/-- After a gap, the pattern stands for as many letters or more. -/
theorem reaches_gap : Reaches (pattern ++ [.gap]) word count ↔
    count ≤ word.length ∧ ∃ earlier ≤ count, Reaches pattern word earlier := by
  unfold Reaches
  rw [language_append, Language.mem_mul]
  refine and_congr_right fun hcount ↦ ⟨?_, ?_⟩
  · rintro ⟨before, hbefore, after, -, hword⟩
    have hlength := congrArg List.length hword
    rw [List.length_append, List.length_take, min_eq_left hcount] at hlength
    refine ⟨before.length, by omega, by omega, ?_⟩
    have htake : word.take before.length = before := by
      calc word.take before.length = (word.take count).take before.length := by
            rw [List.take_take, min_eq_left (by omega)]
        _ = (before ++ after).take before.length := by rw [hword]
        _ = before := List.take_left
    rwa [htake]
  · rintro ⟨earlier, hless, -, hmem⟩
    refine ⟨word.take earlier, hmem, (word.drop earlier).take (count - earlier), trivial, ?_⟩
    have htake : word.take earlier = (word.take count).take earlier := by
      rw [List.take_take, min_eq_left hless]
    rw [← List.drop_take, htake, List.take_append_drop]

/-- After a letter, the pattern stands for one letter more, if it is of the kind. -/
theorem reaches_letter {accepts : α → Prop} :
    Reaches (pattern ++ [.letter accepts]) word count ↔
      ∃ earlier, count = earlier + 1 ∧ Reaches pattern word earlier ∧
        ∃ next, word[earlier]? = some next ∧ accepts next := by
  unfold Reaches
  rw [language_append, Language.mem_mul]
  constructor
  · rintro ⟨hcount, before, hbefore, after, ⟨next, hnext, rfl⟩, hword⟩
    have hlength := congrArg List.length hword
    rw [List.length_append, List.length_take, min_eq_left hcount, List.length_singleton] at hlength
    refine ⟨before.length, hlength.symm, ⟨by omega, ?_⟩, next, ?_, hnext⟩
    · have htake : word.take before.length = before := by
        calc word.take before.length = (word.take count).take before.length := by
              rw [List.take_take, min_eq_left (by omega)]
          _ = (before ++ [next]).take before.length := by rw [hword]
          _ = before := List.take_left
      rwa [htake]
    · calc word[before.length]? = (word.take count)[before.length]? :=
            (List.getElem?_take_of_lt (by omega)).symm
        _ = (before ++ [next])[before.length]? := by rw [hword]
        _ = some next := List.getElem?_concat_length
  · rintro ⟨earlier, rfl, ⟨-, hmem⟩, next, hnext, haccepts⟩
    obtain ⟨hlower, hget⟩ := List.getElem?_eq_some_iff.mp hnext
    refine ⟨hlower, word.take earlier, hmem, [next], ⟨next, haccepts, rfl⟩, ?_⟩
    rw [List.take_add_one, hnext]
    rfl

/-- A gap may stand for no letter, or for one more. -/
theorem reaches_gap_succ : Reaches (pattern ++ [.gap]) word (count + 1) ↔
    Reaches pattern word (count + 1) ∨
      count + 1 ≤ word.length ∧ Reaches (pattern ++ [.gap]) word count := by
  rw [reaches_gap, reaches_gap]
  constructor
  · rintro ⟨hcount, earlier, hearlier, hreaches⟩
    rcases Nat.le_succ_iff.mp hearlier with hless | rfl
    · exact Or.inr ⟨hcount, Nat.le_of_succ_le hcount, earlier, hless, hreaches⟩
    · exact Or.inl hreaches
  · rintro (hreaches | ⟨hcount, -, earlier, hearlier, hreaches⟩)
    · exact ⟨hreaches.1, count + 1, le_rfl, hreaches⟩
    · exact ⟨hcount, earlier, Nat.le_succ_of_le hearlier, hreaches⟩

/-- Before its first letter, a word matches what stands for nothing. -/
theorem reaches_gap_zero : Reaches (pattern ++ [.gap]) word 0 ↔ Reaches pattern word 0 := by
  rw [reaches_gap]
  constructor
  · rintro ⟨-, earlier, hearlier, hreaches⟩
    rwa [Nat.le_zero.mp hearlier] at hreaches
  · exact fun hreaches ↦ ⟨Nat.zero_le _, 0, le_rfl, hreaches⟩

/-- A pattern that stands for no first letters does not so with one more wildcard. -/
theorem not_reaches_append {last : Wildcard α} (hnone : ∀ count, ¬ Reaches pattern word count) :
    ¬ Reaches (pattern ++ [last]) word count := by
  cases last with
  | gap =>
    rw [reaches_gap]
    rintro ⟨-, earlier, -, hreaches⟩
    exact hnone earlier hreaches
  | letter accepts =>
    rw [reaches_letter]
    rintro ⟨earlier, -, hreaches, -⟩
    exact hnone earlier hreaches

/-- A pattern that stands for no first letters is the start of none that a word matches. -/
theorem not_mem_language {rest : List (Wildcard α)} (hnone : ∀ count, ¬ Reaches pattern word count) :
    word ∉ language (pattern ++ rest) := by
  induction rest generalizing pattern with
  | nil =>
    rw [List.append_nil, mem_language_iff]
    exact hnone word.length
  | cons first rest ih =>
    rw [List.append_cons]
    exact ih fun count ↦ not_reaches_append hnone

end Ads.Foundation.Wildcards
