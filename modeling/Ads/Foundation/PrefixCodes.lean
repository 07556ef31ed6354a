import Mathlib.Algebra.Group.Nat.Defs
import Mathlib.Data.List.Basic

/-!
# Prefix codes

A code writes a value in front of what follows and reads it back from there. Codes of the parts of a
value, one after the other, are a code of the value. Where only the writing is given, `PrefixFree`
says that no value that is written is the beginning of another one: a text behind its length is such
(`prefixFree_framed`), and values one after the other are read in one way (`PrefixFree.flatMap`).
-/

set_option autoImplicit false
set_option relaxedAutoImplicit false

namespace Ads.Foundation.PrefixCodes

variable {β α γ δ : Type}

/-- A way to write values that are read back from the front of what follows them. -/
structure Code (β α : Type) where
  write : α → List β
  read : List β → Option (α × List β)
  read_write : ∀ value rest, read (write value ++ rest) = some (value, rest)

namespace Code

/-- One letter. -/
def letter : Code β β where
  write value := [value]
  read
    | [] => none
    | value :: rest => some (value, rest)
  read_write _ _ := rfl

/-- A value that is written as another one. -/
def via (code : Code β γ) (into : α → γ) (back : γ → Option α)
    (hback : ∀ value, back (into value) = some value) : Code β α where
  write value := code.write (into value)
  read input := (code.read input).bind fun found ↦ (back found.1).map fun value ↦ (value, found.2)
  read_write value rest := by simp [code.read_write, hback]

/-- Two values. -/
def pair (first : Code β α) (second : Code β γ) : Code β (α × γ) where
  write value := first.write value.1 ++ second.write value.2
  read input := (first.read input).bind fun found ↦
    (second.read found.2).map fun last ↦ ((found.1, last.1), last.2)
  read_write value rest := by simp [first.read_write, second.read_write]

/-- A value, or none. -/
def optional [DecidableEq β] (absent present : β) (hne : absent ≠ present) (code : Code β α) :
    Code β (Option α) where
  write
    | none => [absent]
    | some value => present :: code.write value
  read
    | [] => none
    | mark :: rest =>
      if mark = absent then some (none, rest)
      else (code.read rest).map fun found ↦ (some found.1, found.2)
  read_write value rest := by
    cases value with
    | none => simp
    | some value => simp [hne.symm, code.read_write]

/-- A number, as that many marks. -/
def readNat [DecidableEq β] (stop : β) : List β → Option (ℕ × List β)
  | [] => none
  | mark :: rest =>
    if mark = stop then some (0, rest)
    else (readNat stop rest).map fun found ↦ (found.1 + 1, found.2)

/-- A number. -/
def nat [DecidableEq β] (stop mark : β) (hne : stop ≠ mark) : Code β ℕ where
  write number := List.replicate number mark ++ [stop]
  read := readNat stop
  read_write number rest := by
    induction number with
    | zero => simp [readNat]
    | succ number ih =>
      simp only [List.append_assoc, List.cons_append, List.nil_append] at ih
      simp [List.replicate_succ, readNat, hne.symm, ih]

/-- As many values as a number says. -/
def readMany (code : Code β α) : ℕ → List β → Option (List α × List β)
  | 0, input => some ([], input)
  | count + 1, input =>
    (code.read input).bind fun found ↦
      (readMany code count found.2).map fun last ↦ (found.1 :: last.1, last.2)

/-- The values are read back. -/
theorem readMany_write (code : Code β α) (values : List α) (rest : List β) :
    readMany code values.length ((values.map code.write).flatten ++ rest) = some (values, rest) := by
  induction values with
  | nil => rfl
  | cons value values ih => simp [readMany, code.read_write, ih]

/-- Any number of values. -/
def many (count : Code β ℕ) (code : Code β α) : Code β (List α) where
  write values := count.write values.length ++ (values.map code.write).flatten
  read input := (count.read input).bind fun found ↦ readMany code found.1 found.2
  read_write values rest := by simp [count.read_write, readMany_write]

/-- The value at the front. -/
def decode (code : Code β α) (input : List β) : Option α :=
  (code.read input).map Prod.fst

@[simp] theorem decode_write (code : Code β α) (value : α) :
    code.decode (code.write value) = some value := by
  have hread := code.read_write value []
  rw [List.append_nil] at hread
  simp [decode, hread]

end Code

/-! ### Unique reading -/

/-- No valid value that is written is the beginning of another one. -/
def PrefixFree (valid : α → Prop) (write : α → List β) : Prop :=
  ∀ value other rest last, valid value → valid other →
    write value ++ rest = write other ++ last → value = other ∧ rest = last

/-- What is read back is written in one way. -/
theorem Code.prefixFree (code : Code β α) : PrefixFree (fun _ ↦ True) code.write := by
  intro value other rest last _ _ heq
  have hread := code.read_write value rest
  rw [heq, code.read_write, Option.some.injEq, Prod.mk.injEq] at hread
  exact ⟨hread.1.symm, hread.2.symm⟩

variable {valid : α → Prop} {write : α → List β}

/-- Values of one length, that is not zero, are told apart by their letters. -/
theorem prefixFree_of_length (width : ℕ)
    (hlength : ∀ value, valid value → (write value).length = width)
    (hinjective : ∀ value other, valid value → valid other → write value = write other →
      value = other) : PrefixFree valid write := by
  intro value other rest last hvalue hother heq
  have hsame := (hlength value hvalue).trans (hlength other hother).symm
  obtain ⟨hwrite, hrest⟩ := List.append_inj heq hsame
  exact ⟨hinjective value other hvalue hother hwrite, hrest⟩

/-- A text behind its length is read in one way. -/
theorem prefixFree_framed {header : ℕ → List β}
    (hheader : PrefixFree (fun length ↦ ∃ value, valid value ∧ (write value).length = length) header)
    (hinjective : ∀ value other, valid value → valid other → write value = write other →
      value = other) :
    PrefixFree valid fun value ↦ header (write value).length ++ write value := by
  intro value other rest last hvalue hother heq
  simp only [List.append_assoc] at heq
  obtain ⟨hlength, hbody⟩ := hheader _ _ _ _ ⟨value, hvalue, rfl⟩ ⟨other, hother, rfl⟩ heq
  obtain ⟨hwrite, hrest⟩ := List.append_inj hbody hlength
  exact ⟨hinjective value other hvalue hother hwrite, hrest⟩

/-- Values one after the other, up to a text that no value begins, are read in one way. -/
theorem PrefixFree.flatMap (hfree : PrefixFree valid write) {values others : List α}
    {rest last : List β} (hvalues : ∀ value ∈ values, valid value)
    (hothers : ∀ value ∈ others, valid value)
    (hrest : ∀ value tail, valid value → write value ++ tail ≠ rest)
    (hlast : ∀ value tail, valid value → write value ++ tail ≠ last)
    (heq : values.flatMap write ++ rest = others.flatMap write ++ last) :
    values = others ∧ rest = last := by
  induction values generalizing others with
  | nil =>
    cases others with
    | nil => exact ⟨rfl, heq⟩
    | cons other others =>
      rw [List.flatMap_cons, List.append_assoc] at heq
      exact absurd heq.symm (hrest other _ (hothers other List.mem_cons_self))
  | cons value values ih =>
    cases others with
    | nil =>
      rw [List.flatMap_cons, List.append_assoc] at heq
      exact absurd heq (hlast value _ (hvalues value List.mem_cons_self))
    | cons other others =>
      simp only [List.flatMap_cons, List.append_assoc] at heq
      obtain ⟨rfl, htail⟩ := hfree value other _ _ (hvalues value List.mem_cons_self)
        (hothers other List.mem_cons_self) heq
      obtain ⟨rfl, hsame⟩ := ih (fun item hitem ↦ hvalues item (List.mem_cons_of_mem _ hitem))
        (fun item hitem ↦ hothers item (List.mem_cons_of_mem _ hitem)) htail
      exact ⟨rfl, hsame⟩

/-- Values one after the other, of which none is written as nothing, are told by what is written. -/
theorem PrefixFree.eq_of_flatMap (hfree : PrefixFree valid write) {values others : List α}
    (hvalues : ∀ value ∈ values, valid value) (hothers : ∀ value ∈ others, valid value)
    (hnonempty : ∀ value, valid value → write value ≠ [])
    (heq : values.flatMap write = others.flatMap write) : values = others := by
  have hend : ∀ value tail, valid value → write value ++ tail ≠ [] := fun value tail hvalue hnil ↦
    hnonempty value hvalue (List.append_eq_nil_iff.mp hnil).1
  exact (hfree.flatMap hvalues hothers hend hend (congrArg (· ++ []) heq)).1

/-- Values of one length, that is not zero, one after the other, are told by what is written. -/
theorem flatMap_injective_of_length {width : ℕ} (hwidth : 0 < width)
    (hlength : ∀ value, (write value).length = width) (hinjective : Function.Injective write) :
    Function.Injective fun values : List α ↦ values.flatMap write := by
  intro values others heq
  have hfree : PrefixFree (fun _ ↦ True) write :=
    prefixFree_of_length width (fun value _ ↦ hlength value) fun _ _ _ _ hsame ↦ hinjective hsame
  refine hfree.eq_of_flatMap (fun _ _ ↦ trivial) (fun _ _ ↦ trivial) (fun value _ hnil ↦ ?_) heq
  have hzero := hlength value
  rw [hnil, List.length_nil] at hzero
  omega

/-! ### Numbers of fixed width -/

/-- The digits of a number in a base, the highest first. -/
def fixedDigits (base : ℕ) (digit : ℕ → β) (width value : ℕ) : List β :=
  (List.range width).reverse.map fun place ↦ digit (value / base ^ place % base)

@[simp] theorem length_fixedDigits {base width value : ℕ} {digit : ℕ → β} :
    (fixedDigits base digit width value).length = width := by
  simp [fixedDigits]

/-- The digits tell the number up to a multiple of the power of the base. -/
theorem mod_eq_of_fixedDigits {base width value other : ℕ} {digit : ℕ → β}
    (hdigit : ∀ first < base, ∀ second < base, digit first = digit second → first = second)
    (hbase : 0 < base)
    (heq : fixedDigits base digit width value = fixedDigits base digit width other) :
    value % base ^ width = other % base ^ width := by
  induction width with
  | zero => simp [Nat.mod_one]
  | succ width ih =>
    simp only [fixedDigits, List.range_succ, List.reverse_append, List.reverse_cons,
      List.reverse_nil, List.nil_append, List.map_cons, List.cons_append, List.cons.injEq] at heq
    have htop := hdigit _ (Nat.mod_lt _ hbase) _ (Nat.mod_lt _ hbase) heq.1
    rw [Nat.mod_pow_succ, Nat.mod_pow_succ, ih heq.2, htop]

end Ads.Foundation.PrefixCodes
