import Mathlib.Data.Nat.Notation
import Mathlib.Logic.Function.Basic
import Mathlib.Tactic.SplitIfs

/-!
# Lock files

A lock is taken on an opened file and not on its name. A name is linked to at most one file; opening
it finds that file or creates one, and removing it leaves the opened file to those who have it. Two
who lock what they opened under one name exclude each other as long as both have the same file.

`Sound` says so of every handle that has a file open or locked, and each operation keeps it; removing
a name does so only when nobody else has opened its file and not locked it yet
(`Sound.unlink`). Locks under one name are then exclusive (`Sound.exclusive`).
-/

set_option autoImplicit false
set_option relaxedAutoImplicit false

namespace Ads.Foundation.LockFiles

/-- What a handle did with its file. -/
inductive Hold where
  | opened
  | refused
  | locked
  | removed
  deriving DecidableEq

/-- An opened file, with the name that it was opened under. -/
structure Opening (Name : Type) where
  name : Name
  file : ℕ
  hold : Hold

/-- The names of a directory, the opened files, and who locks a file. -/
structure Files (Name Handle : Type) where
  linked : Name → Option ℕ
  next : ℕ
  openings : Handle → Option (Opening Name)
  owner : ℕ → Option Handle

variable {Name Handle : Type}

/-- A directory without files. -/
def Files.empty : Files Name Handle where
  linked := fun _ ↦ none
  next := 0
  openings := fun _ ↦ none
  owner := fun _ ↦ none

namespace Files

variable [DecidableEq Handle] (files : Files Name Handle)

/-- A handle opens the file of a name when there is one. -/
def find (handle : Handle) (name : Name) : Files Name Handle :=
  match files.linked name with
  | some file =>
    { files with openings := Function.update files.openings handle (some ⟨name, file, .opened⟩) }
  | none => files

/-- A handle locks its file unless another one does. -/
def lock (handle : Handle) : Files Name Handle :=
  match files.openings handle with
  | some opening =>
    match files.owner opening.file with
    | none =>
      { files with
        openings := Function.update files.openings handle (some { opening with hold := .locked })
        owner := Function.update files.owner opening.file (some handle) }
    | some _ =>
      { files with
        openings := Function.update files.openings handle (some { opening with hold := .refused }) }
  | none => files

/-- A handle closes its file, and with that unlocks it. -/
def close (handle : Handle) : Files Name Handle :=
  match files.openings handle with
  | some opening =>
    { files with
      openings := Function.update files.openings handle none
      owner := if files.owner opening.file = some handle then
        Function.update files.owner opening.file none else files.owner }
  | none => files

variable [DecidableEq Name]

/-- A handle opens the file of a name, and creates it when there is none. -/
def create (handle : Handle) (name : Name) : Files Name Handle :=
  match files.linked name with
  | some file =>
    { files with openings := Function.update files.openings handle (some ⟨name, file, .opened⟩) }
  | none =>
    { files with
      linked := Function.update files.linked name (some files.next)
      next := files.next + 1
      openings := Function.update files.openings handle (some ⟨name, files.next, .opened⟩) }

/-- A handle removes the name of its file. -/
def unlink (handle : Handle) : Files Name Handle :=
  match files.openings handle with
  | some opening =>
    { files with
      linked := Function.update files.linked opening.name none
      openings := Function.update files.openings handle (some { opening with hold := .removed }) }
  | none => files

end Files

/-! ### The invariant -/

/-- Who locks a file owns it, and who has a file open or locked has the one of its name. -/
structure Sound (files : Files Name Handle) : Prop where
  owned : ∀ handle opening, files.openings handle = some opening →
    opening.hold = .locked ∨ opening.hold = .removed → files.owner opening.file = some handle
  current : ∀ handle opening, files.openings handle = some opening →
    opening.hold = .opened ∨ opening.hold = .locked →
      files.linked opening.name = some opening.file

theorem Sound.empty : Sound (Files.empty : Files Name Handle) :=
  ⟨fun _ opening hnone _ ↦ absurd hnone (Option.some_ne_none opening).symm,
    fun _ opening hnone _ ↦ absurd hnone (Option.some_ne_none opening).symm⟩

/-- Two handles do not both lock what they opened under one name. -/
theorem Sound.exclusive {files : Files Name Handle} (hsound : Sound files)
    {first second : Handle} {mine other : Opening Name} (hfirst : files.openings first = some mine)
    (hsecond : files.openings second = some other) (hname : mine.name = other.name)
    (hmine : mine.hold = .locked) (hother : other.hold = .locked) : first = second := by
  have hfile : mine.file = other.file := by
    have hlinked := hsound.current first mine hfirst (.inr hmine)
    rw [hname, hsound.current second other hsecond (.inr hother)] at hlinked
    exact (Option.some.inj hlinked).symm
  have howner := hsound.owned first mine hfirst (.inl hmine)
  rw [hfile, hsound.owned second other hsecond (.inl hother)] at howner
  exact (Option.some.inj howner).symm

section Operations

variable [DecidableEq Handle] {files : Files Name Handle} {handle : Handle}
  {name : Name}

/-- What a handle has once one of them has another file. -/
theorem openings_update {openings : Handle → Option (Opening Name)} {other : Handle}
    {mine opening : Opening Name}
    (hopening : Function.update openings handle (some mine) other = some opening) :
    other = handle ∧ opening = mine ∨ other ≠ handle ∧ openings other = some opening := by
  rw [Function.update_apply] at hopening
  split_ifs at hopening with hsame
  · exact .inl ⟨hsame, (Option.some.inj hopening).symm⟩
  · exact .inr ⟨hsame, hopening⟩

/-- A handle opens the file that its name is linked to. -/
theorem Sound.opens {file : ℕ} (hsound : Sound files) (hlinked : files.linked name = some file) :
    Sound { files with
      openings := Function.update files.openings handle (some ⟨name, file, .opened⟩) } := by
  constructor
  · intro other opening hopening hhold
    rcases openings_update hopening with ⟨rfl, rfl⟩ | ⟨_, hopening⟩
    · simp at hhold
    · exact hsound.owned other opening hopening hhold
  · intro other opening hopening hhold
    rcases openings_update hopening with ⟨rfl, rfl⟩ | ⟨_, hopening⟩
    · exact hlinked
    · exact hsound.current other opening hopening hhold

theorem Sound.find (hsound : Sound files) : Sound (files.find handle name) := by
  unfold Files.find
  split
  · next file hlinked => exact hsound.opens hlinked
  · exact hsound

theorem Sound.lock (hsound : Sound files)
    (hopened : ∀ opening, files.openings handle = some opening → opening.hold = .opened) :
    Sound (files.lock handle) := by
  unfold Files.lock
  split
  · next mine hmine =>
    split
    · next hfree =>
      constructor
      · intro other opening hopening hhold
        rcases openings_update hopening with ⟨rfl, rfl⟩ | ⟨_, hopening⟩
        · exact Function.update_self _ _ _
        · have howner := hsound.owned other opening hopening hhold
          have hfile : opening.file ≠ mine.file := by
            intro hfile
            rw [hfile, hfree] at howner
            cases howner
          exact (Function.update_of_ne hfile _ _).trans howner
      · intro other opening hopening hhold
        rcases openings_update hopening with ⟨rfl, rfl⟩ | ⟨_, hopening⟩
        · exact hsound.current other mine hmine (.inl (hopened mine hmine))
        · exact hsound.current other opening hopening hhold
    · constructor
      · intro other opening hopening hhold
        rcases openings_update hopening with ⟨rfl, rfl⟩ | ⟨_, hopening⟩
        · simp at hhold
        · exact hsound.owned other opening hopening hhold
      · intro other opening hopening hhold
        rcases openings_update hopening with ⟨rfl, rfl⟩ | ⟨_, hopening⟩
        · simp at hhold
        · exact hsound.current other opening hopening hhold
  · exact hsound

theorem Sound.close (hsound : Sound files) : Sound (files.close handle) := by
  have hother : ∀ other opening, Function.update files.openings handle none other = some opening →
      other ≠ handle ∧ files.openings other = some opening := by
    intro other opening hopening
    rw [Function.update_apply] at hopening
    split_ifs at hopening with hsame
    exact ⟨hsame, hopening⟩
  unfold Files.close
  split
  · next mine hmine =>
    constructor
    · intro other opening hopening hhold
      obtain ⟨hne, hopening⟩ := hother other opening hopening
      have howner := hsound.owned other opening hopening hhold
      dsimp only
      split_ifs with hmineOwns
      · have hfile : opening.file ≠ mine.file := by
          intro hfile
          rw [hfile, hmineOwns] at howner
          exact hne (Option.some.inj howner).symm
        exact (Function.update_of_ne hfile _ _).trans howner
      · exact howner
    · intro other opening hopening hhold
      exact hsound.current other opening (hother other opening hopening).2 hhold
  · exact hsound

variable [DecidableEq Name]

theorem Sound.create (hsound : Sound files) : Sound (files.create handle name) := by
  unfold Files.create
  split
  · next file hlinked => exact hsound.opens hlinked
  · next hnone =>
    -- Nobody has a file of this name open, so that linking the name anew takes none away.
    have hlinks : Sound { files with
        linked := Function.update files.linked name (some files.next)
        next := files.next + 1 } := by
      refine ⟨hsound.owned, fun other opening hopening hhold ↦ ?_⟩
      have hlinked := hsound.current other opening hopening hhold
      have hname : opening.name ≠ name := by
        rintro rfl
        rw [hnone] at hlinked
        cases hlinked
      exact (Function.update_of_ne hname _ _).trans hlinked
    exact hlinks.opens (Function.update_self name (some files.next) files.linked)

/-- The name of a locked file is removed while nobody else has opened the file and not locked it
yet. -/
theorem Sound.unlink (hsound : Sound files)
    (hlocked : ∀ mine, files.openings handle = some mine → mine.hold = .locked)
    (halone : ∀ mine, files.openings handle = some mine → ∀ other opening,
      files.openings other = some opening → opening.file = mine.file → opening.hold ≠ .opened) :
    Sound (files.unlink handle) := by
  unfold Files.unlink
  split
  · next mine hmine =>
    have hmineLocked := hlocked mine hmine
    constructor
    · intro other opening hopening hhold
      rcases openings_update hopening with ⟨rfl, rfl⟩ | ⟨_, hopening⟩
      · exact hsound.owned other mine hmine (.inl hmineLocked)
      · exact hsound.owned other opening hopening hhold
    · intro other opening hopening hhold
      rcases openings_update hopening with ⟨rfl, rfl⟩ | ⟨hne, hopening⟩
      · simp at hhold
      · have hlinked := hsound.current other opening hopening hhold
        have hname : opening.name ≠ mine.name := by
          intro hname
          have hfile : opening.file = mine.file := by
            rw [hname, hsound.current handle mine hmine (.inr hmineLocked)] at hlinked
            exact (Option.some.inj hlinked).symm
          rcases hhold with hopened | hother
          · exact halone mine hmine other opening hopening hfile hopened
          · exact hne (hsound.exclusive hopening hmine hname hother hmineLocked)
        exact (Function.update_of_ne hname _ _).trans hlinked
  · exact hsound

end Operations

/-! ### Other handles -/

section Frame

variable [DecidableEq Handle] {files : Files Name Handle} {handle other : Handle}
  {name : Name}

theorem openings_find_of_ne (hother : other ≠ handle) :
    (files.find handle name).openings other = files.openings other := by
  unfold Files.find
  split
  · exact Function.update_of_ne hother _ _
  · rfl

theorem openings_lock_of_ne (hother : other ≠ handle) :
    (files.lock handle).openings other = files.openings other := by
  unfold Files.lock
  split
  · split <;> exact Function.update_of_ne hother _ _
  · rfl

theorem openings_close_of_ne (hother : other ≠ handle) :
    (files.close handle).openings other = files.openings other := by
  unfold Files.close
  split
  · exact Function.update_of_ne hother _ _
  · rfl

/-- A closed handle has no file. -/
theorem openings_close : (files.close handle).openings handle = none := by
  unfold Files.close
  split
  · exact Function.update_self _ _ _
  · next hnone => exact hnone

variable [DecidableEq Name]

theorem openings_create_of_ne (hother : other ≠ handle) :
    (files.create handle name).openings other = files.openings other := by
  unfold Files.create
  split <;> exact Function.update_of_ne hother _ _

theorem openings_unlink_of_ne (hother : other ≠ handle) :
    (files.unlink handle).openings other = files.openings other := by
  unfold Files.unlink
  split
  · exact Function.update_of_ne hother _ _
  · rfl

/-- A handle that created has a file open under the name. -/
theorem openings_create : ∃ file,
    (files.create handle name).openings handle = some ⟨name, file, .opened⟩ := by
  unfold Files.create
  split
  · next file _ => exact ⟨file, Function.update_self _ _ _⟩
  · exact ⟨files.next, Function.update_self _ _ _⟩

end Frame

end Ads.Foundation.LockFiles
