import Mathlib.Data.List.Induction
import Ads.PtpTools.Plugin

/-!
# The attachment lock

A process is inside `attachment_lock` while it holds the lock of the file that it opened. The
collection of another process removes a lock file together with its attempt record. A process that
has opened the file by then and locks it afterwards holds a lock that nobody finds under the name any
more, and the next one creates another file: `lock_shared` has two processes inside for one key.

`attachment_lock_exclusive` says that there is at most one in every run in which no lock file is
removed that somebody opened and is about to lock.
-/

set_option autoImplicit false
set_option relaxedAutoImplicit false

namespace Ads.PtpTools

open Foundation Foundation.LockFiles

/-- A process in the body of `attachment_lock`. -/
def Stage.isInside : Stage → Bool
  | .opening | .locking | .leaving _ | .ended _ => false
  | _ => true

/-- A process is inside `attachment_lock` for a key. -/
def Inside (node : Node) (pid : ℕ) (key : Key) : Prop :=
  ∃ process, node.processes pid = some process ∧ process.request.key = key ∧
    process.stage.isInside = true

instance (node : Node) (pid : ℕ) (key : Key) : Decidable (Inside node pid key) :=
  decidable_of_iff ((node.processes pid).any fun process ↦
      process.request.key = key ∧ process.stage.isInside = true) (by
    unfold Inside
    cases node.processes pid <;> simp)

/-- The process that removes a lock file in a step. -/
def removesLock (node : Node) : Event → Option ℕ
  | .act pid _ =>
    match (node.processes pid).map Process.stage with
    | some (.removing (_ :: _) .lock) => some pid
    | _ => none
  | _ => none

/-- No process removes a lock file that another one has opened and is about to lock. -/
def Careful (node : Node) (event : Event) : Prop :=
  ∀ pid ∈ removesLock node event, ∀ mine handle opening,
    node.files.openings ⟨pid, .collected⟩ = some mine →
      node.files.openings handle = some opening → opening.file = mine.file →
        opening.hold ≠ .opened

/-- Every step of a run is careful. -/
def CarefulRun (events : List Event) : Prop :=
  ∀ (index : ℕ) (hindex : index < events.length), Careful (run (events.take index)) events[index]

/-- A run that removes no lock file is careful. -/
theorem careful_of_removesNone {events : List Event}
    (hnone : ∀ (index : ℕ) (hindex : index < events.length),
      removesLock (run (events.take index)) events[index] = none) : CarefulRun events := by
  intro index hindex pid hpid
  rw [hnone index hindex] at hpid
  cases hpid

/-! ### The invariant -/

/-- The lock file of a process fits to its stage. -/
structure OwnFits (key : Key) (stage : Stage) (opening : Option (Opening Key)) : Prop where
  locking : stage = .locking → ∃ file, opening = some ⟨key, file, .opened⟩
  inside : stage.isInside = true → ∃ file, opening = some ⟨key, file, .locked⟩

/-- The lock file of the key that is collected fits to the stage. -/
def CollectedFits (stage : Stage) (opening : Option (Opening Key)) : Prop :=
  match stage with
  | .removing (key :: _) .locking => ∃ file, opening = some ⟨key, file, .opened⟩
  | .removing (key :: _) .record | .removing (key :: _) .lock =>
    ∃ file, opening = some ⟨key, file, .locked⟩
  | _ => True

/-- The lock files of all processes fit to what they do. -/
structure Lawful (node : Node) : Prop where
  sound : Sound node.files
  own : ∀ pid process, node.processes pid = some process →
    OwnFits process.request.key process.stage (node.files.openings ⟨pid, .own⟩)
  collected : ∀ pid process, node.processes pid = some process →
    CollectedFits process.stage (node.files.openings ⟨pid, .collected⟩)

/-- A stage that says nothing about the lock file of a collected key, and does not lock. -/
def Stage.isPlain : Stage → Bool
  | .locking | .removing (_ :: _) .locking | .removing (_ :: _) .record
  | .removing (_ :: _) .lock => false
  | _ => true

section Stages

variable {stage : Stage} {key : Key} {opening : Option (Opening Key)}

theorem collectedFits_of_isPlain (hplain : stage.isPlain = true) : CollectedFits stage opening := by
  unfold Stage.isPlain at hplain
  unfold CollectedFits
  split at hplain <;> simp_all

theorem opening_isPlain (keys : List Key) : (Stage.removing keys .opening).isPlain = true := by
  cases keys <;> rfl

theorem ne_locking_of_isPlain (hplain : stage.isPlain = true) : stage ≠ .locking := by
  rintro rfl
  simp [Stage.isPlain] at hplain

/-- A process outside needs no lock file. -/
theorem ownFits_outside (hlocking : stage ≠ .locking) (houtside : stage.isInside = false) :
    OwnFits key stage opening :=
  ⟨fun heq ↦ absurd heq hlocking, fun hinside ↦ absurd (houtside.symm.trans hinside) (by decide)⟩

/-- A process that holds its lock may be inside. -/
theorem ownFits_locked {file : ℕ} (hlocking : stage ≠ .locking) :
    OwnFits key stage (some ⟨key, file, .locked⟩) :=
  ⟨fun heq ↦ absurd heq hlocking, fun _ ↦ ⟨file, rfl⟩⟩

end Stages

section Invariant

variable {before after node : Node} {pid : ℕ} {process : Process} {answer : Answer}

/-- One process moved, and only its own files changed. -/
theorem Lawful.moved {stage : Stage} (hlawful : Lawful before) (hsound : Sound after.files)
    (hprocesses : after.processes =
      Function.update before.processes pid (some { process with stage := stage }))
    (hframe : ∀ handle : Handle, handle.pid ≠ pid →
      after.files.openings handle = before.files.openings handle)
    (hown : OwnFits process.request.key stage (after.files.openings ⟨pid, .own⟩))
    (hcollected : CollectedFits stage (after.files.openings ⟨pid, .collected⟩)) :
    Lawful after := by
  have hcases : ∀ other found, after.processes other = some found →
      other = pid ∧ found = { process with stage := stage } ∨
        other ≠ pid ∧ before.processes other = some found := by
    intro other found hfound
    rw [hprocesses, Function.update_apply] at hfound
    split_ifs at hfound with hsame
    · exact .inl ⟨hsame, (Option.some.inj hfound).symm⟩
    · exact .inr ⟨hsame, hfound⟩
  refine ⟨hsound, fun other found hfound ↦ ?_, fun other found hfound ↦ ?_⟩
  · rcases hcases other found hfound with ⟨rfl, rfl⟩ | ⟨hne, hfound⟩
    · exact hown
    · rw [hframe ⟨other, .own⟩ hne]
      exact hlawful.own other found hfound
  · rcases hcases other found hfound with ⟨rfl, rfl⟩ | ⟨hne, hfound⟩
    · exact hcollected
    · rw [hframe ⟨other, .collected⟩ hne]
      exact hlawful.collected other found hfound

/-- A process inside went on, and no lock file changed. -/
theorem Lawful.quiet {stage : Stage} (hlawful : Lawful before)
    (hprocess : before.processes pid = some process) (hinside : process.stage.isInside = true)
    (hplain : stage.isPlain = true) (hfiles : after.files = before.files)
    (hprocesses : after.processes =
      Function.update before.processes pid (some { process with stage := stage })) :
    Lawful after := by
  obtain ⟨file, hfile⟩ := (hlawful.own pid process hprocess).inside hinside
  refine hlawful.moved (hfiles ▸ hlawful.sound) hprocesses (fun _ _ ↦ by rw [hfiles]) ?_
    (collectedFits_of_isPlain hplain)
  rw [hfiles, hfile]
  exact ownFits_locked (ne_locking_of_isPlain hplain)

/-- The first step inside touches no lock file. -/
theorem enter_isPlain : (node.enter process answer).isPlain = true := by
  unfold Node.enter
  repeat' split
  all_goals rfl

theorem identify_isPlain {saved : Attempt} : (node.identify saved answer).isPlain = true := by
  unfold Node.identify
  split_ifs <;> rfl

/-- A handle that tries to lock holds the lock if it succeeds. -/
theorem openings_flock {handle : Handle} {key : Key} {file : ℕ}
    (hopening : node.files.openings handle = some ⟨key, file, .opened⟩)
    (hholds : (node.flock handle).holds handle = true) :
    (node.flock handle).files.openings handle = some ⟨key, file, .locked⟩ := by
  unfold Node.holds Node.flock Files.lock at *
  simp only [hopening] at hholds ⊢
  split at hholds
  · exact Function.update_self _ _ _
  · simp at hholds

/-- A handle locks the file that it just opened. -/
theorem Lawful.flock {handle : Handle} {key : Key} {file : ℕ} (hlawful : Lawful node)
    (hopening : node.files.openings handle = some ⟨key, file, .opened⟩) :
    Sound (node.flock handle).files := by
  refine hlawful.sound.lock fun opening hfound ↦ ?_
  rw [hopening] at hfound
  rw [← Option.some.inj hfound]

theorem handle_ne {handle : Handle} {slot : Slot} (hpid : handle.pid ≠ pid) :
    handle ≠ ⟨pid, slot⟩ := by
  rintro rfl
  exact hpid rfl

theorem own_ne_collected : (⟨pid, .own⟩ : Handle) ≠ ⟨pid, .collected⟩ := by
  simp

/-- A process works on the lock file of a key that it collects. -/
theorem Lawful.collects (stage : Stage) (hlawful : Lawful before)
    (hprocess : before.processes pid = some process) (hinside : process.stage.isInside = true)
    (hlocking : stage ≠ .locking) (hsound : Sound after.files)
    (hframe : ∀ handle, handle ≠ ⟨pid, .collected⟩ →
      after.files.openings handle = before.files.openings handle)
    (hcollected : CollectedFits stage (after.files.openings ⟨pid, .collected⟩))
    (hprocesses : after.processes =
      Function.update before.processes pid (some { process with stage := stage })) :
    Lawful after := by
  obtain ⟨file, hfile⟩ := (hlawful.own pid process hprocess).inside hinside
  refine hlawful.moved hsound hprocesses (fun handle hpid ↦ hframe handle (handle_ne hpid)) ?_
    hcollected
  rw [hframe _ own_ne_collected, hfile]
  exact ownFits_locked hlocking

/-- What a step on one key of the collection keeps. -/
theorem Lawful.remove {key : Key} {rest : List Key} {removal : Removal} (hlawful : Lawful node)
    (hprocess : node.processes pid = some process)
    (hstage : process.stage = .removing (key :: rest) removal)
    (hcareful : Careful node (.act pid answer)) :
    Lawful (node.remove pid process key rest removal) := by
  have hinside : process.stage.isInside = true := by
    rw [hstage]
    rfl
  have hfits := hlawful.collected pid process hprocess
  rw [hstage] at hfits
  cases removal with
  | opening =>
    unfold Node.remove
    dsimp only
    split
    · exact hlawful.quiet hprocess hinside (opening_isPlain rest) rfl rfl
    · next file hlinked =>
      refine hlawful.collects (.removing (key :: rest) .locking) hprocess hinside (by simp)
        hlawful.sound.find (fun handle hne ↦ openings_find_of_ne hne) ⟨file, ?_⟩ rfl
      simp only [Node.goes, Files.find, hlinked, Function.update_self]
  | locking =>
    obtain ⟨file, hopening⟩ := hfits
    refine hlawful.collects (.removing (key :: rest)
        (if (node.flock ⟨pid, .collected⟩).holds ⟨pid, .collected⟩ then .record else .closing))
      hprocess hinside (by simp) (hlawful.flock hopening)
      (fun handle hne ↦ openings_lock_of_ne hne) ?_ rfl
    split_ifs with hholds
    · exact ⟨file, openings_flock hopening hholds⟩
    · exact trivial
  | record =>
    exact hlawful.collects (.removing (key :: rest) .lock) hprocess hinside (by simp) hlawful.sound
      (fun _ _ ↦ rfl) hfits rfl
  | lock =>
    obtain ⟨file, hopening⟩ := hfits
    refine hlawful.collects (.removing (key :: rest) .closing) hprocess hinside (by simp) ?_
      (fun handle hne ↦ openings_unlink_of_ne hne) trivial rfl
    refine hlawful.sound.unlink (fun mine hmine ↦ ?_) fun mine hmine other opening hother ↦ ?_
    · rw [hopening] at hmine
      rw [← Option.some.inj hmine]
    · exact hcareful pid (by simp [removesLock, hprocess, hstage]) mine other opening hmine hother
  | closing =>
    exact hlawful.collects (.removing rest .opening) hprocess hinside (by simp) hlawful.sound.close
      (fun handle hne ↦ openings_close_of_ne hne) (collectedFits_of_isPlain (opening_isPlain rest))
      rfl

/-- What the next step of a process keeps. -/
theorem Lawful.act (hlawful : Lawful node) (hprocess : node.processes pid = some process)
    (hcareful : Careful node (.act pid answer)) : Lawful (node.act pid process answer) := by
  have hquiet : ∀ after : Node, ∀ stage : Stage, process.stage.isInside = true →
      stage.isPlain = true → after.files = node.files → after.processes =
        Function.update node.processes pid (some { process with stage := stage }) → Lawful after :=
    fun after stage hinside hplain hfiles hprocesses ↦
      hlawful.quiet hprocess hinside hplain hfiles hprocesses
  unfold Node.act
  cases hstage : process.stage with
  | opening =>
    refine hlawful.moved hlawful.sound.create rfl
      (fun handle hpid ↦ openings_create_of_ne (handle_ne hpid)) ?_ trivial
    refine ⟨fun _ ↦ openings_create, fun hinside ↦ ?_⟩
    simp [Stage.isInside] at hinside
  | locking =>
    obtain ⟨file, hopening⟩ := (hlawful.own pid process hprocess).locking hstage
    refine hlawful.moved (hlawful.flock hopening) rfl
      (fun handle hpid ↦ openings_lock_of_ne (handle_ne hpid)) ?_ ?_
    · split_ifs with hholds
      · have hlocked := openings_flock hopening hholds
        exact ⟨fun heq ↦ by simp at heq, fun _ ↦ ⟨file, hlocked⟩⟩
      · exact ownFits_outside (by simp) rfl
    · split_ifs <;> exact trivial
  | entered => exact hquiet _ _ (by rw [hstage]; rfl) enter_isPlain rfl rfl
  | unrecorded => exact hquiet _ _ (by rw [hstage]; rfl) (by split_ifs <;> rfl) rfl rfl
  | captured saved => exact hquiet _ _ (by rw [hstage]; rfl) rfl rfl rfl
  | written saved mtime => exact hquiet _ _ (by rw [hstage]; rfl) rfl rfl rfl
  | recorded saved => exact hquiet _ _ (by rw [hstage]; rfl) identify_isPlain rfl rfl
  | rewritten saved mtime => exact hquiet _ _ (by rw [hstage]; rfl) rfl rfl rfl
  | identified saved => exact hquiet _ _ (by rw [hstage]; rfl) (by split_ifs <;> rfl) rfl rfl
  | attaching saved => exact hquiet _ _ (by rw [hstage]; rfl) rfl rfl rfl
  | attached saved => exact hquiet _ _ (by rw [hstage]; rfl) rfl rfl rfl
  | checking => exact hquiet _ _ (by rw [hstage]; rfl) (by split <;> rfl) rfl rfl
  | deleting saved =>
    dsimp only
    split
    · exact hquiet _ _ (by rw [hstage]; rfl) rfl rfl rfl
    · exact hquiet _ _ (by rw [hstage]; rfl) rfl rfl rfl
  | listing deadline => exact hquiet _ _ (by rw [hstage]; rfl) rfl rfl rfl
  | collecting deadline listed attempts =>
    cases listed with
    | nil =>
      exact hquiet _ _ (by rw [hstage]; rfl) (opening_isPlain _) rfl rfl
    | cons key listed => exact hquiet _ _ (by rw [hstage]; rfl) rfl rfl rfl
  | removing keys removal =>
    cases keys with
    | nil => exact hquiet _ _ (by rw [hstage]; rfl) rfl rfl rfl
    | cons key rest => exact hlawful.remove hprocess hstage hcareful
  | leaving failure =>
    exact hlawful.moved hlawful.sound.close rfl
      (fun handle hpid ↦ openings_close_of_ne (handle_ne hpid))
      (ownFits_outside (by simp) rfl) trivial
  | ended failure => exact hlawful

/-- What a failing operation keeps. -/
theorem Lawful.fail (hlawful : Lawful node) : Lawful (node.fail pid process) := by
  unfold Node.fail
  split
  · exact hlawful.moved hlawful.sound rfl (fun _ _ ↦ rfl) (ownFits_outside (by simp) rfl) trivial
  · exact hlawful
  · exact hlawful
  · exact hlawful.moved hlawful.sound.close rfl
      (fun handle hpid ↦ openings_close_of_ne (handle_ne hpid))
      (ownFits_outside (by simp) rfl) trivial

theorem Lawful.kill (hlawful : Lawful node) : Lawful (node.kill pid process) := by
  unfold Node.kill
  split
  · exact hlawful
  · refine hlawful.moved hlawful.sound.close.close rfl (fun handle hpid ↦ ?_)
      (ownFits_outside (by simp) rfl) trivial
    exact (openings_close_of_ne (handle_ne hpid)).trans (openings_close_of_ne (handle_ne hpid))

/-- What a careful step keeps. -/
theorem Lawful.step {event : Event} (hlawful : Lawful node) (hcareful : Careful node event) :
    Lawful (step node event) := by
  cases event with
  | tick now => exact ⟨hlawful.sound, hlawful.own, hlawful.collected⟩
  | start pid request =>
    unfold PtpTools.step
    dsimp only
    split
    · exact hlawful.moved hlawful.sound rfl (fun _ _ ↦ rfl) (ownFits_outside (by simp) rfl) trivial
    · exact hlawful
  | act pid answer =>
    unfold PtpTools.step
    dsimp only
    split
    · exact hlawful
    · next process hprocess => exact hlawful.act hprocess hcareful
  | fail pid =>
    unfold PtpTools.step
    dsimp only
    split
    · exact hlawful
    · exact hlawful.fail
  | kill pid =>
    unfold PtpTools.step
    dsimp only
    split
    · exact hlawful
    · exact hlawful.kill

/-- A run with one more step. -/
theorem run_snoc (events : List Event) (event : Event) :
    run (events ++ [event]) = PtpTools.step (run events) event := by
  simp [run]

/-- What all steps of a run meet is met by the earlier ones and by the last one. -/
theorem steps_of_snoc {meets : Node → Event → Prop} {events : List Event} {event : Event}
    (hmeets : ∀ (index : ℕ) (hindex : index < (events ++ [event]).length),
      meets (run ((events ++ [event]).take index)) (events ++ [event])[index]) :
    (∀ (index : ℕ) (hindex : index < events.length),
      meets (run (events.take index)) events[index]) ∧ meets (run events) event := by
  constructor
  · intro index hindex
    have hlast := hmeets index (by simp; omega)
    rwa [List.take_append_of_le_length hindex.le, List.getElem_append_left hindex] at hlast
  · have hlast := hmeets events.length (by simp)
    rwa [List.take_left, List.getElem_concat_length rfl] at hlast

theorem CarefulRun.of_snoc {events : List Event} {event : Event}
    (hcareful : CarefulRun (events ++ [event])) :
    CarefulRun events ∧ Careful (run events) event :=
  steps_of_snoc hcareful

/-- The invariant holds after every careful run. -/
theorem run_lawful {events : List Event} (hcareful : CarefulRun events) : Lawful (run events) := by
  induction events using List.reverseRecOn with
  | nil =>
    exact ⟨.empty, fun _ process hnone ↦ absurd hnone (Option.some_ne_none process).symm,
      fun _ process hnone ↦ absurd hnone (Option.some_ne_none process).symm⟩
  | append_singleton events event ih =>
    rw [run_snoc]
    exact (ih hcareful.of_snoc.1).step hcareful.of_snoc.2

end Invariant

/-! ### The main result -/

/-- At most one process is inside `attachment_lock` for a key, in every run in which no lock file is
removed that another process opened and is about to lock. -/
theorem attachment_lock_exclusive (events : List Event) (hcareful : CarefulRun events) (key : Key)
    (first second : ℕ) (hfirst : Inside (run events) first key)
    (hsecond : Inside (run events) second key) : first = second := by
  have hlawful := run_lawful hcareful
  obtain ⟨process, hprocess, hkey, hinside⟩ := hfirst
  obtain ⟨other, hother, hsame, hotherInside⟩ := hsecond
  obtain ⟨file, hmine⟩ := (hlawful.own first process hprocess).inside hinside
  obtain ⟨otherFile, hopening⟩ := (hlawful.own second other hother).inside hotherInside
  have hhandle := hlawful.sound.exclusive hmine hopening (hkey.trans hsame.symm) rfl rfl
  exact congrArg Handle.pid hhandle

/-- A request for an attachment of a guest. -/
def sampleRequest (command : Command) (key : Key) : Request where
  command := command
  network := "pair".toList
  containerId := "guest".toList
  ifname := "eth0".toList
  podUid := some 1
  netns := "/run/netns/guest".toList
  key := key
  annotations := ⟨some "generation".toList, some "guest".toList⟩

/-- What the processes learn of a node. -/
def sampleAnswer : Answer :=
  ⟨1, (4, 7), (2, 3)⟩

/-- A process takes so many steps. -/
def acts (pid count : ℕ) : List Event :=
  List.replicate count (.act pid sampleAnswer)

/-- An ADD opens the lock file of an attachment while another one is inside. -/
def contention : List Event :=
  [.start 0 (sampleRequest .add 10), .act 0 sampleAnswer, .act 0 sampleAnswer,
    .start 1 (sampleRequest .add 10), .act 1 sampleAnswer, .act 1 sampleAnswer]

/-- The lock keeps a second ADD out. -/
theorem attachment_lock_exclusive_contention :
    Inside (run contention) 0 10 ∧ ¬ Inside (run contention) 1 10 := by
  have hinside : Inside (run contention) 0 10 := by decide +kernel
  exact ⟨hinside, fun hsecond ↦ absurd
    (attachment_lock_exclusive contention (careful_of_removesNone (by decide +kernel)) 10 0 1
      hinside hsecond) (by decide)⟩

/-- An ADD records its attempt and fails. Its next call opens the lock file just before a DEL of
another attachment collects it, and a DEL comes after that. -/
def sharing : List Event :=
  .start 0 (sampleRequest .add 10) :: acts 0 6 ++ .fail 0 :: acts 0 1 ++
    .tick 700000 :: .start 1 (sampleRequest .add 10) :: acts 1 1 ++
    .start 2 (sampleRequest .del 20) :: acts 2 13 ++ acts 1 1 ++
    .start 3 (sampleRequest .del 10) :: acts 3 2

/-- Two processes are inside `attachment_lock` for one key. -/
theorem lock_shared : ¬ ∀ events key first second, Inside (run events) first key →
    Inside (run events) second key → first = second := by
  intro hexclusive
  have hfirst : Inside (run sharing) 1 10 := by decide +kernel
  have hsecond : Inside (run sharing) 3 10 := by decide +kernel
  exact absurd (hexclusive sharing 10 1 3 hfirst hsecond) (by decide)

end Ads.PtpTools
