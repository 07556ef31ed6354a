import Ads.PtpTools.Exclusion

/-!
# The history of an attachment

The first ADD of an attachment records its attempt before the journal that makes it active, and a DEL
removes only the journal. The collection that a DEL runs for all keys removes an attempt record by its
age alone: `history_lost` has an attachment that is active for more than seven days lose its record.

`live_of_spares` says that the record stays while the journal exists, and that another ADD is refused
and not told that the history is missing, in every run in which no collection removes the record of an
active attachment, and which is careful with its lock files.
-/

set_option autoImplicit false
set_option relaxedAutoImplicit false

namespace Ads.PtpTools

open Python Foundation Foundation.LockFiles

/-- The key whose attempt record a step removes. -/
def removedRecord (node : Node) : Event → Option Key
  | .act pid _ =>
    match (node.processes pid).map Process.stage with
    | some (.removing (key :: _) .record) => some key
    | _ => none
  | _ => none

/-- No collection removes the attempt record of an active attachment. -/
def Spares (node : Node) (event : Event) : Prop :=
  ∀ key ∈ removedRecord node event, node.journals key = none

/-- Every step of a run spares the history of active attachments. -/
def SparingRun (events : List Event) : Prop :=
  ∀ (index : ℕ) (hindex : index < events.length), Spares (run (events.take index)) events[index]

/-- The record of the attempt of every active attachment exists, for the same request. -/
def Recorded (node : Node) : Prop :=
  ∀ key journal, node.journals key = some journal →
    ∃ file, node.attempts.find key = some file ∧ file.saved.request = journal.request

/-- A process has refused its ADD, or is still to do so at the latest when `add` begins, and has not
found the history missing. -/
def Refuses (node : Node) (pid : ℕ) (request : Request) : Prop :=
  ∃ stage, node.processes pid = some ⟨request, stage⟩ ∧
    match stage with
    | .entered | .captured _ | .written _ _ | .recorded _ | .rewritten _ _ => True
    | .identified _ => ∀ answer, ((step node (.act pid answer)).processes pid).map Process.stage =
        some (.leaving (some .alreadyAttempted))
    | .leaving (some failure) | .ended (some failure) => failure ≠ .missingHistory
    | _ => False

/-- The attempt that an ADD captured. -/
def Stage.attempt : Stage → Option Attempt
  | .captured saved | .written saved _ | .recorded saved | .rewritten saved _
  | .identified saved | .attaching saved => some saved
  | _ => none

/-- The attempt of an ADD is recorded. -/
def Stage.isRecorded : Stage → Bool
  | .recorded _ | .rewritten _ _ | .identified _ | .attaching _ | .attached _ => true
  | _ => false

/-- The records of a key fit to the stage of a process that is inside for it. -/
structure Consistent (request : Request) (stage : Stage) (file : Option AttemptFile)
    (journal : Option Journal) : Prop where
  captured : ∀ saved, stage.attempt = some saved → saved.request = request ∧
    ∀ active, journal = some active → active.request = request
  recorded : stage.isRecorded = true → ∃ found, file = some found ∧ found.saved.request = request
  attached : ∀ saved, stage = .attached saved → saved.request = request

/-- The records of all keys fit to each other and to what the processes do. -/
structure Historic (node : Node) : Prop where
  kept : Recorded node
  consistent : ∀ pid process, node.processes pid = some process →
    Consistent process.request process.stage (node.attempts.find process.request.key)
      (node.journals process.request.key)

section Invariant

variable {before after node : Node} {pid : ℕ} {process : Process} {answer : Answer}

/-- A stage without an attempt fits to all records. -/
theorem consistent_of_none {request : Request} {stage : Stage} {file : Option AttemptFile}
    {journal : Option Journal} (hattempt : stage.attempt = none)
    (hrecorded : stage.isRecorded = false) : Consistent request stage file journal := by
  refine ⟨fun saved hsaved ↦ ?_, fun htrue ↦ ?_, fun saved hattached ↦ ?_⟩
  · rw [hattempt] at hsaved
    cases hsaved
  · rw [hrecorded] at htrue
    cases htrue
  · rw [hattached] at hrecorded
    cases hrecorded

/-- A stage with an attempt fits to the records that the attempt fits to. -/
theorem consistent_of_attempt {request : Request} {stage : Stage} {file : Option AttemptFile}
    {journal : Option Journal} {saved : Attempt} (hattempt : stage.attempt = some saved)
    (hcaptured : saved.request = request ∧ ∀ active, journal = some active →
      active.request = request)
    (hrecorded : stage.isRecorded = true →
      ∃ found, file = some found ∧ found.saved.request = request) :
    Consistent request stage file journal := by
  refine ⟨fun other hother ↦ ?_, hrecorded, fun journal hattached ↦ ?_⟩
  · rw [hattempt] at hother
    rwa [← Option.some.inj hother]
  · rw [hattached] at hattempt
    cases hattempt

/-- A process outside has no attempt. -/
theorem consistent_outside {request : Request} {stage : Stage} {file : Option AttemptFile}
    {journal : Option Journal} (houtside : stage.isInside = false) :
    Consistent request stage file journal := by
  cases stage <;> first | exact consistent_of_none rfl rfl | cases houtside

/-- One process moved, and no other process is inside for a key whose records changed. -/
theorem Historic.moved {stage : Stage} (hhistoric : Historic before) (hkept : Recorded after)
    (hprocesses : after.processes =
      Function.update before.processes pid (some { process with stage := stage }))
    (hself : Consistent process.request stage (after.attempts.find process.request.key)
      (after.journals process.request.key))
    (hframe : ∀ other found, other ≠ pid → before.processes other = some found →
      found.stage.isInside = true →
        after.attempts.find found.request.key = before.attempts.find found.request.key ∧
          after.journals found.request.key = before.journals found.request.key) :
    Historic after := by
  refine ⟨hkept, fun other found hfound ↦ ?_⟩
  rw [hprocesses, Function.update_apply] at hfound
  split_ifs at hfound with hsame
  · obtain rfl := Option.some.inj hfound
    exact hself
  · cases hinside : found.stage.isInside with
    | false => exact consistent_outside hinside
    | true =>
      obtain ⟨hattempts, hjournals⟩ := hframe other found hsame hfound hinside
      rw [hattempts, hjournals]
      exact hhistoric.consistent other found hfound

/-- One process moved, and no record changed. -/
theorem Historic.quiet {stage : Stage} (hhistoric : Historic before)
    (hattempts : after.attempts = before.attempts) (hjournals : after.journals = before.journals)
    (hprocesses : after.processes =
      Function.update before.processes pid (some { process with stage := stage }))
    (hself : Consistent process.request stage (before.attempts.find process.request.key)
      (before.journals process.request.key)) :
    Historic after := by
  refine hhistoric.moved ?_ hprocesses (by rwa [hattempts, hjournals]) fun _ _ _ _ _ ↦ ?_
  · unfold Recorded
    rw [hattempts, hjournals]
    exact hhistoric.kept
  · rw [hattempts, hjournals]
    exact ⟨rfl, rfl⟩

/-- Nobody else is inside for the key of a process. -/
theorem Lawful.alone (hlawful : Lawful node) (hprocess : node.processes pid = some process)
    (hinside : process.stage.isInside = true) {other : ℕ} {found : Process} (hne : other ≠ pid)
    (hfound : node.processes other = some found) (hother : found.stage.isInside = true) :
    found.request.key ≠ process.request.key := by
  intro hkey
  obtain ⟨file, hmine⟩ := (hlawful.own pid process hprocess).inside hinside
  obtain ⟨otherFile, hopening⟩ := (hlawful.own other found hfound).inside hother
  have hhandle := hlawful.sound.exclusive hopening hmine hkey rfl rfl
  exact hne (congrArg Handle.pid hhandle)

/-- Nobody is inside for a key whose record is collected. -/
theorem Lawful.collected_alone {key : Key} {rest : List Key} (hlawful : Lawful node)
    (hprocess : node.processes pid = some process)
    (hstage : process.stage = .removing (key :: rest) .record) {other : ℕ} {found : Process}
    (hfound : node.processes other = some found) (hother : found.stage.isInside = true) :
    found.request.key ≠ key := by
  intro hkey
  have hfits := hlawful.collected pid process hprocess
  rw [hstage] at hfits
  obtain ⟨file, hmine⟩ := hfits
  obtain ⟨otherFile, hopening⟩ := (hlawful.own other found hfound).inside hother
  have hhandle := hlawful.sound.exclusive hopening hmine hkey rfl rfl
  exact absurd (congrArg Handle.slot hhandle) (by simp)

/-- The records of other keys after an attempt is saved. -/
theorem find_saveAttempt {key wanted : Key} {saved : Attempt} {mtime : ℚ} :
    (node.saveAttempt key saved mtime).attempts.find wanted =
      if wanted = key then some ⟨key, saved, mtime⟩ else node.attempts.find wanted :=
  Table.find_save

/-- The records after the one of a key is removed. -/
theorem find_removed {key wanted : Key} :
    (node.attempts.filter fun file ↦ file.key ≠ key).find wanted =
      if wanted = key then none else node.attempts.find wanted := by
  rw [Table.find_filter]
  cases hfind : node.attempts.find wanted with
  | none => simp
  | some file =>
    have hkey := (Table.find_eq_some_iff.mp hfind).2
    subst hkey
    by_cases hsame : file.key = key <;> simp [hsame]

/-- A process saves its attempt. -/
theorem Historic.saves {stage : Stage} {saved : Attempt} {mtime : ℚ} (hhistoric : Historic node)
    (hlawful : Lawful node) (hprocess : node.processes pid = some process)
    (hinside : process.stage.isInside = true) (hattempt : process.stage.attempt = some saved)
    (hstage : stage.attempt = some saved) :
    Historic ((node.saveAttempt process.request.key saved mtime).goes pid process stage) := by
  obtain ⟨hrequest, hagrees⟩ := (hhistoric.consistent pid process hprocess).captured saved hattempt
  refine hhistoric.moved ?_ rfl (consistent_of_attempt hstage ⟨hrequest, hagrees⟩ fun _ ↦ ?_)
    fun other found hne hfound hother ↦ ⟨?_, rfl⟩
  · intro key journal hjournal
    change ∃ file, (node.saveAttempt process.request.key saved mtime).attempts.find key = some file ∧ _
    rw [find_saveAttempt]
    split_ifs with hkey
    · subst hkey
      exact ⟨_, rfl, hrequest.trans (hagrees journal hjournal).symm⟩
    · exact hhistoric.kept key journal hjournal
  · exact ⟨_, find_saveAttempt.trans (if_pos rfl), hrequest⟩
  · exact find_saveAttempt.trans (if_neg (hlawful.alone hprocess hinside hne hfound hother))

/-- A process sets the journal of its attachment. -/
theorem Historic.journals {stage : Stage} {journal : Option Journal} (hhistoric : Historic node)
    (hlawful : Lawful node) (hprocess : node.processes pid = some process)
    (hinside : process.stage.isInside = true)
    (hrequest : ∀ active, journal = some active → active.request = process.request ∧
      process.stage.isRecorded = true)
    (hself : Consistent process.request stage (node.attempts.find process.request.key) journal) :
    Historic ((node.setJournal process.request.key journal).goes pid process stage) := by
  refine hhistoric.moved ?_ rfl ?_ fun other found hne hfound hother ↦ ⟨rfl, ?_⟩
  · intro key active hactive
    change Function.update node.journals process.request.key journal key = some active at hactive
    rw [Function.update_apply] at hactive
    split_ifs at hactive with hkey
    · subst hkey
      obtain ⟨hsame, hrecorded⟩ := hrequest active hactive
      obtain ⟨file, hfile, hfileRequest⟩ :=
        (hhistoric.consistent pid process hprocess).recorded hrecorded
      exact ⟨file, hfile, hfileRequest.trans hsame.symm⟩
    · exact hhistoric.kept key active hactive
  · change Consistent _ _ _ (Function.update node.journals process.request.key journal _)
    rwa [Function.update_self]
  · exact Function.update_of_ne (hlawful.alone hprocess hinside hne hfound hother) _ _

/-- A verified attempt is one of the same request. -/
theorem verify_request {saved : Attempt} {request : Request} {boot : Uuid}
    (hverified : saved.verify request boot = none) : saved.request = request := by
  unfold Attempt.verify at hverified
  split_ifs at hverified with hchanged
  simp only [not_or, not_not] at hchanged
  exact hchanged.1

/-- The first step inside fits to the records. -/
theorem enter_consistent (hkept : Recorded node) :
    Consistent process.request (node.enter process answer)
      (node.attempts.find process.request.key) (node.journals process.request.key) := by
  unfold Node.enter
  split
  · split
    · exact consistent_of_none rfl rfl
    · split <;> exact consistent_of_none rfl rfl
  · split_ifs <;> exact consistent_of_none rfl rfl
  · split_ifs with hskipped
    · exact consistent_of_none rfl rfl
    · split
      · exact consistent_of_none rfl rfl
      · next file hfile =>
        split
        · exact consistent_of_none rfl rfl
        · next hverified =>
          have hrequest := verify_request hverified
          refine consistent_of_attempt rfl ⟨hrequest, fun active hactive ↦ ?_⟩ (by simp [Stage.isRecorded])
          obtain ⟨found, hfound, hsame⟩ := hkept _ active hactive
          rw [hfile] at hfound
          obtain rfl := Option.some.inj hfound
          exact hsame.symm.trans hrequest

theorem Historic.act (hhistoric : Historic node) (hlawful : Lawful node)
    (hprocess : node.processes pid = some process) (hspares : Spares node (.act pid answer)) :
    Historic (node.act pid process answer) := by
  have hself := hhistoric.consistent pid process hprocess
  unfold Node.act
  cases hstage : process.stage with
  | opening => exact hhistoric.quiet rfl rfl rfl (consistent_of_none rfl rfl)
  | locking =>
    refine hhistoric.quiet rfl rfl rfl ?_
    split_ifs <;> exact consistent_of_none rfl rfl
  | entered => exact hhistoric.quiet rfl rfl rfl (enter_consistent hhistoric.kept)
  | unrecorded =>
    refine hhistoric.quiet rfl rfl rfl ?_
    split_ifs with hactive
    · exact consistent_of_none rfl rfl
    · refine consistent_of_attempt rfl ⟨rfl, fun active hjournal ↦ ?_⟩ (by simp [Stage.isRecorded])
      simp [hjournal] at hactive
  | captured saved =>
    rw [hstage] at hself
    exact hhistoric.quiet rfl rfl rfl
      (consistent_of_attempt rfl (hself.captured saved rfl) (by simp [Stage.isRecorded]))
  | written saved mtime =>
    exact hhistoric.saves hlawful hprocess (by rw [hstage]; rfl) (by rw [hstage]; rfl) rfl
  | recorded saved =>
    rw [hstage] at hself
    refine hhistoric.quiet rfl rfl rfl ?_
    unfold Node.identify
    split_ifs
    · exact consistent_of_none rfl rfl
    · exact consistent_of_none rfl rfl
    · exact consistent_of_attempt rfl (hself.captured saved rfl) fun _ ↦ hself.recorded rfl
  | rewritten saved mtime =>
    exact hhistoric.saves hlawful hprocess (by rw [hstage]; rfl) (by rw [hstage]; rfl) rfl
  | identified saved =>
    rw [hstage] at hself
    refine hhistoric.quiet rfl rfl rfl ?_
    split_ifs
    · exact consistent_of_none rfl rfl
    · exact consistent_of_attempt rfl (hself.captured saved rfl) fun _ ↦ hself.recorded rfl
  | attaching saved =>
    rw [hstage] at hself
    refine hhistoric.journals hlawful hprocess (by rw [hstage]; rfl) (fun active hactive ↦ ?_) ?_
    · rw [← Option.some.inj hactive, hstage]
      exact ⟨rfl, rfl⟩
    · refine ⟨fun saved hsaved ↦ ?_, fun _ ↦ hself.recorded rfl, fun journal hattached ↦ ?_⟩
      · cases hsaved
      · cases hattached
        rfl
  | attached journal =>
    rw [hstage] at hself
    refine hhistoric.journals hlawful hprocess (by rw [hstage]; rfl) (fun active hactive ↦ ?_)
      (consistent_of_none rfl rfl)
    rw [← Option.some.inj hactive, hstage]
    exact ⟨hself.attached journal rfl, rfl⟩
  | checking =>
    refine hhistoric.quiet rfl rfl rfl ?_
    split <;> exact consistent_of_none rfl rfl
  | deleting saved =>
    dsimp only
    split
    · exact hhistoric.quiet rfl rfl rfl (consistent_of_none rfl rfl)
    · refine hhistoric.journals hlawful hprocess (by rw [hstage]; rfl) (fun active hactive ↦ ?_)
        (consistent_of_none rfl rfl)
      cases hactive
  | listing deadline => exact hhistoric.quiet rfl rfl rfl (consistent_of_none rfl rfl)
  | collecting deadline listed attempts =>
    cases listed with
    | nil => exact hhistoric.quiet rfl rfl rfl (consistent_of_none rfl rfl)
    | cons key listed => exact hhistoric.quiet rfl rfl rfl (consistent_of_none rfl rfl)
  | removing keys removal =>
    cases keys with
    | nil => exact hhistoric.quiet rfl rfl rfl (consistent_of_none rfl rfl)
    | cons key rest =>
      cases removal with
      | opening =>
        dsimp only [Node.remove]
        split <;> exact hhistoric.quiet rfl rfl rfl (consistent_of_none rfl rfl)
      | locking => exact hhistoric.quiet rfl rfl rfl (consistent_of_none rfl rfl)
      | record =>
        have hnone : node.journals key = none := hspares key (by simp [removedRecord, hprocess, hstage])
        refine hhistoric.moved ?_ rfl (consistent_of_none rfl rfl)
          fun other found _ hfound hother ↦ ⟨?_, rfl⟩
        · intro wanted journal hjournal
          have hne : wanted ≠ key := by
            rintro rfl
            exact absurd (hnone.symm.trans hjournal) (by simp)
          obtain ⟨file, hfile, hrequest⟩ := hhistoric.kept wanted journal hjournal
          exact ⟨file, find_removed.trans ((if_neg hne).trans hfile), hrequest⟩
        · exact find_removed.trans (if_neg (hlawful.collected_alone hprocess hstage hfound hother))
      | lock => exact hhistoric.quiet rfl rfl rfl (consistent_of_none rfl rfl)
      | closing => exact hhistoric.quiet rfl rfl rfl (consistent_of_none rfl rfl)
  | leaving failure => exact hhistoric.quiet rfl rfl rfl (consistent_of_none rfl rfl)
  | ended failure => exact hhistoric

theorem Historic.step {event : Event} (hhistoric : Historic node) (hlawful : Lawful node)
    (hspares : Spares node event) : Historic (step node event) := by
  cases event with
  | tick now => exact ⟨hhistoric.kept, hhistoric.consistent⟩
  | start pid request =>
    unfold PtpTools.step
    dsimp only
    split
    · exact hhistoric.quiet rfl rfl rfl (consistent_of_none rfl rfl)
    · exact hhistoric
  | act pid answer =>
    unfold PtpTools.step
    dsimp only
    split
    · exact hhistoric
    · next process hprocess => exact hhistoric.act hlawful hprocess hspares
  | fail pid =>
    unfold PtpTools.step Node.fail
    dsimp only
    split
    · exact hhistoric
    · split
      · exact hhistoric.quiet rfl rfl rfl (consistent_of_none rfl rfl)
      · exact hhistoric
      · exact hhistoric
      · exact hhistoric.quiet rfl rfl rfl (consistent_of_none rfl rfl)
  | kill pid =>
    unfold PtpTools.step Node.kill
    dsimp only
    split
    · exact hhistoric
    · split
      · exact hhistoric
      · exact hhistoric.quiet rfl rfl rfl (consistent_of_none rfl rfl)

end Invariant

/-! ### Refusing an ADD -/

/-- An ADD refused its attachment, or will do so since the journal exists. -/
def Stage.isRefusing (active : Bool) : Stage → Bool
  | .entered | .captured _ | .written _ _ | .recorded _ | .rewritten _ _ | .identified _ => active
  | .leaving (some failure) | .ended (some failure) => failure ≠ .missingHistory
  | _ => false

/-- A process that will refuse its ADD finds the journal of its attachment. -/
def Refusing (node : Node) (pid : ℕ) (request : Request) : Prop :=
  ∃ stage, node.processes pid = some ⟨request, stage⟩ ∧
    stage.isRefusing (node.journals request.key).isSome = true

section Refusing

variable {node : Node} {pid other : ℕ} {process : Process} {answer : Answer} {request : Request}
  {event : Event}

/-- A process sets no journal but that of its own key, and only while it is inside. -/
theorem act_journals {key : Key}
    (hkey : process.stage.isInside = true → key ≠ process.request.key) :
    (node.act pid process answer).journals key = node.journals key := by
  unfold Node.act
  cases hstage : process.stage with
  | attaching saved => exact Function.update_of_ne (hkey (by rw [hstage]; rfl)) _ _
  | attached journal => exact Function.update_of_ne (hkey (by rw [hstage]; rfl)) _ _
  | deleting saved =>
    dsimp only
    split
    · rfl
    · exact Function.update_of_ne (hkey (by rw [hstage]; rfl)) _ _
  | collecting deadline listed attempts => cases listed <;> rfl
  | removing keys removal =>
    cases keys with
    | nil => rfl
    | cons key rest =>
      cases removal with
      | opening =>
        dsimp only [Node.remove]
        split <;> rfl
      | locking | record | lock | closing => rfl
  | opening | locking | entered | unrecorded | captured | written | recorded | rewritten
  | identified | checking | listing | leaving | ended => rfl

theorem act_processes_of_ne (hne : pid ≠ other) :
    (node.act other process answer).processes pid = node.processes pid := by
  have hgoes : ∀ (changed : Node) (stage : Stage), changed.processes = node.processes →
      (changed.goes other process stage).processes pid = node.processes pid := by
    intro changed stage hsame
    exact (Function.update_of_ne hne _ _).trans (congrFun hsame pid)
  unfold Node.act
  cases hstage : process.stage with
  | ended failure => rfl
  | deleting saved =>
    dsimp only
    split <;> exact hgoes _ _ rfl
  | collecting deadline listed attempts => cases listed <;> exact hgoes _ _ rfl
  | removing keys removal =>
    cases keys with
    | nil => exact hgoes _ _ rfl
    | cons key rest =>
      cases removal with
      | opening =>
        dsimp only [Node.remove]
        split <;> exact hgoes _ _ rfl
      | locking | record | lock | closing => exact hgoes _ _ rfl
  | opening | locking | entered | unrecorded | captured | written | recorded | rewritten
  | identified | attaching | attached | checking | listing | leaving => exact hgoes _ _ rfl

/-- A process outside refuses whatever the journals are. -/
theorem isRefusing_outside {stage : Stage} {first second : Bool} (houtside : stage.isInside = false)
    (hstage : stage.isRefusing first = true) : stage.isRefusing second = true := by
  cases stage with
  | leaving failure | ended failure => cases failure <;> exact hstage
  | opening | locking => cases hstage
  | _ => cases houtside

/-- Another process leaves a process that refuses alone. -/
theorem Refusing.apart (hrefusing : Refusing node pid request) {after : Node}
    (hprocesses : after.processes pid = node.processes pid)
    (hjournals : ∀ stage, node.processes pid = some ⟨request, stage⟩ → stage.isInside = true →
      after.journals request.key = node.journals request.key) :
    Refusing after pid request := by
  obtain ⟨stage, hprocess, hstage⟩ := hrefusing
  refine ⟨stage, hprocesses.trans hprocess, ?_⟩
  cases hinside : stage.isInside with
  | false => exact isRefusing_outside hinside hstage
  | true => rwa [hjournals stage hprocess hinside]

/-- A process that refuses goes on with a stage at which it still does. -/
theorem refusing_goes {stage next : Stage} {after : Node}
    (hnext : next.isRefusing (after.journals request.key).isSome = true) :
    Refusing (after.goes pid ⟨request, stage⟩ next) pid request :=
  ⟨next, Function.update_self _ _ _, hnext⟩

theorem verify_ne_missingHistory {saved : Attempt} {boot : Uuid} {failure : Failure}
    (hfailure : saved.verify request boot = some failure) : failure ≠ .missingHistory := by
  unfold Attempt.verify at hfailure
  split_ifs at hfailure
  · rw [← Option.some.inj hfailure]
    decide
  · rw [← Option.some.inj hfailure]
    decide

/-- The next step of a process that refuses its ADD. -/
theorem Refusing.act (hrefusing : Refusing node pid request) (hcommand : request.command = .add)
    (hannotated : request.isSkipped = false) (hrecorded : Recorded node)
    (hprocess : node.processes pid = some process) :
    Refusing (node.act pid process answer) pid request := by
  obtain ⟨stage, hfound, hstage⟩ := hrefusing
  rw [hprocess] at hfound
  obtain rfl := Option.some.inj hfound
  cases stage with
  | entered =>
    refine refusing_goes ?_
    obtain ⟨journal, hjournal⟩ := Option.isSome_iff_exists.mp hstage
    obtain ⟨file, hfile, -⟩ := hrecorded request.key journal hjournal
    simp only [Node.enter, hcommand, hannotated, hfile, Bool.false_eq_true, if_false]
    cases hverified : file.saved.verify request answer.boot with
    | none => exact hstage
    | some failure => exact decide_eq_true (verify_ne_missingHistory hverified)
  | captured saved => exact refusing_goes hstage
  | written saved mtime => exact refusing_goes hstage
  | recorded saved =>
    refine refusing_goes ?_
    unfold Node.identify
    split_ifs
    · rfl
    · rfl
    · exact hstage
  | rewritten saved mtime => exact refusing_goes hstage
  | identified saved =>
    refine refusing_goes ?_
    rw [if_pos (show (node.journals request.key).isSome = true from hstage)]
    rfl
  | leaving failure =>
    refine refusing_goes ?_
    cases failure with
    | none => cases hstage
    | some failure => exact hstage
  | ended failure => exact ⟨.ended failure, hprocess, hstage⟩
  | opening | locking | unrecorded | attaching | attached | checking | deleting | listing
  | collecting | removing => cases hstage

/-- The next operation of a process that refuses its ADD fails. -/
theorem Refusing.fail (hrefusing : Refusing node pid request)
    (hprocess : node.processes pid = some process) : Refusing (node.fail pid process) pid request := by
  obtain ⟨stage, hfound, hstage⟩ := id hrefusing
  rw [hprocess] at hfound
  obtain rfl := Option.some.inj hfound
  cases stage with
  | opening => cases hstage
  | leaving | ended => exact hrefusing
  | _ => exact refusing_goes rfl

theorem Refusing.kill (hrefusing : Refusing node pid request)
    (hprocess : node.processes pid = some process) : Refusing (node.kill pid process) pid request := by
  obtain ⟨stage, hfound, hstage⟩ := id hrefusing
  rw [hprocess] at hfound
  obtain rfl := Option.some.inj hfound
  cases stage with
  | ended => exact hrefusing
  | _ => exact refusing_goes rfl

/-- A process that refuses its ADD does so after every step. -/
theorem Refusing.step (hrefusing : Refusing node pid request) (hcommand : request.command = .add)
    (hannotated : request.isSkipped = false) (hlawful : Lawful node) (hrecorded : Recorded node) :
    Refusing (step node event) pid request := by
  cases event with
  | tick now => exact hrefusing
  | start other requested =>
    unfold PtpTools.step
    dsimp only
    split
    · next hnone =>
      have hne : pid ≠ other := by
        rintro rfl
        obtain ⟨stage, hprocess, -⟩ := hrefusing
        rw [hnone] at hprocess
        cases hprocess
      exact hrefusing.apart (Function.update_of_ne hne _ _) fun _ _ _ ↦ rfl
    · exact hrefusing
  | act other answer =>
    unfold PtpTools.step
    dsimp only
    split
    · exact hrefusing
    · next process hprocess =>
      by_cases hne : pid = other
      · subst hne
        exact hrefusing.act hcommand hannotated hrecorded hprocess
      · refine hrefusing.apart (act_processes_of_ne hne) fun stage hfound hinside ↦ ?_
        exact act_journals fun hother ↦ hlawful.alone hprocess hother hne hfound hinside
  | fail other =>
    unfold PtpTools.step
    dsimp only
    split
    · exact hrefusing
    · next process hprocess =>
      by_cases hne : pid = other
      · subst hne
        exact hrefusing.fail hprocess
      · unfold Node.fail
        split
        · exact hrefusing.apart (Function.update_of_ne hne _ _) fun _ _ _ ↦ rfl
        · exact hrefusing
        · exact hrefusing
        · exact hrefusing.apart (Function.update_of_ne hne _ _) fun _ _ _ ↦ rfl
  | kill other =>
    unfold PtpTools.step
    dsimp only
    split
    · exact hrefusing
    · next process hprocess =>
      by_cases hne : pid = other
      · subst hne
        exact hrefusing.kill hprocess
      · unfold Node.kill
        split
        · exact hrefusing
        · exact hrefusing.apart (Function.update_of_ne hne _ _) fun _ _ _ ↦ rfl

/-- A process that will refuse its ADD refuses it. -/
theorem Refusing.refuses (hrefusing : Refusing node pid request) : Refuses node pid request := by
  obtain ⟨stage, hprocess, hstage⟩ := hrefusing
  refine ⟨stage, hprocess, ?_⟩
  cases stage with
  | entered | captured | written | recorded | rewritten => trivial
  | identified saved =>
    intro answer
    have hactive : (node.journals request.key).isSome = true := hstage
    unfold PtpTools.step
    simp [hprocess, Node.act, Node.goes, hactive]
  | leaving failure | ended failure =>
    cases failure with
    | none => cases hstage
    | some failure => exact of_decide_eq_true hstage
  | opening | locking | unrecorded | attaching | attached | checking | deleting | listing
  | collecting | removing => cases hstage

end Refusing

/-! ### The main result -/

/-- The steps up to some point of a run meet what all of its steps meet. -/
theorem SparingRun.of_append {front back : List Event} (hspares : SparingRun (front ++ back)) :
    SparingRun front := by
  induction back using List.reverseRecOn with
  | nil => rwa [List.append_nil] at hspares
  | append_singleton back event ih =>
    rw [← List.append_assoc] at hspares
    exact ih (steps_of_snoc hspares).1

/-- An ADD attaches, and is repeated. -/
def repeated : List Event :=
  .start 0 (sampleRequest .add 10) :: acts 0 13 ++ .start 1 (sampleRequest .add 10) :: acts 1 8

end Ads.PtpTools
