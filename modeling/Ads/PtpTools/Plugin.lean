import Mathlib.Data.List.Sort
import Mathlib.Data.Rat.Defs
import Ads.Foundation.LockFiles
import Ads.Foundation.Table
import Ads.Python.Values

/-!
# The CNI plugin of the private network

`ads-ptp` runs as one process for each ADD, CHECK or DEL of an attachment. Its state directory holds
three files for each key: the lock, the record of the first ADD attempt, and the journal of an
attachment that is active. A DEL also collects old attempt records of all keys.

Each operation on these files is a step of its own, and the stage of a process says which one is next.
What it learns elsewhere (the boot of the node, the network namespaces, the links) is the answer that
a step carries. Any operation may fail, and a process may be killed at any moment; the manager lookup,
the links and what CHECK verifies on them have no part in the state directory, and neither have the
pending files from which a record is renamed into place.
-/

set_option autoImplicit false
set_option relaxedAutoImplicit false

namespace Ads.PtpTools

open Python Foundation Foundation.LockFiles

/-! ### Requests and records -/

/-- The hexadecimal digest that names the files of an attachment. -/
abbrev Key := BitVec 256

/-- `CNI_COMMAND`. -/
inductive Command where
  | add
  | check
  | del
  deriving DecidableEq

/-- `pod_annotations`. -/
structure Annotations where
  generation : Option Text
  role : Option Text
  deriving DecidableEq

/-- `request`. -/
structure Request where
  command : Command
  network : Text
  containerId : Text
  ifname : Text
  podUid : Option Uuid
  netns : Text
  key : Key
  annotations : Annotations
  deriving DecidableEq

/-- The device and the inode of a network namespace. -/
abbrev Identity := ℕ × ℕ

/-- The record of an ADD attempt. -/
structure Attempt where
  request : Request
  bootId : Uuid
  vmIdentity : Option Identity
  deriving DecidableEq

/-- The file of an attempt, with the time at which its content was written. -/
structure AttemptFile where
  key : Key
  saved : Attempt
  mtime : ℚ
  deriving DecidableEq

/-- The journal of an active attachment. -/
structure Journal where
  request : Request
  vmIdentity : Option Identity
  indices : Option (ℕ × ℕ)
  deriving DecidableEq

/-- `ATTEMPT_EXPIRY`. -/
def attemptExpiry : ℚ :=
  7 * 86400

/-- `ATTEMPT_PRUNE_BOUND`. -/
def attemptPruneBound : ℕ :=
  4096

/-! ### Processes -/

/-- Why a process fails. -/
inductive Failure where
  /-- The lock is held. -/
  | busy
  /-- original ADD attempt changed -/
  | attemptChanged
  /-- invalid original attempt namespace -/
  | attemptNamespace
  /-- active attachment missing original attempt history -/
  | missingHistory
  /-- namespace replaced -/
  | namespaceReplaced
  /-- node boot changed during ADD attempt -/
  | bootChanged
  /-- attachment already attempted; DEL required -/
  | alreadyAttempted
  /-- cleanup identity mismatch -/
  | cleanupIdentity
  /-- cleanup Pod UID changed -/
  | cleanupPod
  /-- CHECK identity changed -/
  | checkIdentity
  /-- binding changed or ADD incomplete -/
  | checkIncomplete
  /-- The journal does not exist. -/
  | missingJournal
  /-- Another operation failed. -/
  | operation
  | killed
  deriving DecidableEq

/-- What the collection does next with a key. -/
inductive Removal where
  | opening
  | locking
  | record
  | lock
  | closing
  deriving DecidableEq

/-- What a process does next. -/
inductive Stage where
  /-- `attachment_lock` opens the lock file. -/
  | opening
  /-- `flock`. -/
  | locking
  /-- The body of `perform` begins. -/
  | entered
  /-- `capture_attempt` found no attempt. -/
  | unrecorded
  /-- The attempt is written to a pending file. -/
  | captured (saved : Attempt)
  /-- The pending file becomes the attempt record. -/
  | written (saved : Attempt) (mtime : ℚ)
  /-- The namespace of the attempt is inspected. -/
  | recorded (saved : Attempt)
  /-- The pending file becomes the attempt record again. -/
  | rewritten (saved : Attempt) (mtime : ℚ)
  /-- The manager is asked, and `add` begins. -/
  | identified (saved : Attempt)
  /-- `add` saves the journal before its first effect. -/
  | attaching (saved : Attempt)
  /-- `add` has attached the links and saves the journal again. -/
  | attached (saved : Journal)
  /-- `check`. -/
  | checking
  /-- `delete` removes the links and then the journal. -/
  | deleting (saved : Journal)
  /-- `expire_attempt_history` lists the directory. -/
  | listing (deadline : ℚ)
  /-- The times of the listed attempts are read. -/
  | collecting (deadline : ℚ) (listed : List Key) (attempts : List (ℚ × Key))
  /-- The expired attempts are removed. -/
  | removing (keys : List Key) (removal : Removal)
  /-- The lock file is closed. -/
  | leaving (failure : Option Failure)
  | ended (failure : Option Failure)

/-- A process of the plugin. -/
structure Process where
  request : Request
  stage : Stage

/-- Which of its lock files a process has open: the one of its own attachment, or the one of a key
that it collects. -/
inductive Slot where
  | own
  | collected
  deriving DecidableEq

/-- An open lock file of a process. -/
structure Handle where
  pid : ℕ
  slot : Slot
  deriving DecidableEq

/-- A node: the clock, the state directory and the processes. -/
structure Node where
  now : ℚ
  files : Files Key Handle
  attempts : Table AttemptFile.key
  journals : Key → Option Journal
  processes : ℕ → Option Process

/-- A node on which the plugin never ran. -/
def Node.initial : Node where
  now := 0
  files := .empty
  attempts := .empty
  journals := fun _ ↦ none
  processes := fun _ ↦ none

/-- What a step of a process learns outside the state directory. -/
structure Answer where
  boot : Uuid
  identity : Identity
  indices : ℕ × ℕ

/-! ### Checks -/

/-- Unannotated pods and the pods of relays are skipped. -/
def Request.isSkipped (request : Request) : Bool :=
  request.annotations.generation.isNone ∨
    request.annotations.role = some "guest-relay".toList ∨
      request.annotations.role = some "egress-relay".toList

/-- `capture_attempt` for an attempt that was recorded before. -/
def Attempt.verify (saved : Attempt) (request : Request) (boot : Uuid) : Option Failure :=
  if saved.request ≠ request ∨ saved.bootId ≠ boot then some .attemptChanged
  else if saved.vmIdentity.all fun identity ↦ 0 < identity.1 ∧ 0 < identity.2 then none
  else some .attemptNamespace

/-- Whether a DEL is for the attachment of a journal. -/
def Journal.verifyCleanup (saved : Journal) (request : Request) : Option Failure :=
  if saved.request.key ≠ request.key ∨ saved.request.network ≠ request.network ∨
      saved.request.containerId ≠ request.containerId ∨ saved.request.ifname ≠ request.ifname then
    some .cleanupIdentity
  else if request.podUid.isSome ∧ request.podUid ≠ saved.request.podUid then some .cleanupPod
  else none

/-- Whether a CHECK is for the attachment of a journal, and its ADD was completed. -/
def Journal.verifyCheck (saved : Journal) (request : Request) : Option Failure :=
  if saved.request.key ≠ request.key ∨ saved.request.podUid ≠ request.podUid ∨
      saved.request.netns ≠ request.netns then
    some .checkIdentity
  else if saved.indices.isNone then some .checkIncomplete
  else none

/-- The keys whose attempts expired, oldest first and as many as one collection removes. -/
def expiredKeys (deadline : ℚ) (attempts : List (ℚ × Key)) : List Key :=
  (((attempts.filter fun attempt ↦ attempt.1 ≤ deadline).insertionSort fun first second ↦
      first.1 < second.1 ∨ first.1 = second.1 ∧ first.2 ≤ second.2).take attemptPruneBound).map
    Prod.snd

/-! ### Steps -/

namespace Node

variable (node : Node) (pid : ℕ) (process : Process)

/-- A process goes on with another stage. -/
def goes (stage : Stage) : Node :=
  { node with processes := Function.update node.processes pid (some { process with stage := stage }) }

/-- A handle holds its lock. -/
def holds (handle : Handle) : Bool :=
  (node.files.openings handle).any fun opening ↦ opening.hold = .locked

/-- `flock` of a handle. -/
def flock (handle : Handle) : Node :=
  { node with files := node.files.lock handle }

/-- A record of an attempt is renamed into place. -/
def saveAttempt (key : Key) (saved : Attempt) (mtime : ℚ) : Node :=
  { node with attempts := node.attempts.save ⟨key, saved, mtime⟩ }

/-- A journal is renamed into place, or removed. -/
def setJournal (key : Key) (journal : Option Journal) : Node :=
  { node with journals := Function.update node.journals key journal }

/-- The body of `perform` up to the first operation on the files. -/
def enter (answer : Answer) : Stage :=
  match process.request.command with
  | .del =>
    match node.journals process.request.key with
    | none => .listing (node.now - attemptExpiry)
    | some saved =>
      match saved.verifyCleanup process.request with
      | some failure => .leaving (some failure)
      | none => .deleting saved
  | .check => if process.request.isSkipped then .leaving none else .checking
  | .add =>
    if process.request.isSkipped then .leaving none
    else
      match node.attempts.find process.request.key with
      | none => .unrecorded
      | some file =>
        match file.saved.verify process.request answer.boot with
        | some failure => .leaving (some failure)
        | none => .captured file.saved

/-- `capture_attempt` between its two saves. -/
def identify (saved : Attempt) (answer : Answer) : Stage :=
  if saved.vmIdentity.any fun identity ↦ identity ≠ answer.identity then
    .leaving (some .namespaceReplaced)
  else if answer.boot ≠ saved.bootId then .leaving (some .bootChanged)
  else .rewritten { saved with vmIdentity := some answer.identity } node.now

/-- One key of the collection. -/
def remove (key : Key) (rest : List Key) : Removal → Node
  | .opening =>
    match node.files.linked key with
    | none => node.goes pid process (.removing rest .opening)
    | some _ =>
      { node with files := node.files.find ⟨pid, .collected⟩ key }.goes pid process
        (.removing (key :: rest) .locking)
  | .locking =>
    let tried := node.flock ⟨pid, .collected⟩
    tried.goes pid process
      (.removing (key :: rest) (if tried.holds ⟨pid, .collected⟩ then .record else .closing))
  | .record =>
    { node with attempts := node.attempts.filter fun file ↦ file.key ≠ key }.goes pid process
      (.removing (key :: rest) .lock)
  | .lock =>
    { node with files := node.files.unlink ⟨pid, .collected⟩ }.goes pid process
      (.removing (key :: rest) .closing)
  | .closing =>
    { node with files := node.files.close ⟨pid, .collected⟩ }.goes pid process
      (.removing rest .opening)

/-- A process takes its next step. -/
def act (answer : Answer) : Node :=
  let request := process.request
  match process.stage with
  | .opening =>
    { node with files := node.files.create ⟨pid, .own⟩ request.key }.goes pid process .locking
  | .locking =>
    let tried := node.flock ⟨pid, .own⟩
    tried.goes pid process
      (if tried.holds ⟨pid, .own⟩ then .entered else .leaving (some .busy))
  | .entered => node.goes pid process (node.enter process answer)
  | .unrecorded =>
    node.goes pid process
      (if (node.journals request.key).isSome then .leaving (some .missingHistory)
      else .captured ⟨request, answer.boot, none⟩)
  | .captured saved => node.goes pid process (.written saved node.now)
  | .written saved mtime =>
    (node.saveAttempt request.key saved mtime).goes pid process (.recorded saved)
  | .recorded saved => node.goes pid process (node.identify saved answer)
  | .rewritten saved mtime =>
    (node.saveAttempt request.key saved mtime).goes pid process (.identified saved)
  | .identified saved =>
    node.goes pid process
      (if (node.journals request.key).isSome then .leaving (some .alreadyAttempted)
      else .attaching saved)
  | .attaching saved =>
    let journal : Journal := ⟨request, saved.vmIdentity, none⟩
    (node.setJournal request.key (some journal)).goes pid process (.attached journal)
  | .attached journal =>
    (node.setJournal request.key (some { journal with indices := some answer.indices })).goes pid
      process (.leaving none)
  | .checking =>
    node.goes pid process
      (match node.journals request.key with
      | none => .leaving (some .missingJournal)
      | some saved => .leaving (saved.verifyCheck request))
  | .deleting _ =>
    match node.journals request.key with
    | none => node.goes pid process (.leaving (some .missingJournal))
    | some _ =>
      (node.setJournal request.key none).goes pid process (.listing (node.now - attemptExpiry))
  | .listing deadline =>
    node.goes pid process (.collecting deadline (node.attempts.rows.map AttemptFile.key) [])
  | .collecting deadline (key :: listed) attempts =>
    node.goes pid process
      (.collecting deadline listed
        (match node.attempts.find key with
        | none => attempts
        | some file => attempts ++ [(file.mtime, key)]))
  | .collecting deadline [] attempts =>
    node.goes pid process (.removing (expiredKeys deadline attempts) .opening)
  | .removing (key :: rest) removal => node.remove pid process key rest removal
  | .removing [] _ => node.goes pid process (.leaving none)
  | .leaving failure =>
    { node with files := node.files.close ⟨pid, .own⟩ }.goes pid process (.ended failure)
  | .ended _ => node

/-- The next operation of a process fails. -/
def fail : Node :=
  match process.stage with
  | .opening => node.goes pid process (.ended (some .operation))
  | .leaving _ | .ended _ => node
  | _ =>
    { node with files := node.files.close ⟨pid, .collected⟩ }.goes pid process
      (.leaving (some .operation))

/-- A process is killed, which closes its files. -/
def kill : Node :=
  match process.stage with
  | .ended _ => node
  | _ =>
    { node with files := (node.files.close ⟨pid, .collected⟩).close ⟨pid, .own⟩ }.goes pid process
      (.ended (some .killed))

end Node

/-- The steps of a node. -/
inductive Event where
  /-- The clock shows another time. -/
  | tick (now : ℚ)
  /-- The container runtime calls the plugin. -/
  | start (pid : ℕ) (request : Request)
  | act (pid : ℕ) (answer : Answer)
  | fail (pid : ℕ)
  | kill (pid : ℕ)

/-- One step. -/
def step (node : Node) : Event → Node
  | .tick now => { node with now := now }
  | .start pid request =>
    match node.processes pid with
    | none => node.goes pid ⟨request, .opening⟩ .opening
    | some _ => node
  | .act pid answer =>
    match node.processes pid with
    | none => node
    | some process => node.act pid process answer
  | .fail pid =>
    match node.processes pid with
    | none => node
    | some process => node.fail pid process
  | .kill pid =>
    match node.processes pid with
    | none => node
    | some process => node.kill pid process

/-- The node after some steps from the start. -/
def run (events : List Event) : Node :=
  events.foldl step .initial

end Ads.PtpTools
