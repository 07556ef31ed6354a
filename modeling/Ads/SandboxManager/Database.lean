import Ads.Foundation.StateExcept
import Ads.SandboxManager.Records

/-!
# The manager's database

The tables, and what the repositories read and write in them. A transaction is a function from the
tables to its result and the tables it commits; what it raises undoes it. The source locks a session
before its disk and the rows below it, so that transactions on one session take effect one after the
other. Rows are in the order in which a scan without `ORDER BY` meets them.
-/

set_option autoImplicit false
set_option relaxedAutoImplicit false

namespace Ads.SandboxManager

open Foundation Foundation.StateExcept Python

/-- The tables. -/
structure Database where
  sessions : Table SandboxSession.sessionId
  pvcs : Table SessionPVC.pvcId
  intents : Table PairIntent.key
  states : Table EgressState.stateId
  works : Table CleanupWork.workId
  transfers : Table PairTransfer.generation
  disposals : Table PairDisposal.generation

/-- The database before its first session. -/
def Database.empty : Database :=
  ⟨.empty, .empty, .empty, .empty, .empty, .empty, .empty⟩

/-- What a transaction raises: a lost claim, an error of the runtime or of a value, a failed
assertion, or a violated constraint. -/
inductive Failure where
  | claimLost (reason : String)
  | runtimeError (reason : String)
  | valueError (reason : String)
  | assertionError
  | integrityError
  deriving DecidableEq

/-- A computation that may raise. -/
abbrev Attempt (α : Type) : Type :=
  Except Failure α

/-- What is there, or else a failure. -/
def require {α : Type} (value : Option α) (failure : Failure) : Attempt α :=
  match value with
  | some value => .ok value
  | none => .error failure

@[simp] theorem require_eq_ok {α : Type} {value : Option α} {failure : Failure} {result : α} :
    require value failure = .ok result ↔ value = some result := by
  cases value with
  | none => exact ⟨(nomatch ·), (nomatch ·)⟩
  | some found => exact ⟨fun h ↦ congrArg some (Except.ok.inj h), fun h ↦ congrArg _ (Option.some.inj h)⟩

/-- Whether an attempt raised a failure. -/
def raised {α : Type} (attempt : Attempt α) (failure : Failure) : Bool :=
  match attempt with
  | .ok _ => false
  | .error found => found = failure

theorem eq_error_of_raised {α : Type} {attempt : Attempt α} {failure : Failure}
    (h : raised attempt failure = true) : attempt = .error failure := by
  match attempt, h with
  | .error found, h => exact congrArg _ (of_decide_eq_true h)

/-- Whether an attempt ended in a value that passes a test. -/
def yields {α : Type} (attempt : Attempt α) (passes : α → Bool) : Bool :=
  match attempt with
  | .ok value => passes value
  | .error _ => false

theorem exists_of_yields {α : Type} {attempt : Attempt α} {passes : α → Bool}
    (h : yields attempt passes = true) : ∃ value, attempt = .ok value ∧ passes value = true := by
  match attempt, h with
  | .ok value, h => exact ⟨value, rfl, h⟩

namespace Database

variable (db : Database)

/-! ### Updates -/

/-- The session row is flushed. -/
def putSession (row : SandboxSession) : Database :=
  { db with sessions := db.sessions.put row }

/-- The disk is flushed. -/
def putPvc (pvc : SessionPVC) : Database :=
  { db with pvcs := db.pvcs.put pvc }

/-- The disk is flushed, if there is one. -/
def putPvc? (pvc : Option SessionPVC) : Database :=
  pvc.elim db db.putPvc

/-- The ledger of a generation is flushed. -/
def putIntent (intent : PairIntent) : Database :=
  { db with intents := db.intents.put intent }

/-- The egress state is flushed. -/
def putState (state : EgressState) : Database :=
  { db with states := db.states.put state }

/-- The cleanup is flushed. -/
def putWork (work : CleanupWork) : Database :=
  { db with works := db.works.put work }

/-- The receipt of a transfer is flushed. -/
def putTransfer (transfer : PairTransfer) : Database :=
  { db with transfers := db.transfers.put transfer }

/-- The receipt of a disposal is flushed. -/
def putDisposal (disposal : PairDisposal) : Database :=
  { db with disposals := db.disposals.put disposal }

/-- The cleanup is deleted. -/
def deleteWork (workId : Uuid) : Database :=
  { db with works := db.works.filter fun work ↦ work.workId ≠ workId }

/-- The disk is deleted. -/
def deletePvc (pvcId : Uuid) : Database :=
  { db with pvcs := db.pvcs.filter fun pvc ↦ pvc.pvcId ≠ pvcId }

/-- A cleanup is added. -/
def insertWork (work : CleanupWork) : Attempt Database := do
  let works ← require (db.works.insert work) .integrityError
  return { db with works := works }

/-- A disk is added. -/
def insertPvc (pvc : SessionPVC) : Attempt Database := do
  let pvcs ← require (db.pvcs.insert pvc) .integrityError
  return { db with pvcs := pvcs }

/-- A generation is added: one that is not retired per sandbox, and one per claim. -/
def insertIntent (intent : PairIntent) : Attempt Database := do
  failIf (∃ other ∈ db.intents.rows, other.sandboxId = intent.sandboxId ∧ other.retiredAt = none)
    .integrityError
  failIf (∃ other ∈ db.intents.rows, other.sessionId = intent.sessionId ∧
    other.claimOwner = intent.claimOwner ∧ other.claimChanged = intent.claimChanged) .integrityError
  let intents ← require (db.intents.insert intent) .integrityError
  return { db with intents := intents }

/-- An egress state is added, one per sandbox. -/
def insertState (state : EgressState) : Attempt Database := do
  failIf (∃ other ∈ db.states.rows, other.sandboxId = state.sandboxId) .integrityError
  let states ← require (db.states.insert state) .integrityError
  return { db with states := states }

/-- A transfer is added, one per predecessor. -/
def insertTransfer (transfer : PairTransfer) : Attempt Database := do
  failIf (∃ other ∈ db.transfers.rows, other.predecessor = transfer.predecessor) .integrityError
  let transfers ← require (db.transfers.insert transfer) .integrityError
  return { db with transfers := transfers }

/-- A disposal is added, one per cleanup. -/
def insertDisposal (disposal : PairDisposal) : Attempt Database := do
  failIf (∃ other ∈ db.disposals.rows, other.workId = disposal.workId) .integrityError
  let disposals ← require (db.disposals.insert disposal) .integrityError
  return { db with disposals := disposals }

/-! ### Queries -/

/-- The disk of a session row. -/
def pvcOf (row : SandboxSession) : Option SessionPVC :=
  row.pvcId.bind db.pvcs.find

/-- `LifecycleRepository.locked`: the session if it still has that sandbox, and its disk. -/
def locked (sessionId sandboxId : Uuid) : Option (SandboxSession × Option SessionPVC) :=
  match db.sessions.find sessionId with
  | some row => if row.sandboxId = sandboxId then some (row, db.pvcOf row) else none
  | none => none

/-- The generation of a sandbox that is not retired. -/
def liveIntent (sandboxId : Uuid) : Option PairIntent :=
  db.intents.rows.find? fun intent ↦ intent.sandboxId = sandboxId ∧ intent.retiredAt = none

/-- The latest generation of a sandbox by its claim. -/
def latestIntent (sandboxId : Uuid) : Option PairIntent :=
  (db.intents.rows.filter fun intent ↦ intent.sandboxId = sandboxId).foldl
    (fun latest intent ↦ match latest with
      | some best => if best.claimChanged < intent.claimChanged then some intent else some best
      | none => some intent) none

end Database

end Ads.SandboxManager
