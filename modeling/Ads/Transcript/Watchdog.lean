import Ads.Transcript.Services

/-!
# The watchdog

`Watchdog.tick` reads which runs are overdue in one transaction and breaks them one after the other
in later ones. Between any two transactions of a tick the services may run others, so the tick acts
on what it read before. `Watched` is the state of the system with its watchdog, and one input is one
transaction. A tick that fails leaves the rest of its runs to the next one.
-/

set_option autoImplicit false
set_option relaxedAutoImplicit false

namespace Ads.Transcript

open Python

namespace Watchdog

/-- The settings of the watchdog, in seconds. -/
structure Settings where
  pingDeathSeconds : ℤ
  finishGapSeconds : ℤ

/-- `SessionRunRepository.all_in_flight`. -/
def allInFlight (database : Database) : List Run :=
  database.runs.rows.filter fun run ↦ run.status.inFlight

/-- The engine has not reported on a run for too long. -/
def isDead (settings : Settings) (now : ℤ) (run : Run) : Bool :=
  (run.status = .pending ∨ run.status = .running) ∧
    run.lastEventAt + settings.pingDeathSeconds ≤ now

/-- A run that was announced to end lacks parts for too long. -/
def isGapped (settings : Settings) (now : ℤ) (run : Run) : Bool :=
  run.status = .finishing ∧ (¬ ∃ last ∈ run.lastOrder, last ≤ run.watermark) ∧
    ∃ finishAt ∈ run.finishAt, finishAt + settings.finishGapSeconds ≤ now

/-- `_due`. -/
def due (settings : Settings) (database : Database) (now : ℤ) : List Uuid × List Uuid :=
  (((allInFlight database).filter (isDead settings now)).map Run.id,
    ((allInFlight database).filter (isGapped settings now)).map Run.id)

end Watchdog

/-- The tables, and what is left of a tick. -/
structure Watched where
  database : Database
  /-- The runs that are left of `dead`. -/
  dead : List Uuid := []
  /-- The runs that are left of `gapped`. -/
  gapped : List Uuid := []
  /-- The run of an `abort_and_break` between its two transactions. -/
  aborting : Option Uuid := none

namespace Watched

/-- One transaction. -/
inductive Input where
  /-- A service handles a request, or a report of the engine. -/
  | service (event : Event)
  /-- `_due`. -/
  | tick (now : ℤ)
  /-- The first transaction of `abort_and_break`. -/
  | check
  /-- The last transaction of `abort_and_break`. -/
  | abort (now : ℤ) (supply : ℕ → Uuid)
  /-- `break_run` of a run whose end lacks parts. -/
  | gap (now : ℤ) (supply : ℕ → Uuid)
  /-- The tick fails. -/
  | fail

/-- The operation is one of the watchdog. -/
def isBreak : Operation → Bool
  | .abortAndBreak _ => true
  | .breakRun _ _ => true
  | _ => false

variable (codec : Codec) (settings : Watchdog.Settings) (state : Watched)

/-- The first transaction of `abort_and_break` finds a run that is not finished. -/
def stands (runId : Uuid) : Bool :=
  (state.database.runs.find runId).any fun run ↦ run.status ≠ .finished

/-- The transaction of an operation on the tables. -/
def act (event : Event) : Watched :=
  { state with database := Transcript.step codec state.database event }

/-- One transaction. -/
def step : Input → Watched
  | .service event => if isBreak event.operation then state else state.act codec event
  | .tick now =>
    if state.dead = [] ∧ state.gapped = [] ∧ state.aborting = none then
      { state with
        dead := (Watchdog.due settings state.database now).1
        gapped := (Watchdog.due settings state.database now).2 }
    else state
  | .check =>
    match state.dead, state.aborting with
    | runId :: rest, none =>
      { state with dead := rest, aborting := if state.stands runId then some runId else none }
    | _, _ => state
  | .abort now supply =>
    match state.aborting with
    | some runId => { state.act codec ⟨.abortAndBreak runId, now, supply⟩ with aborting := none }
    | none => state
  | .gap now supply =>
    match state.dead, state.aborting, state.gapped with
    | [], none, runId :: rest =>
      { state.act codec ⟨.breakRun runId "gapped finish timed out".toList, now, supply⟩ with
        gapped := rest }
    | _, _, _ => state
  | .fail => { state with dead := [], gapped := [], aborting := none }

/-- One transaction after the other. -/
def run (inputs : List Input) : Watched :=
  inputs.foldl (step codec settings) state

end Watched

/-- The system before its first session. -/
def Watched.initial : Watched where
  database := .empty

end Ads.Transcript
