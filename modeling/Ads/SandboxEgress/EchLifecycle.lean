import Ads.SandboxEgress.IdentityMoves

/-!
# The ECH lifecycle

The model of `ECHLifecycle`: the keys that the proxy accepts encrypted client hellos with, their
rotation and their collection, and the recovery of all this from the newest publication of the
journal `ech-head/` in the identity store.

`ECHKey.from_pem`, the digest, the JSON of a publication and the native context are those of the
library. What an operation does not decide is an argument of it: the keys that the library generates
and whether a context can be built. The store may fail or the process may end in any of its calls,
as the surroundings of the store say.
-/

set_option autoImplicit false
set_option relaxedAutoImplicit false

namespace Ads.SandboxEgress.Ech

open Dns Foundation Foundation.StateExcept Foundation.Interrupted IdentityStore Python

/-! ### Keys -/

/-- `ECHKey`. -/
structure EchKey where
  configuration : Bytes
  privatePem : Bytes
  deriving DecidableEq

/-- `config_id`. -/
def EchKey.configId (key : EchKey) : Option Octet :=
  key.configuration[6]?

/-- What a publication of the journal says. -/
structure EchHead where
  generation : ℕ
  publicName : Text
  current : Text
  names : List Text
  createdAt : ℚ
  deriving DecidableEq

/-- A record of a set of service records: its priority, its target and its parameters in their
order, or a record of another type. -/
inductive ServiceRecord where
  | service (priority : ℕ) (target : List Text) (params : List (ℕ × Bytes))
  | other (content : Bytes)
  deriving DecidableEq

/-- `ParamKey.ECH`. -/
def echParam : ℕ :=
  5

/-- A parameter with another ECH configuration, if it is one. -/
def setEch (configuration : Bytes) (param : ℕ × Bytes) : ℕ × Bytes :=
  if param.1 = echParam then (echParam, configuration) else param

/-- A set of service records with their time to live. -/
structure ServiceSet where
  ttl : ℕ
  records : List ServiceRecord
  deriving DecidableEq

/-- `RRset.add`: a record that is there already is not added. -/
def addRecord (records : List ServiceRecord) (record : ServiceRecord) : List ServiceRecord :=
  if record ∈ records then records else records ++ [record]

/-- `ECHPublication`. -/
structure EchPublication where
  records : ServiceSet
  dependency : Option Text
  retainUntil : ℚ
  deriving DecidableEq

/-- The library and the encodings of the lifecycle. -/
structure EchLibrary where
  /-- The configuration that `ECHKey.from_pem` finds. -/
  fromPem : Bytes → Option Bytes
  /-- `hexdigest` of SHA-256. -/
  hexdigest : Bytes → Text
  /-- `json.dumps` of a publication. -/
  encode : EchHead → Bytes
  /-- `json.loads`: what it reads, if anything, and whether that has the shape of a publication. -/
  decode : Bytes → Option (Option EchHead)
  decode_encode : ∀ head, decode (encode head) = some (some head)

/-- `ECHLifecycle`, without its state. -/
structure EchLifecycle where
  custody : Custody
  library : EchLibrary
  publicName : Text
  handshakeWindow : ℚ
  handshakeWindow_bounds : 0 < handshakeWindow ∧ handshakeWindow ≤ 300

/-- The state of an `ECHLifecycle`, with the keys of its context. -/
structure EchState where
  context : Option (List EchKey)
  generation : ℕ
  current : Text
  names : List Text
  clock : ℚ

/-- The state that a construction starts with. -/
def EchState.fresh : EchState where
  context := none
  generation := 0
  current := []
  names := []
  clock := 0

/-- The state that `_recover` comes to. -/
def EchState.recovered (state : EchState) (head : EchHead) (context : List EchKey) : EchState :=
  { state with
    context := some context
    generation := head.generation
    names := head.names
    current := head.current }

/-- `_PREFIX`. -/
def echPrefix : Text :=
  "ech-head/".toList

/-- The prefix of the names of keys. -/
def keyPrefix : Text :=
  "ech/".toList

/-- The name of a publication. -/
def echName (generation : ℕ) : Text :=
  echPrefix ++ zeroPadded 20 generation

/-- The store and the state of the lifecycle. -/
structure EchWorld where
  store : Store
  state : EchState

/-- A program of the lifecycle. -/
abbrev EchM := Program EchWorld StoreRaised

/-- A call of the store. -/
def onStore {α : Type} (program : StoreM α) : EchM α :=
  fun world ↦ ((program world.store).1, { world with store := (program world.store).2 })

/-- A reading of the store. -/
def reading {α : Type} (computation : IdentityTables → Except StoreRaised α) : EchM α :=
  fun world ↦ (computation world.store.tables, world)

/-- The state of the lifecycle. -/
def getState : EchM EchState :=
  fun world ↦ (.ok world.state, world)

/-- The state of the lifecycle changes. -/
def setState (state : EchState) : EchM Unit :=
  fun world ↦ (.ok (), { world with state })

/-- Something is refused. -/
def refuseIf (condition : Prop) [Decidable condition] (failure : StoreRaised) : EchM Unit :=
  Program.evaluate (failIf condition failure)

namespace EchLifecycle

variable (lifecycle : EchLifecycle)

/-! ### Reading -/

/-- `ECHKey.recover`. -/
def recoverKey (tables : IdentityTables) (name : Text) : Except StoreRaised EchKey := do
  let found ← key lifecycle.custody tables name
  failIf (found.kind ≠ .ech ∨
      found.stage ≠ .published ∧ found.stage ≠ .active ∧ found.stage ≠ .retiring)
    (.stateUnavailable "ECH key is not available for serving")
  match lifecycle.library.fromPem found.privatePart with
  | none => throw (.system "TLSFailure")
  | some configuration =>
    failIf (configuration ≠ found.publicPart)
      (.stateUnavailable "ECH public/private mapping mismatch")
    return ⟨configuration, found.privatePart⟩

/-- `ECHKey.recover` of each name. -/
def recoverKeys (names : List Text) (tables : IdentityTables) : Except StoreRaised (List EchKey) :=
  names.mapM (lifecycle.recoverKey tables)

/-- `TLSContext`, which the library builds or not. -/
def install (keys : List EchKey) (works : Bool) : Except StoreRaised (List EchKey) := do
  failIf (keys = [] ∨ 64 < keys.length ∨ works = false) (.system "TLSFailure")
  return keys

/-- What `_recover` requires of a publication. -/
def isRetained (name : Text) (now : ℚ) (head : EchHead) : Bool :=
  1 ≤ head.generation ∧ head.generation ≤ 2 ^ 63 - 1 ∧ name = echName head.generation ∧
    head.publicName = lifecycle.publicName ∧ 1 ≤ head.names.length ∧ head.names.length ≤ 64 ∧
    head.names.Nodup ∧ head.current ∈ head.names ∧ 0 < head.createdAt ∧ head.createdAt ≤ now

/-- What `_recover` reads, up to the keys of the context. -/
def readHead (row : PublicationRow) (now : ℚ) (tables : IdentityTables) :
    Except StoreRaised (EchHead × List EchKey) := do
  match lifecycle.library.decode row.content with
  | none => throw (.system "JSONDecodeError")
  | some none => throw (.stateUnavailable "ECH retained publication mismatch")
  | some (some head) =>
    failIf (lifecycle.isRetained row.name now head = false)
      (.stateUnavailable "ECH retained publication mismatch")
    let keys ← lifecycle.recoverKeys head.names tables
    failIf (¬ (keys.map EchKey.configId).Nodup)
      (.stateUnavailable "ambiguous retained ECH configuration IDs")
    return (head, keys)

/-- The exceptions of `_recover` that are no `StateUnavailable` become one. -/
def renamed : StoreRaised → StoreRaised
  | .valueError _ | .system _ => .stateUnavailable "invalid retained ECH publication"
  | failure => failure

/-- The names that `collect` retires. -/
def expired (tables : IdentityTables) (current : Text) (now : ℚ) :
    List Text → Except StoreRaised (List Text)
  | [] => return []
  | name :: rest => do
    if name = current then expired tables current now rest
    else
      let horizon ← dependencyHorizon lifecycle.custody tables name
      let later ← expired tables current now rest
      return if horizon < now then name :: later else later

/-! ### Writing -/

/-- `_time`. -/
def time (now : Option ℚ) : EchM ℚ := do
  let state ← getState
  match now with
  | none => throw (.stateUnavailable "ECH publication clock moved backwards")
  | some now =>
    refuseIf (now ≤ 0 ∨ now < state.clock)
      (.stateUnavailable "ECH publication clock moved backwards")
    setState { state with clock := now }
    return now

/-- `_commit_head`. -/
def commitHead (names : List Text) (current : Text) (now : ℚ) (context : List EchKey) :
    EchM Unit := do
  let state ← getState
  let generation := state.generation + 1
  refuseIf (2 ^ 63 - 1 < generation) (.stateUnavailable "ECH journal exhausted")
  onStore (commitPublication lifecycle.custody (echName generation)
    (lifecycle.library.encode ⟨generation, lifecycle.publicName, current, names, now⟩) names
    (some (now + lifecycle.handshakeWindow)))
  setState { state with context := some context, generation, names, current }

/-- A key that is active begins to retire. -/
def retireActive (name : Text) : EchM Unit := do
  let found ← reading fun tables ↦ key lifecycle.custody tables name
  if found.stage = .active then onStore (advance lifecycle.custody name .active .retiring)
  else return ()

/-- The first key that the library generates whose identifier is free. -/
def pick (occupied : List (Option Octet)) : ℕ → (ℕ → Option Bytes) → Except StoreRaised EchKey
  | 0, _ => throw (.stateUnavailable "ECH configuration ID allocation exhausted")
  | attempts + 1, generated =>
    match generated 0 with
    | none => throw (.system "TLSFailure")
    | some pem =>
      match lifecycle.library.fromPem pem with
      | none => throw (.system "TLSFailure")
      | some configuration =>
        if EchKey.configId ⟨configuration, pem⟩ ∉ occupied then return ⟨configuration, pem⟩
        else pick occupied attempts fun index ↦ generated (index + 1)

/-- The name of a key. -/
def keyName (key : EchKey) : Text :=
  keyPrefix ++ lifecycle.library.hexdigest key.configuration

/-- `rotate`. -/
def rotate (now : Option ℚ) (generated : ℕ → Option Bytes) (works : Bool) : EchM Unit := do
  let now ← time now
  let state ← getState
  refuseIf (64 ≤ state.names.length) (.stateUnavailable "ECH live key capacity")
  let occupied ← reading (lifecycle.recoverKeys state.names)
  let key ← Program.evaluate (lifecycle.pick (occupied.map EchKey.configId) 16 generated)
  let name := lifecycle.keyName key
  onStore (prepareKey lifecycle.custody name .ech key.configuration key.privatePem)
  let kept ← reading (lifecycle.recoverKeys state.names)
  let context ← Program.evaluate (install (kept ++ [key]) works)
  onStore (advance lifecycle.custody name .prepared .published)
  lifecycle.commitHead (state.names ++ [name]) name now context
  onStore (advance lifecycle.custody name .published .active)
  if state.current ≠ [] then lifecycle.retireActive state.current else return ()

/-- `collect` of a name. -/
def collectName (now : ℚ) (name : Text) : EchM Unit := do
  lifecycle.retireActive name
  onStore (retire lifecycle.custody name (some now))

/-- `collect`. -/
def collect (now : Option ℚ) (works : Bool) : EchM Unit := do
  let now ← time now
  let state ← getState
  let retired ← reading fun tables ↦ lifecycle.expired tables state.current now state.names
  if retired = [] then return ()
  else
    let keep := state.names.filter (· ∉ retired)
    let keys ← reading (lifecycle.recoverKeys keep)
    let context ← Program.evaluate (install keys works)
    lifecycle.commitHead keep state.current now context
    retired.forM (lifecycle.collectName now)
    onStore (prunePublications lifecycle.custody echPrefix (some now))

/-- The stage of a name in `_recover`. -/
def restage (current name : Text) : EchM Unit := do
  let found ← reading fun tables ↦ key lifecycle.custody tables name
  if found.stage = .published then onStore (advance lifecycle.custody name .published .active)
  else pure ()
  if name ≠ current then lifecycle.retireActive name else pure ()

/-- `_recover`. -/
def recover (row : PublicationRow) (now : ℚ) (works : Bool) : EchM Unit := do
  let (head, keys) ← Program.withError renamed (reading (lifecycle.readHead row now))
  let context ← Program.withError renamed (Program.evaluate (install keys works))
  let state ← getState
  setState (state.recovered head context)
  head.names.forM (lifecycle.restage head.current)

/-- `__init__`. -/
def construct (now : Option ℚ) (initial : Bool) (generated : ℕ → Option Bytes) (works : Bool) :
    EchM Unit := do
  let clock ← time now
  let head ← reading fun tables ↦ publicationHead lifecycle.custody tables echPrefix
  if initial then
    let names ← reading fun tables ↦ keyNames lifecycle.custody tables .ech
    refuseIf (head ≠ none ∨ names ≠ [])
      (.stateUnavailable "ECH initialization over retained publication")
    lifecycle.rotate now generated works
  else
    match head with
    | none => throw (.stateUnavailable "required ECH publication missing")
    | some row => lifecycle.recover row clock works

/-! ### Service records -/

/-- `configuration`: that of the current key, when a context is installed. -/
def configuration (state : EchState) (tables : IdentityTables) : Except StoreRaised Bytes := do
  failIf (state.context = none) (.stateUnavailable "ECH context unavailable")
  let key ← lifecycle.recoverKey tables state.current
  return key.configuration

/-- A record of the set, and whether it changes. -/
def rewriteRecord (state : EchState) (tables : IdentityTables) :
    ServiceRecord → Except StoreRaised (ServiceRecord × Bool)
  | .other _ => throw (.valueError "service RRset required")
  | .service priority target params => do
    if priority ≠ 0 ∧ echParam ∈ params.map Prod.fst then
      let configuration ← lifecycle.configuration state tables
      return (.service priority target (params.map (setEch configuration)), true)
    else return (.service priority target params, false)

/-- `rewrite`, behind the clock. -/
def rewriteSet (state : EchState) (now : ℚ) (original : ServiceSet) (tables : IdentityTables) :
    Except StoreRaised EchPublication := do
  failIf (¬ (original.ttl ≤ 2 ^ 31 - 1 ∧ 1 ≤ original.records.length ∧
    original.records.length ≤ 128)) (.valueError "bounded service RRset required")
  let results ← original.records.mapM (lifecycle.rewriteRecord state tables)
  return {
    records := ⟨original.ttl, (results.map Prod.fst).foldl addRecord []⟩
    dependency := if results.any Prod.snd then some state.current else none
    retainUntil := now + original.ttl + lifecycle.handshakeWindow }

/-- `rewrite`. -/
def rewrite (original : ServiceSet) (now : Option ℚ) : EchM EchPublication := do
  let now ← time now
  let state ← getState
  reading (lifecycle.rewriteSet state now original)

end EchLifecycle

/-! ### Runs -/

/-- The store, the lifecycle of the process if there is one, and the clock. -/
structure EchSystem where
  store : Store
  state : Option EchState
  wall : ℚ

/-- What happens. -/
inductive EchInput where
  /-- Time passes. -/
  | tick (now : ℚ)
  /-- The process ends. -/
  | exit
  /-- A process starts and constructs its lifecycle. -/
  | construct (initial : Bool) (generated : ℕ → Option Bytes) (works : Bool)
  /-- `rotate`. -/
  | rotate (generated : ℕ → Option Bytes) (works : Bool)
  /-- `collect`. -/
  | collect (works : Bool)
  /-- `rewrite`. -/
  | rewrite (original : ServiceSet)
  /-- Another owner calls the store. -/
  | other (call : StoreCall)

/-- The names that the newest publication of the journal lists. -/
def EchLifecycle.headNames (lifecycle : EchLifecycle) (tables : IdentityTables) : List Text :=
  match journalHead tables echPrefix with
  | none => []
  | some row =>
    match lifecycle.library.decode row.content with
    | some (some head) => head.names
    | _ => []

/-- The calls of other owners: they do not publish in the journal of the lifecycle, they do not
retire its keys, and they depend on those of its newest publication alone. -/
def EchLifecycle.isForeign (lifecycle : EchLifecycle) (tables : IdentityTables) : StoreCall → Bool
  | .commitPublication name _ keyNames _ =>
    ¬ echPrefix <+: name ∧
      ∀ keyName ∈ keyNames, keyPrefix <+: keyName → keyName ∈ lifecycle.headNames tables
  | .retire name _ => ¬ keyPrefix <+: name
  | _ => true

/-- The process lives on after a failure. -/
def survives {α : Type} : Except StoreRaised α → Bool
  | .error .killed => false
  | _ => true

/-- An operation of the lifecycle of the process. -/
def EchSystem.operate (system : EchSystem) (program : EchM Unit) : EchSystem :=
  match system.state with
  | none => system
  | some state =>
    let (outcome, world) := program ⟨system.store, state⟩
    { system with
      store := world.store
      state := if survives outcome then some world.state else none }

/-- A construction: the lifecycle is there only when it returns. -/
def EchSystem.begin (system : EchSystem) (program : EchM Unit) : EchSystem :=
  let (outcome, world) := program ⟨system.store, .fresh⟩
  { system with
    store := world.store
    state := if outcome.isOk then some world.state else none }

/-- One step. -/
def EchLifecycle.step (lifecycle : EchLifecycle) (system : EchSystem) : EchInput → EchSystem
  | .tick now => { system with wall := max system.wall now }
  | .exit => { system with state := none }
  | .construct initial generated works =>
    system.begin (lifecycle.construct (some system.wall) initial generated works)
  | .rotate generated works =>
    system.operate (lifecycle.rotate (some system.wall) generated works)
  | .collect works => system.operate (lifecycle.collect (some system.wall) works)
  | .rewrite original =>
    system.operate (do let _ ← lifecycle.rewrite original (some system.wall))
  | .other call =>
    if lifecycle.isForeign system.store.tables call then
      { system with store := (performed lifecycle.custody call system.store).2 }
    else system

/-- The system after some inputs. -/
def EchLifecycle.run (lifecycle : EchLifecycle) (system : EchSystem) (inputs : List EchInput) :
    EchSystem :=
  inputs.foldl lifecycle.step system

end Ads.SandboxEgress.Ech
