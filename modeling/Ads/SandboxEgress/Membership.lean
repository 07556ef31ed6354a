import Mathlib
import Ads.Foundation.Runs
import Ads.Foundation.Table
import Ads.SandboxEgress.Destinations

/-!
# The evidence of a connection

`ConnectionMembership` admits a name on a connection when the address that the connection goes to is
in the DNS evidence of that name. Evidence is cached up to a cap, and the calls that need the same
lookup share one.

What runs between two awaits is one step: a call up to the lookup that it waits for, a lookup once
its resolver answered, the callback of a finished lookup, a call that goes on, and the two ends of
`close`. The time of a step is the one that the clock shows.
-/

set_option autoImplicit false
set_option relaxedAutoImplicit false

namespace Ads.SandboxEgress

open Foundation Foundation.StateExcept Python

/-! ### Evidence -/

/-- `ServiceEndpoint`. -/
structure ServiceEndpoint where
  service : Text
  target : Text
  address : IpAddress
  port : ℤ
  authorityPort : ℤ
  deriving DecidableEq

/-- `ResolutionEvidence`. An expiry that is not finite is none. -/
structure ResolutionEvidence where
  name : Text
  directAddresses : List IpAddress
  serviceEndpoints : List ServiceEndpoint
  expiresAt : Option ℚ
  complete : Bool
  authentication : Text
  deriving DecidableEq

/-- The key of a lookup. -/
structure MembershipKey where
  name : Text
  authorityPort : ℤ
  protocol : Text
  deriving DecidableEq

/-- `ConnectionMembership.__init__`. -/
structure ConnectionMembership where
  boundary : DestinationBoundary
  cap : ℚ
  maximum : ℕ
  cap_bounds : 5 ≤ cap ∧ cap ≤ 10
  maximum_bounds : 1 ≤ maximum ∧ maximum ≤ 1024

/-- The authentications of an answer. -/
def authentications : List Text :=
  ["secure".toList, "insecure".toList, "bogus".toList, "indeterminate".toList]

/-- What `_lookup` requires of one endpoint. -/
def ConnectionMembership.checkEndpoint (membership : ConnectionMembership) (key : MembershipKey)
    (endpoint : ServiceEndpoint) : Except Raised Unit := do
  failIf (endpoint.service ≠ key.name ∨
      ¬ (1 ≤ endpoint.port ∧ endpoint.port ≤ 65535 ∧ endpoint.authorityPort = key.authorityPort))
    (.requestDenied "invalid_service_evidence")
  let _ ← dnsName endpoint.target
  let _ ← membership.boundary.requirePublic endpoint.address.text

/-- What `_lookup` requires of the answer of the resolver, with the expiry of accepted evidence. -/
def ConnectionMembership.checkEvidence (membership : ConnectionMembership) (key : MembershipKey)
    (evidence : ResolutionEvidence) : Except Raised ℚ :=
  match evidence.expiresAt with
  | none => throw (.requestDenied "incomplete_membership")
  | some expiry => do
    failIf (evidence.complete = false ∨ evidence.name ≠ key.name ∨
      evidence.authentication ∉ authentications) (.requestDenied "incomplete_membership")
    evidence.directAddresses.forM fun address ↦ do
      let _ ← membership.boundary.requirePublic address.text
    evidence.serviceEndpoints.forM (membership.checkEndpoint key)
    return expiry

/-! ### The state -/

/-- The arguments of `require`. -/
structure MembershipCall where
  name : Text
  original : IpAddress
  originalPort : ℤ
  authorityPort : ℤ
  protocol : Text
  deriving DecidableEq

/-- An item of `_cache`. -/
structure CachedEvidence where
  key : MembershipKey
  evidence : ResolutionEvidence
  expiry : ℚ

/-- An item of `_inflight`. -/
structure PendingLookup where
  key : MembershipKey
  task : ℕ

/-- How a lookup ended. -/
inductive LookupOutcome where
  | returned (evidence : ResolutionEvidence)
  | raised (raised : Raised)
  | cancelled

/-- The task of a lookup, and how it ended. -/
structure LookupTask where
  key : MembershipKey
  outcome : Option LookupOutcome

/-- A call of `require` that waits for a lookup. -/
structure WaitingCall where
  call : MembershipCall
  key : MembershipKey
  task : ℕ

/-- Gathered tasks that test equal are equal. -/
instance lawfulBEqGathered : LawfulBEq (List ℕ) :=
  inferInstance

/-- The state of a `ConnectionMembership`, with the tasks of its lookups, the calls that wait, and the
tasks that each call of `close` gathers. -/
structure MembershipState where
  now : ℚ
  cache : Table CachedEvidence.key
  inflight : Table PendingLookup.key
  closed : Bool
  tasks : ℕ → Option LookupTask
  next : ℕ
  calls : ℕ → Option WaitingCall
  closings : List (List ℕ)

/-- A new connection. -/
def MembershipState.initial : MembershipState where
  now := 0
  cache := .empty
  inflight := .empty
  closed := false
  tasks := fun _ ↦ none
  next := 0
  calls := fun _ ↦ none
  closings := []

/-- What a step brings about. -/
inductive MembershipEffect where
  | inserted (key : MembershipKey) (evidence : ResolutionEvidence) (time : ℚ)
  | served (key : MembershipKey) (evidence : ResolutionEvidence) (time : ℚ)
  | succeeded (id : ℕ) (call : MembershipCall) (key : MembershipKey)
      (evidence : ResolutionEvidence)
  | refused (id : ℕ) (raised : Raised)
  | closing
  deriving DecidableEq

/-- The keys that are cached or in flight. -/
def MembershipState.keys (state : MembershipState) : Finset MembershipKey :=
  (state.cache.rows.map CachedEvidence.key).toFinset ∪
    (state.inflight.rows.map PendingLookup.key).toFinset

/-! ### Steps -/

section Steps

variable (membership : ConnectionMembership) (state : MembershipState)

/-- The key of a call, once its scope was checked. -/
def ConnectionMembership.scope (call : MembershipCall) : Except Raised MembershipKey := do
  let name ← canonicalHost call.name
  failIf (call.protocol ∉ ["http".toList, "https".toList] ∨
      ¬ (1 ≤ call.originalPort ∧ call.originalPort ≤ 65535) ∨
        ¬ (1 ≤ call.authorityPort ∧ call.authorityPort ≤ 65535))
    (.requestDenied "invalid_membership_scope")
  let _ ← membership.boundary.requirePublic call.original.text
  return ⟨name, call.authorityPort, call.protocol⟩

/-- The address and the port of a call are in the evidence. -/
def MembershipCall.isMember (call : MembershipCall) (key : MembershipKey)
    (evidence : ResolutionEvidence) : Bool :=
  (call.originalPort = call.authorityPort && call.original ∈ evidence.directAddresses) ||
    evidence.serviceEndpoints.any fun endpoint ↦
      endpoint.service = key.name ∧ endpoint.address = call.original ∧
        endpoint.port = call.originalPort ∧ endpoint.authorityPort = call.authorityPort

/-- The end of `require`. -/
def MembershipState.conclude (id : ℕ) (call : MembershipCall) (key : MembershipKey)
    (evidence : ResolutionEvidence) : MembershipEffect :=
  if state.closed then .refused id (.requestDenied "connection_closed")
  else if call.isMember key evidence then .succeeded id call key evidence
  else .refused id (.requestDenied "destination_not_member")

/-- A call waits for a lookup. -/
def MembershipState.wait (id : ℕ) (call : MembershipCall) (key : MembershipKey) (task : ℕ) :
    MembershipState :=
  { state with calls := Function.update state.calls id (some ⟨call, key, task⟩) }

/-- A lookup begins. -/
def MembershipState.begin (key : MembershipKey) : MembershipState :=
  { state with
    inflight := state.inflight.save ⟨key, state.next⟩
    tasks := Function.update state.tasks state.next (some ⟨key, none⟩)
    next := state.next + 1 }

/-- Expired evidence is evicted. -/
def MembershipState.evict : MembershipState :=
  { state with cache := state.cache.filter fun cached ↦ state.now < cached.expiry }

/-- `require` with its key, up to the lookup that it waits for. -/
def ConnectionMembership.admit (id : ℕ) (call : MembershipCall) (key : MembershipKey) :
    MembershipState × List MembershipEffect :=
  let evicted := state.evict
  match evicted.cache.find key with
  | some cached =>
    (evicted, [.served key cached.evidence evicted.now, evicted.conclude id call key cached.evidence])
  | none =>
    match evicted.inflight.find key with
    | some pending => (evicted.wait id call key pending.task, [])
    | none =>
      if membership.maximum ≤ evicted.keys.card then
        (evicted, [.refused id (.requestDenied "connection_evidence_capacity")])
      else ((evicted.begin key).wait id call key evicted.next, [])

/-- `require` up to the lookup that it waits for. -/
def ConnectionMembership.require (id : ℕ) (call : MembershipCall) :
    MembershipState × List MembershipEffect :=
  if state.closed then (state, [.refused id (.requestDenied "connection_closed")])
  else
    match membership.scope call with
    | .error raised => (state, [.refused id raised])
    | .ok key => membership.admit state id call key

/-- A lookup ends. -/
def MembershipState.settle (task : ℕ) (key : MembershipKey) (outcome : LookupOutcome) :
    MembershipState :=
  { state with tasks := Function.update state.tasks task (some ⟨key, some outcome⟩) }

/-- Evidence is cached up to the cap. -/
def ConnectionMembership.insert (key : MembershipKey) (evidence : ResolutionEvidence) (expiry : ℚ) :
    MembershipState :=
  { state with cache := state.cache.save ⟨key, evidence, min expiry (state.now + membership.cap)⟩ }

/-- `_lookup` once its resolver answered. -/
def ConnectionMembership.lookedUp (task : ℕ) (answer : Except Raised ResolutionEvidence) :
    MembershipState × List MembershipEffect :=
  match state.tasks task with
  | some ⟨key, none⟩ =>
    match answer with
    | .error raised => (state.settle task key (.raised raised), [])
    | .ok evidence =>
      match membership.checkEvidence key evidence with
      | .error raised => (state.settle task key (.raised raised), [])
      | .ok expiry =>
        if state.closed = false ∧ state.now < expiry then
          ((membership.insert state key evidence expiry).settle task key (.returned evidence),
            [.inserted key evidence state.now])
        else (state.settle task key (.returned evidence), [])
  | _ => (state, [])

/-- A lookup is cancelled. -/
def MembershipState.abandon (task : ℕ) : MembershipState :=
  match state.tasks task with
  | some ⟨key, none⟩ => state.settle task key .cancelled
  | _ => state

/-- The callback of a finished lookup. -/
def MembershipState.finish (task : ℕ) : MembershipState :=
  match state.tasks task with
  | some ⟨key, some _⟩ =>
    { state with
      inflight := state.inflight.filter fun pending ↦ ¬ (pending.key = key ∧ pending.task = task) }
  | _ => state

/-- A call stops waiting. -/
def MembershipState.leave (id : ℕ) : MembershipState :=
  { state with calls := Function.update state.calls id none }

/-- A call goes on with the outcome of its lookup. -/
def MembershipState.resume (id : ℕ) : MembershipState × List MembershipEffect :=
  match state.calls id with
  | none => (state, [])
  | some waiting =>
    match (state.tasks waiting.task).bind LookupTask.outcome with
    | none => (state, [])
    | some (.returned evidence) =>
      (state.leave id, [state.conclude id waiting.call waiting.key evidence])
    | some (.raised raised) => (state.leave id, [.refused id raised])
    | some .cancelled => (state.leave id, [])

/-- `close` until it gathers the lookups. -/
def MembershipState.close : MembershipState :=
  { state with
    closed := true
    closings := state.closings ++ [state.inflight.rows.map PendingLookup.task] }

/-- A task ended. -/
def MembershipState.isDone (task : ℕ) : Bool :=
  ((state.tasks task).bind LookupTask.outcome).isSome

/-- `close` once the lookups ended. -/
def MembershipState.clear (gathered : List ℕ) : MembershipState :=
  if gathered ∈ state.closings ∧ gathered.all state.isDone then
    { state with
      inflight := .empty
      cache := .empty
      closings := state.closings.erase gathered }
  else state

end Steps

/-- The steps of a connection. -/
inductive MembershipInput where
  | tick (now : ℚ)
  | require (id : ℕ) (call : MembershipCall)
  | lookedUp (task : ℕ) (answer : Except Raised ResolutionEvidence)
  | abandon (task : ℕ)
  | finish (task : ℕ)
  | resume (id : ℕ)
  | cancel (id : ℕ)
  | close
  | clear (gathered : List ℕ)

/-- One step. A call that waits does not call again. -/
def ConnectionMembership.step (membership : ConnectionMembership) (state : MembershipState) :
    MembershipInput → MembershipState × List MembershipEffect
  | .tick now => ({ state with now := now }, [])
  | .require id call =>
    match state.calls id with
    | some _ => (state, [])
    | none => membership.require state id call
  | .lookedUp task answer => membership.lookedUp state task answer
  | .abandon task => (state.abandon task, [])
  | .finish task => (state.finish task, [])
  | .resume id => state.resume id
  | .cancel id => (state.leave id, [])
  | .close => (state.close, [.closing])
  | .clear gathered => (state.clear gathered, [])

/-- The state and the effects after some steps of a new connection. -/
def ConnectionMembership.run (membership : ConnectionMembership) (inputs : List MembershipInput) :
    MembershipState × List MembershipEffect :=
  Runs.runFrom membership.step .initial inputs

end Ads.SandboxEgress
