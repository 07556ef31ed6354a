import Ads.ManagerKafka.Barrier

/-!
# What the barrier guarantees

A call of `wait` that ends with every answer ends after each member of its snapshot was subscribed
to the response topic of the sandbox, at a time since the request was made. A call that ends with
the warning names exactly the members that it has not heard from. This holds for every order of
steps of any number of replicas and calls, with messages lost, repeated and reordered
(`barrier_agrees`). Every round that a replica keeps belongs to a call that is still in `wait`
(`rounds_belong`).
-/

set_option autoImplicit false
set_option relaxedAutoImplicit false

namespace Ads.ManagerKafka.Barrier

open Foundation.Runs Python

/-! ### What a trace shows -/

/-- An event ends the assignment of a replica. -/
def Event.Unsettles (replica : Uuid) : Event → Prop
  | .assigned other _ | .revoked other => other = replica
  | _ => False

/-- A replica is subscribed to the response topic of a sandbox after a trace. -/
def Subscribed (replica sandboxId : Uuid) (trace : List Event) : Prop :=
  ∃ topics, sandboxId ∈ topics ∧ Since (Event.Unsettles replica) trace (.assigned replica topics)

/-- Every member but the initiator was subscribed for the request. -/
def Answered (request : BarrierRequest) (before : List Event) : Prop :=
  ∀ member ∈ request.members, member ≠ request.initiator → .ready member request ∈ before

/-- The missing members are those that were not heard, and the others were subscribed. -/
def Missed (request : BarrierRequest) (missing : List Uuid) (before : List Event) : Prop :=
  (∀ member ∈ missing, member ∈ request.members ∧ member ≠ request.initiator ∧
    .heard request.barrierId member ∉ before) ∧
  ∀ member ∈ request.members, member ∉ missing → member ≠ request.initiator →
    .ready member request ∈ before

/-- What an event relies on. -/
def Event.Justified (before : List Event) : Event → Prop
  | .prepares replica _ sandboxId => Subscribed replica sandboxId before
  | .requested request =>
    (∃ call, .prepares request.initiator call request.sandboxId ∈ before) ∧
      request.initiator ∈ request.members ∧
      ∀ other, .requested other ∈ before → other.barrierId ≠ request.barrierId
  | .ready member request =>
    .requested request ∈ before ∧ member ∈ request.members ∧ member ≠ request.initiator ∧
      Subscribed member request.sandboxId before
  | .heard barrierId member =>
    ∃ request, request.barrierId = barrierId ∧ .ready member request ∈ before
  | .agreed request => .requested request ∈ before ∧ Answered request before
  | .incomplete barrierId missing => ∀ request, request.barrierId = barrierId →
    .requested request ∈ before → Missed request missing before
  | .prepared replica call sandboxId =>
    .prepares replica call sandboxId ∈ before ∧ ∃ start last, before = start ++ [last] ∧
      ((∃ request, last = .agreed request ∧ request.sandboxId = sandboxId ∧
          request.initiator = replica) ∨
        ∃ barrierId missing, last = .incomplete barrierId missing)
  | .assigned _ _ | .revoked _ => True

/-- What was in order when it happened. -/
theorem justified_of_mem {trace : List Event} {event : Event}
    (htrace : Along Event.Justified trace) (hevent : event ∈ trace) :
    ∃ before, before ⊆ trace ∧ event.Justified before := by
  obtain ⟨before, after, rfl⟩ := List.append_of_mem hevent
  exact ⟨before, List.subset_append_left _ _, htrace before event after rfl⟩

variable {trace : List Event}

/-- A subscription lasts while the assignment does. -/
theorem Subscribed.snoc {replica sandboxId : Uuid} {event : Event}
    (hsubscribed : Subscribed replica sandboxId trace) (hevent : ¬ event.Unsettles replica) :
    Subscribed replica sandboxId (trace ++ [event]) := by
  obtain ⟨topics, hmem, hsince⟩ := hsubscribed
  exact ⟨topics, hmem, since_snoc.mpr (Or.inr ⟨hevent, hsince⟩)⟩

/-- A request that someone is ready for was made. -/
theorem requested_of_ready {member : Uuid} {request : BarrierRequest}
    (htrace : Along Event.Justified trace) (hready : .ready member request ∈ trace) :
    .requested request ∈ trace := by
  obtain ⟨before, hbefore, hrequested, -⟩ := justified_of_mem htrace hready
  exact hbefore hrequested

/-! ### The invariant -/

/-- The identifier that a call has drawn. -/
def Phase.barrier : Phase → Option Uuid
  | .topics | .subscription => none
  | .membership barrierId => some barrierId
  | .broadcast request | .answers request => some request.barrierId

/-- A replica has a call in `wait` with this identifier. -/
def Manager.Holds (manager : Manager) (barrierId : Uuid) : Prop :=
  ∃ call waiting, manager.calls call = some waiting ∧ waiting.phase.barrier = some barrierId

/-- The round of a request that was made. -/
structure Opened (trace : List Event) (replica : Uuid) (request : BarrierRequest) : Prop where
  initiator : request.initiator = replica
  requested : .requested request ∈ trace

/-- What a round has received was heard. -/
structure Heard (trace : List Event) (replica barrierId : Uuid) (round : Round) : Prop where
  barrier : round.request.barrierId = barrierId
  opened : Opened trace replica round.request
  received : ∀ member, member ∈ round.received ↔ member = replica ∨ .heard barrierId member ∈ trace

/-- Where a call in `wait` is. -/
def Phase.InOrder (trace : List Event) (manager : Manager) (replica : Uuid) (call : ℕ)
    (sandboxId : Uuid) : Phase → Prop
  | .topics | .subscription => True
  | .membership barrierId =>
    .prepares replica call sandboxId ∈ trace ∧
      ∀ request, .requested request ∈ trace → request.barrierId ≠ barrierId
  | .broadcast request | .answers request =>
    .prepares replica call sandboxId ∈ trace ∧ request.sandboxId = sandboxId ∧
      ∃ round, manager.rounds request.barrierId = some round ∧ round.request = request

/-- A participant answers a request that was made to it, once it is subscribed. -/
structure Joins (trace : List Event) (replica barrierId : Uuid) (participant : Participant) :
    Prop where
  barrier : participant.request.barrierId = barrierId
  requested : .requested participant.request ∈ trace
  member : replica ∈ participant.request.members
  other : replica ≠ participant.request.initiator
  ready : participant.phase = .broadcast → .ready replica participant.request ∈ trace

/-- The invariant of a replica. -/
structure Managed (trace : List Event) (drawn : List Uuid) (replica : Uuid) (manager : Manager) :
    Prop where
  /-- Its topics are those of its assignment. -/
  topics : ∀ sandboxId ∈ manager.topics, Subscribed replica sandboxId trace
  /-- Its calls are in order. -/
  calls : ∀ call waiting, manager.calls call = some waiting →
    waiting.phase.InOrder trace manager replica call waiting.sandboxId
  /-- Identifiers are drawn. -/
  drawn : ∀ barrierId, manager.Holds barrierId → barrierId ∈ drawn
  /-- No two calls have drawn the same identifier. -/
  apart : ∀ first second left right, manager.calls first = some left →
    manager.calls second = some right → left.phase.barrier ≠ none →
    left.phase.barrier = right.phase.barrier → first = second
  /-- Its rounds are those of requests that it made. -/
  rounds : ∀ barrierId round, manager.rounds barrierId = some round →
    Heard trace replica barrierId round
  /-- Every round belongs to a call. -/
  owned : ∀ barrierId, manager.rounds barrierId ≠ none → manager.Holds barrierId
  /-- Its participants are in order. -/
  participants : ∀ barrierId participant, manager.participants barrierId = some participant →
    Joins trace replica barrierId participant

/-- What was sent was meant. -/
def BarrierMessage.Meant (trace : List Event) : BarrierMessage → Prop
  | .request made => .requested made ∈ trace
  | .ack given => ∃ made, .ready given.member made ∈ trace ∧ given = made.answer given.member

/-- The invariant. -/
structure Sound (trace : List Event) (world : World) : Prop where
  /-- Every event is justified. -/
  along : Along Event.Justified trace
  /-- Requests have drawn identifiers. -/
  drawn : ∀ request, .requested request ∈ trace → request.barrierId ∈ world.drawn
  /-- Requests have identifiers of their own. -/
  unique : ∀ first second, .requested first ∈ trace → .requested second ∈ trace →
    first.barrierId = second.barrierId → first = second
  /-- What was sent was meant. -/
  sent : ∀ message ∈ world.sent, message.Meant trace
  /-- The replicas are in order. -/
  managers : ∀ replica, Managed trace world.drawn replica (world.managers replica)
  /-- No two replicas have drawn the same identifier. -/
  apart : ∀ first second barrierId, (world.managers first).Holds barrierId →
    (world.managers second).Holds barrierId → first = second

/-! ### Frames -/

/-- An event is nothing to a replica that it does not happen to. -/
def Event.Spares (manager : Manager) (replica : Uuid) : Event → Prop
  | .assigned other _ | .revoked other => other ≠ replica
  | .requested request => ¬ manager.Holds request.barrierId
  | .heard barrierId _ => ¬ manager.Holds barrierId
  | _ => True

variable {world : World} {manager : Manager} {replica : Uuid} {drawn : List Uuid}

theorem Opened.mono {events : List Event} {request : BarrierRequest}
    (hopened : Opened trace replica request) : Opened (trace ++ events) replica request :=
  ⟨hopened.initiator, List.mem_append_left _ hopened.requested⟩

theorem Joins.mono {events : List Event} {barrierId : Uuid} {participant : Participant}
    (hjoins : Joins trace replica barrierId participant) :
    Joins (trace ++ events) replica barrierId participant :=
  ⟨hjoins.barrier, List.mem_append_left _ hjoins.requested, hjoins.member, hjoins.other,
    fun hphase ↦ List.mem_append_left _ (hjoins.ready hphase)⟩

/-- A call stays in order when its round stays. -/
theorem InOrder.frame {next : Manager} {event : Event} {call : ℕ} {sandboxId : Uuid} {phase : Phase}
    (hphase : phase.InOrder trace manager replica call sandboxId)
    (hrounds : ∀ request, phase.barrier = some request.barrierId →
      ∀ round, manager.rounds request.barrierId = some round → round.request = request →
      ∃ other, next.rounds request.barrierId = some other ∧ other.request = request)
    (hevent : ∀ request, event = .requested request → phase.barrier ≠ some request.barrierId) :
    phase.InOrder (trace ++ [event]) next replica call sandboxId := by
  cases phase with
  | topics => trivial
  | subscription => trivial
  | membership barrierId =>
    refine ⟨List.mem_append_left _ hphase.1, fun request hrequested ↦ ?_⟩
    rcases List.mem_append.mp hrequested with hold | hnew
    · exact hphase.2 request hold
    · exact fun heq ↦ hevent request (List.mem_singleton.mp hnew).symm (congrArg some heq.symm)
  | broadcast request =>
    obtain ⟨hprepares, hsandbox, round, hround, hrequest⟩ := hphase
    exact ⟨List.mem_append_left _ hprepares, hsandbox, hrounds request rfl round hround hrequest⟩
  | answers request =>
    obtain ⟨hprepares, hsandbox, round, hround, hrequest⟩ := hphase
    exact ⟨List.mem_append_left _ hprepares, hsandbox, hrounds request rfl round hround hrequest⟩

/-- What a round has heard is not changed by another event. -/
theorem Heard.snoc {event : Event} {barrierId : Uuid} {round : Round}
    (hround : Heard trace replica barrierId round)
    (hevent : ∀ member, event ≠ .heard barrierId member) :
    Heard (trace ++ [event]) replica barrierId round := by
  refine ⟨hround.barrier, hround.opened.mono, fun member ↦ ?_⟩
  rw [hround.received, List.mem_append, List.mem_singleton]
  simp only [(hevent member).symm, or_false]

/-- A replica stays in order when an event is nothing to it. -/
theorem Managed.snoc {event : Event} (hmanaged : Managed trace drawn replica manager)
    (hevent : event.Spares manager replica) : Managed (trace ++ [event]) drawn replica manager where
  topics := fun sandboxId hmem ↦ (hmanaged.topics sandboxId hmem).snoc fun hunsettles ↦ by
    cases event <;> first | exact hevent hunsettles | exact hunsettles
  calls := fun call waiting hcall ↦ by
    refine InOrder.frame (hmanaged.calls call waiting hcall)
      (fun _ _ round hround hrequest ↦ ⟨round, hround, hrequest⟩) ?_
    rintro request rfl hbarrier
    exact hevent ⟨call, waiting, hcall, hbarrier⟩
  drawn := hmanaged.drawn
  apart := hmanaged.apart
  rounds := fun barrierId round hround ↦ by
    refine (hmanaged.rounds barrierId round hround).snoc ?_
    rintro member rfl
    exact hevent (hmanaged.owned barrierId (by simp [hround]))
  owned := hmanaged.owned
  participants := fun barrierId participant hparticipant ↦
    (hmanaged.participants barrierId participant hparticipant).mono

theorem BarrierMessage.Meant.mono {events : List Event} {message : BarrierMessage}
    (hmeant : message.Meant trace) : message.Meant (trace ++ events) := by
  cases message with
  | request made => exact List.mem_append_left _ hmeant
  | ack given =>
    obtain ⟨made, hready, hgiven⟩ := hmeant
    exact ⟨made, List.mem_append_left _ hready, hgiven⟩

/-- A replica stays in order when others draw identifiers. -/
theorem Managed.draw {more : List Uuid} (hmanaged : Managed trace drawn replica manager) :
    Managed trace (more ++ drawn) replica manager :=
  ⟨hmanaged.topics, hmanaged.calls,
    fun barrierId hholds ↦ List.mem_append_right _ (hmanaged.drawn barrierId hholds),
    hmanaged.apart, hmanaged.rounds, hmanaged.owned, hmanaged.participants⟩

/-- An event that is nothing to any replica. -/
theorem Sound.shows {event : Event} (hsound : Sound trace world)
    (hjustified : event.Justified trace)
    (hspares : ∀ other, event.Spares (world.managers other) other)
    (hrequest : ∀ request, event ≠ .requested request) : Sound (trace ++ [event]) world where
  along := hsound.along.snoc hjustified
  drawn := fun request hmem ↦ by
    rw [List.mem_append, List.mem_singleton] at hmem
    exact hsound.drawn request (hmem.resolve_right (hrequest request).symm)
  unique := fun first second hfirst hsecond ↦ by
    rw [List.mem_append, List.mem_singleton] at hfirst hsecond
    exact hsound.unique first second (hfirst.resolve_right (hrequest first).symm)
      (hsecond.resolve_right (hrequest second).symm)
  sent := fun message hmem ↦ (hsound.sent message hmem).mono
  managers := fun other ↦ (hsound.managers other).snoc (hspares other)
  apart := hsound.apart

/-- Replicas have drawn different identifiers as long as new ones are no one's. -/
theorem apart_put (hsound : Sound trace world)
    (hholds : ∀ barrierId, manager.Holds barrierId →
      (world.managers replica).Holds barrierId ∨ barrierId ∉ world.drawn)
    {first second barrierId : Uuid}
    (hfirst : ((world.put replica manager).managers first).Holds barrierId)
    (hsecond : ((world.put replica manager).managers second).Holds barrierId) : first = second := by
  have hdrawn : ∀ other, (world.managers other).Holds barrierId → barrierId ∈ world.drawn :=
    fun other hother ↦ (hsound.managers other).drawn barrierId hother
  by_cases hleft : first = replica <;> by_cases hright : second = replica
  · exact hleft.trans hright.symm
  · subst hleft
    rw [World.put_self] at hfirst
    rw [World.put_of_ne world manager hright] at hsecond
    rcases hholds barrierId hfirst with hold | hnew
    · exact hsound.apart first second barrierId hold hsecond
    · exact absurd (hdrawn second hsecond) hnew
  · subst hright
    rw [World.put_self] at hsecond
    rw [World.put_of_ne world manager hleft] at hfirst
    rcases hholds barrierId hsecond with hold | hnew
    · exact hsound.apart first second barrierId hfirst hold
    · exact absurd (hdrawn first hfirst) hnew
  · rw [World.put_of_ne world manager hleft] at hfirst
    rw [World.put_of_ne world manager hright] at hsecond
    exact hsound.apart first second barrierId hfirst hsecond

/-- A replica changes without an event, and may draw an identifier. -/
theorem Sound.draws {more : List Uuid} (hsound : Sound trace world)
    (hmanaged : Managed trace (more ++ world.drawn) replica manager)
    (hholds : ∀ barrierId, manager.Holds barrierId →
      (world.managers replica).Holds barrierId ∨ barrierId ∉ world.drawn) :
    Sound trace { world.put replica manager with drawn := more ++ world.drawn } where
  along := hsound.along
  drawn := fun request hmem ↦ List.mem_append_right _ (hsound.drawn request hmem)
  unique := hsound.unique
  sent := hsound.sent
  managers := fun other ↦ by
    by_cases heq : other = replica
    · subst heq
      exact (World.put_self world other manager).symm ▸ hmanaged
    · exact (World.put_of_ne world manager heq).symm ▸ (hsound.managers other).draw
  apart := fun _ _ _ hfirst hsecond ↦ apart_put hsound hholds hfirst hsecond

/-- A replica changes without an event. -/
theorem Sound.puts (hsound : Sound trace world)
    (hmanaged : Managed trace world.drawn replica manager)
    (hholds : ∀ barrierId, manager.Holds barrierId → (world.managers replica).Holds barrierId) :
    Sound trace (world.put replica manager) :=
  @Sound.draws _ _ _ _ [] hsound hmanaged fun barrierId hmem ↦ Or.inl (hholds barrierId hmem)

/-- A replica changes with an event that is nothing to the others. -/
theorem Sound.acts {event : Event} (hsound : Sound trace world) (hjustified : event.Justified trace)
    (hspares : ∀ other, other ≠ replica → event.Spares (world.managers other) other)
    (hrequest : ∀ request, event = .requested request → request.barrierId ∈ world.drawn)
    (hmanaged : Managed (trace ++ [event]) world.drawn replica manager)
    (hholds : ∀ barrierId, manager.Holds barrierId → (world.managers replica).Holds barrierId) :
    Sound (trace ++ [event]) (world.put replica manager) where
  along := hsound.along.snoc hjustified
  drawn := fun request hmem ↦ by
    rcases List.mem_append.mp hmem with hold | hnew
    · exact hsound.drawn request hold
    · exact hrequest request (List.mem_singleton.mp hnew).symm
  unique := fun first second hfirst hsecond heq ↦ by
    rw [List.mem_append, List.mem_singleton] at hfirst hsecond
    rcases hfirst with hfirst | rfl <;> rcases hsecond with hsecond | hsecond
    · exact hsound.unique first second hfirst hsecond heq
    · subst hsecond
      exact absurd heq (hjustified.2.2 first hfirst)
    · exact absurd heq.symm (hjustified.2.2 second hsecond)
    · exact (Event.requested.inj hsecond).symm
  sent := fun message hmem ↦ (hsound.sent message hmem).mono
  managers := fun other ↦ by
    by_cases heq : other = replica
    · subst heq
      rw [World.put_self]
      exact hmanaged
    · rw [World.put_of_ne world manager heq]
      exact (hsound.managers other).snoc (hspares other heq)
  apart := fun _ _ _ hfirst hsecond ↦
    apart_put hsound (fun barrierId hmem ↦ Or.inl (hholds barrierId hmem)) hfirst hsecond

/-- A message is sent that was meant. -/
theorem Sound.sends {message : BarrierMessage} (hsound : Sound trace world)
    (hmeant : message.Meant trace) : Sound trace (world.send message) where
  along := hsound.along
  drawn := hsound.drawn
  unique := hsound.unique
  sent := fun other hmem ↦ by
    rcases List.mem_append.mp hmem with hold | hnew
    · exact hsound.sent other hold
    · rw [List.mem_singleton.mp hnew]
      exact hmeant
  managers := hsound.managers
  apart := hsound.apart

/-! ### The calls of a replica -/

variable {call : ℕ} {waiting : Call} {sandboxId barrierId : Uuid}

/-- A call that keeps its place is in order after a change elsewhere. -/
theorem InOrder.elsewhere {next : Manager} {phase : Phase}
    (hphase : phase.InOrder trace manager replica call sandboxId)
    (hrounds : ∀ other, phase.barrier = some other → next.rounds other = manager.rounds other) :
    phase.InOrder trace next replica call sandboxId := by
  cases phase with
  | topics => trivial
  | subscription => trivial
  | membership barrierId => exact hphase
  | broadcast request =>
    obtain ⟨hprepares, hsandbox, hround⟩ := hphase
    exact ⟨hprepares, hsandbox, by rwa [hrounds request.barrierId rfl]⟩
  | answers request =>
    obtain ⟨hprepares, hsandbox, hround⟩ := hphase
    exact ⟨hprepares, hsandbox, by rwa [hrounds request.barrierId rfl]⟩

/-- A call outside of `wait` changes. -/
theorem Managed.recalls {value : Option Call} (hmanaged : Managed trace drawn replica manager)
    (hold : ∀ waiting, manager.calls call = some waiting → waiting.phase.barrier = none)
    (hnew : ∀ waiting, value = some waiting → waiting.phase.barrier = none) :
    Managed trace drawn replica
      { manager with calls := Function.update manager.calls call value } := by
  have hkept : ∀ other left, Function.update manager.calls call value other = some left →
      left.phase.barrier ≠ none → manager.calls other = some left := by
    intro other left hother hbarrier
    by_cases heq : other = call
    · subst heq
      rw [Function.update_self] at hother
      exact absurd (hnew left hother) hbarrier
    · rwa [Function.update_of_ne heq] at hother
  refine ⟨hmanaged.topics, fun other left hother ↦ ?_, fun other hholds ↦ ?_,
    fun first second left right hleft hright hbarrier hsame ↦ ?_, hmanaged.rounds,
    fun other hround ↦ ?_, hmanaged.participants⟩
  · by_cases hbarrier : left.phase.barrier = none
    · cases hphase : left.phase <;> rw [hphase] at hbarrier <;> trivial
    · exact InOrder.elsewhere (hmanaged.calls other left (hkept other left hother hbarrier))
        fun _ _ ↦ rfl
  · obtain ⟨earlier, left, hearlier, hleft⟩ := hholds
    exact hmanaged.drawn other ⟨earlier, left, hkept earlier left hearlier (by simp [hleft]), hleft⟩
  · exact hmanaged.apart first second left right (hkept first left hleft hbarrier)
      (hkept second right hright (hsame ▸ hbarrier)) hbarrier hsame
  · obtain ⟨holder, left, hholder, hleft⟩ := hmanaged.owned other hround
    have hne : holder ≠ call := fun heq ↦ by
      rw [hold left (heq ▸ hholder)] at hleft
      cases hleft
    exact ⟨holder, left, (Function.update_of_ne hne ..).trans hholder, hleft⟩

/-- A call in `wait` changes, with its round. -/
theorem Managed.turns {next : Manager} (hmanaged : Managed trace drawn replica manager)
    (call : ℕ) (barrierId : Uuid) (htopics : next.topics = manager.topics)
    (hparticipants : next.participants = manager.participants)
    (hcalls : ∀ other, other ≠ call → next.calls other = manager.calls other)
    (hrounds : ∀ other, other ≠ barrierId → next.rounds other = manager.rounds other)
    (halone : ∀ other left, other ≠ call → manager.calls other = some left →
      left.phase.barrier ≠ some barrierId)
    (hold : ∀ waiting, manager.calls call = some waiting →
      ∀ other, waiting.phase.barrier = some other → other = barrierId)
    (hnew : ∀ waiting, next.calls call = some waiting →
      waiting.phase.InOrder trace next replica call waiting.sandboxId ∧
        waiting.phase.barrier = some barrierId ∧ barrierId ∈ drawn)
    (hround : ∀ round, next.rounds barrierId = some round →
      Heard trace replica barrierId round ∧ next.calls call ≠ none) :
    Managed trace drawn replica next := by
  have hplace : ∀ other left, next.calls other = some left →
      other = call ∧ left.phase.barrier = some barrierId ∨
        other ≠ call ∧ manager.calls other = some left ∧ left.phase.barrier ≠ some barrierId := by
    intro other left hother
    by_cases heq : other = call
    · exact Or.inl ⟨heq, (hnew left (heq ▸ hother)).2.1⟩
    · have hother' := (hcalls other heq).symm.trans hother
      exact Or.inr ⟨heq, hother', halone other left heq hother'⟩
  refine ⟨by rw [htopics]; exact hmanaged.topics, fun other left hother ↦ ?_,
    fun other hholds ↦ ?_, fun first second left right hleft hright hbarrier hsame ↦ ?_,
    fun other round hother ↦ ?_, fun other hother ↦ ?_,
    by rw [hparticipants]; exact hmanaged.participants⟩
  · rcases hplace other left hother with ⟨rfl, -⟩ | ⟨-, hother', hne⟩
    · exact (hnew left hother).1
    · exact InOrder.elsewhere (hmanaged.calls other left hother') fun id hid ↦
        hrounds id fun heq ↦ hne (heq ▸ hid)
  · obtain ⟨holder, left, hholder, hleft⟩ := hholds
    rcases hplace holder left hholder with ⟨rfl, hbarrier⟩ | ⟨-, hholder', -⟩
    · exact Option.some.inj (hleft.symm.trans hbarrier) ▸ (hnew left hholder).2.2
    · exact hmanaged.drawn other ⟨holder, left, hholder', hleft⟩
  · rcases hplace first left hleft with ⟨rfl, hfirst⟩ | ⟨-, hleft', hfirst⟩ <;>
      rcases hplace second right hright with ⟨rfl, hsecond⟩ | ⟨-, hright', hsecond⟩
    · rfl
    · exact absurd (hsame ▸ hfirst) hsecond
    · exact absurd (hsame.trans hsecond) hfirst
    · exact hmanaged.apart first second left right hleft' hright' hbarrier hsame
  · by_cases heq : other = barrierId
    · subst heq
      exact (hround round hother).1
    · exact hmanaged.rounds other round ((hrounds other heq).symm.trans hother)
  · by_cases heq : other = barrierId
    · subst heq
      obtain ⟨round, hsome⟩ := Option.ne_none_iff_exists'.mp hother
      obtain ⟨waiting, hcall⟩ := Option.ne_none_iff_exists'.mp (hround round hsome).2
      exact ⟨call, waiting, hcall, (hnew waiting hcall).2.1⟩
    · obtain ⟨holder, left, hholder, hleft⟩ := hmanaged.owned other (hrounds other heq ▸ hother)
      have hne : holder ≠ call := fun hsame ↦ heq (hold left (hsame ▸ hholder) other hleft)
      exact ⟨holder, left, (hcalls holder hne).trans hholder, hleft⟩

/-- No other call holds the identifier of a call. -/
theorem Managed.alone (hmanaged : Managed trace drawn replica manager)
    (hcall : manager.calls call = some waiting) (hbarrier : waiting.phase.barrier = some barrierId)
    (other : ℕ) (left : Call) (hne : other ≠ call) (hother : manager.calls other = some left) :
    left.phase.barrier ≠ some barrierId := fun hsame ↦
  hne (hmanaged.apart other call left waiting hother hcall (by simp [hsame])
    (hsame.trans hbarrier.symm))

/-- The `finally` of a call in `wait`. -/
theorem Managed.leaves (hmanaged : Managed trace drawn replica manager)
    (hcall : manager.calls call = some waiting)
    (hbarrier : waiting.phase.barrier = some barrierId) :
    Managed trace drawn replica (manager.leaves call barrierId) := by
  refine hmanaged.turns call barrierId rfl rfl (fun other hne ↦ Function.update_of_ne hne ..)
    (fun other hne ↦ Function.update_of_ne hne ..) (hmanaged.alone hcall hbarrier) ?_ ?_ ?_
  · intro left hleft other hother
    obtain rfl := Option.some.inj (hcall.symm.trans hleft)
    exact Option.some.inj (hother.symm.trans hbarrier)
  · intro left hleft
    simp [Manager.leaves] at hleft
  · intro round hround
    simp [Manager.leaves] at hround

/-- A call that has left holds nothing. -/
theorem holds_leaves {other : Uuid} (hholds : (manager.leaves call barrierId).Holds other) :
    manager.Holds other := by
  obtain ⟨holder, left, hholder, hleft⟩ := hholds
  by_cases heq : holder = call
  · subst heq
    simp [Manager.leaves] at hholder
  · exact ⟨holder, left, (Function.update_of_ne heq ..).symm.trans hholder, hleft⟩

/-- A call goes on with what it holds. -/
theorem holds_goes {phase : Phase} {rounds : Uuid → Option Round} {other : Uuid}
    (hcall : manager.calls call = some waiting) (hphase : phase.barrier = waiting.phase.barrier)
    (hholds : Manager.Holds { manager.goes call sandboxId phase with rounds } other) :
    manager.Holds other := by
  obtain ⟨holder, left, hholder, hleft⟩ := hholds
  by_cases heq : holder = call
  · subst heq
    obtain rfl : ⟨sandboxId, phase⟩ = left := by simpa [Manager.goes] using hholder
    exact ⟨holder, waiting, hcall, hphase ▸ hleft⟩
  · exact ⟨holder, left, (Function.update_of_ne heq ..).symm.trans hholder, hleft⟩

/-! ### The steps of a call -/

/-- Who was heard for a request was ready for it. -/
theorem Sound.ready_of_heard {request : BarrierRequest} {member : Uuid} (hsound : Sound trace world)
    (hrequested : .requested request ∈ trace)
    (hheard : .heard request.barrierId member ∈ trace) : .ready member request ∈ trace := by
  obtain ⟨before, hbefore, other, hbarrier, hready⟩ := justified_of_mem hsound.along hheard
  have hother := requested_of_ready hsound.along (hbefore hready)
  exact hsound.unique other request hother hrequested hbarrier ▸ hbefore hready

/-- A round tells who is missing. -/
theorem Sound.missed {request : BarrierRequest} {round : Round} (hsound : Sound trace world)
    (hround : (world.managers replica).rounds request.barrierId = some round)
    (hrequest : round.request = request) :
    Missed request ((world.managers replica).missing request) trace := by
  have hheard := (hsound.managers replica).rounds _ _ hround
  have hinitiator : request.initiator = replica := hrequest ▸ hheard.opened.initiator
  have hmem : ∀ member, member ∈ (world.managers replica).missing request ↔
      member ∈ request.members ∧ member ∉ round.received := by
    intro member
    simp [Manager.missing, hround]
  refine ⟨fun member hmissing ↦ ?_, fun member hmember hfound hother ↦ ?_⟩
  · obtain ⟨hmember, hlost⟩ := (hmem member).mp hmissing
    rw [hheard.received, not_or] at hlost
    exact ⟨hmember, hinitiator ▸ hlost.1, hlost.2⟩
  · have hreceived : member ∈ round.received := by
      by_contra hlost
      exact hfound ((hmem member).mpr ⟨hmember, hlost⟩)
    rcases (hheard.received member).mp hreceived with rfl | hevent
    · exact absurd hinitiator.symm hother
    · exact hsound.ready_of_heard (hrequest ▸ hheard.opened.requested) hevent

/-- A call of `wait` that ends with its warning. -/
theorem Sound.gives {missing : List Uuid} (hsound : Sound trace world)
    (hcall : (world.managers replica).calls call = some waiting)
    (hbarrier : waiting.phase.barrier = some barrierId)
    (hprepares : .prepares replica call waiting.sandboxId ∈ trace)
    (hmissed : ∀ request, request.barrierId = barrierId → .requested request ∈ trace →
      Missed request missing trace) :
    Sound (trace ++ [.incomplete barrierId missing, .prepared replica call waiting.sandboxId])
      (world.put replica ((world.managers replica).leaves call barrierId)) := by
  have hfirst : Sound (trace ++ [.incomplete barrierId missing]) world :=
    hsound.shows hmissed (fun _ ↦ trivial) (fun _ ↦ nofun)
  have hprepared : Event.Justified (trace ++ [.incomplete barrierId missing])
      (.prepared replica call waiting.sandboxId) :=
    ⟨List.mem_append_left _ hprepares, trace, _, rfl, Or.inr ⟨barrierId, missing, rfl⟩⟩
  have hsecond := hfirst.shows hprepared (fun _ ↦ trivial) (fun _ ↦ nofun)
  rw [List.append_assoc] at hsecond
  exact hsecond.puts ((hsecond.managers replica).leaves hcall hbarrier) fun _ ↦ holds_leaves

/-- A call of `wait` looks at its answers. -/
theorem Sound.awaits {request : BarrierRequest} (hsound : Sound trace world)
    (hcall : (world.managers replica).calls call = some waiting)
    (hphase : waiting.phase = .broadcast request ∨ waiting.phase = .answers request) :
    Sound (trace ++ ((world.managers replica).awaits replica call waiting.sandboxId request).2)
      (world.put replica
        ((world.managers replica).awaits replica call waiting.sandboxId request).1) := by
  have hbarrier : waiting.phase.barrier = some request.barrierId := by
    rcases hphase with heq | heq <;> rw [heq] <;> rfl
  obtain ⟨hprepares, hsandbox, round, hround, hrequest⟩ :
      .prepares replica call waiting.sandboxId ∈ trace ∧ request.sandboxId = waiting.sandboxId ∧
        ∃ round, (world.managers replica).rounds request.barrierId = some round ∧
          round.request = request := by
    have horder := (hsound.managers replica).calls call waiting hcall
    rcases hphase with heq | heq <;> rw [heq] at horder <;> exact horder
  have hheard := (hsound.managers replica).rounds _ _ hround
  have hrequested : .requested request ∈ trace := hrequest ▸ hheard.opened.requested
  have hinitiator : request.initiator = replica := hrequest ▸ hheard.opened.initiator
  unfold Manager.awaits
  rw [hround]
  dsimp only
  split_ifs with hall
  · have hanswered : Answered request trace := by
      intro member hmember hother
      have hreceived : member ∈ round.received := by
        simpa using List.all_eq_true.mp hall member hmember
      rcases (hheard.received member).mp hreceived with rfl | hevent
      · exact absurd hinitiator.symm hother
      · exact hsound.ready_of_heard hrequested hevent
    have hfirst : Sound (trace ++ [.agreed request]) world :=
      hsound.shows ⟨hrequested, hanswered⟩ (fun _ ↦ trivial) (fun _ ↦ nofun)
    have hprepared : Event.Justified (trace ++ [.agreed request])
        (.prepared replica call waiting.sandboxId) :=
      ⟨List.mem_append_left _ hprepares, trace, _, rfl,
        Or.inl ⟨request, rfl, hsandbox, hinitiator⟩⟩
    have hsecond := hfirst.shows hprepared (fun _ ↦ trivial) (fun _ ↦ nofun)
    rw [List.append_assoc] at hsecond
    exact hsecond.puts ((hsecond.managers replica).leaves hcall hbarrier) fun _ ↦ holds_leaves
  · rw [List.append_nil]
    refine hsound.puts ((hsound.managers replica).turns call request.barrierId rfl rfl ?_ ?_
      ((hsound.managers replica).alone hcall hbarrier) ?_ ?_ ?_) fun other hholds ↦
      holds_goes hcall (by exact hbarrier.symm) hholds
    · exact fun other hne ↦ Function.update_of_ne hne ..
    · exact fun other hne ↦ Function.update_of_ne hne ..
    · intro left hleft other hother
      obtain rfl := Option.some.inj (hcall.symm.trans hleft)
      exact Option.some.inj (hother.symm.trans hbarrier)
    · intro left hleft
      obtain rfl : ⟨waiting.sandboxId, .answers request⟩ = left := by
        simpa [Manager.goes] using hleft
      refine ⟨⟨hprepares, hsandbox, { round with changed := false }, by simp, hrequest⟩, rfl, ?_⟩
      exact (hsound.managers replica).drawn _ ⟨call, waiting, hcall, hbarrier⟩
    · intro other hother
      obtain rfl : { round with changed := false } = other := by simpa using hother
      exact ⟨⟨hheard.barrier, hheard.opened, hheard.received⟩, by simp [Manager.goes]⟩

/-- A call outside of `wait` changes. -/
theorem Sound.recalls {value : Option Call} (hsound : Sound trace world)
    (hold : ∀ waiting, (world.managers replica).calls call = some waiting →
      waiting.phase.barrier = none)
    (hnew : ∀ waiting, value = some waiting → waiting.phase.barrier = none) :
    Sound (trace ++ []) (world.put replica
      { world.managers replica with
        calls := Function.update (world.managers replica).calls call value }) := by
  rw [List.append_nil]
  refine hsound.puts ((hsound.managers replica).recalls hold hnew) ?_
  rintro other ⟨holder, left, hholder, hleft⟩
  by_cases heq : holder = call
  · subst heq
    rw [hnew left (by simpa using hholder)] at hleft
    cases hleft
  · exact ⟨holder, left, (Function.update_of_ne heq ..).symm.trans hholder, hleft⟩

/-- What a call in `wait` awaits raises. -/
theorem Sound.fails (hsound : Sound trace world)
    (hcall : (world.managers replica).calls call = some waiting) :
    Sound (trace ++ ((world.managers replica).fails replica call waiting).2)
      (world.put replica ((world.managers replica).fails replica call waiting).1) := by
  have horder := (hsound.managers replica).calls call waiting hcall
  obtain ⟨sandboxId, phase⟩ := waiting
  cases phase with
  | topics => exact hsound.recalls (by simp [hcall, Phase.barrier]) nofun
  | subscription => exact hsound.recalls (by simp [hcall, Phase.barrier]) nofun
  | membership barrierId =>
    exact hsound.gives hcall rfl horder.1 fun request hbarrier hrequested ↦
      absurd hbarrier (horder.2 request hrequested)
  | broadcast request =>
    obtain ⟨hprepares, -, round, hround, hrequest⟩ := horder
    have hopened := ((hsound.managers replica).rounds _ _ hround).opened
    exact hsound.gives hcall rfl hprepares fun other hbarrier hrequested ↦
      hsound.unique request other (hrequest ▸ hopened.requested) hrequested hbarrier.symm ▸
        hsound.missed hround hrequest
  | answers request =>
    obtain ⟨hprepares, -, round, hround, hrequest⟩ := horder
    have hopened := ((hsound.managers replica).rounds _ _ hround).opened
    exact hsound.gives hcall rfl hprepares fun other hbarrier hrequested ↦
      hsound.unique request other (hrequest ▸ hopened.requested) hrequested hbarrier.symm ▸
        hsound.missed hround hrequest

/-- A cancelled call. -/
theorem Sound.cancels (hsound : Sound trace world)
    (hcall : (world.managers replica).calls call = some waiting) :
    Sound (trace ++ []) (world.put replica ((world.managers replica).cancels call waiting)) := by
  have hleaves : ∀ barrierId, waiting.phase.barrier = some barrierId →
      Sound (trace ++ []) (world.put replica ((world.managers replica).leaves call barrierId)) := by
    intro barrierId hbarrier
    rw [List.append_nil]
    exact hsound.puts ((hsound.managers replica).leaves hcall hbarrier) fun _ ↦ holds_leaves
  obtain ⟨sandboxId, phase⟩ := waiting
  cases phase with
  | topics => exact hsound.recalls (by simp [hcall, Phase.barrier]) nofun
  | subscription => exact hsound.recalls (by simp [hcall, Phase.barrier]) nofun
  | membership barrierId => exact hleaves barrierId rfl
  | broadcast request => exact hleaves request.barrierId rfl
  | answers request => exact hleaves request.barrierId rfl

/-- `subscribed` returns, and `wait` draws its identifier. -/
theorem Sound.subscribes (hsound : Sound trace world)
    (hcall : (world.managers replica).calls call = some ⟨sandboxId, .subscription⟩)
    (hmem : sandboxId ∈ (world.managers replica).topics) (hfresh : barrierId ∉ world.drawn) :
    Sound (trace ++ [.prepares replica call sandboxId])
      { world.put replica
          ((world.managers replica).goes call sandboxId (.membership barrierId)) with
        drawn := barrierId :: world.drawn } := by
  have hsubscribed := (hsound.managers replica).topics sandboxId hmem
  have hshown : Sound (trace ++ [.prepares replica call sandboxId]) world :=
    hsound.shows hsubscribed (fun _ ↦ trivial) (fun _ ↦ nofun)
  have hmanaged := hshown.managers replica
  refine @Sound.draws _ _ _ _ [barrierId] hshown (hmanaged.draw.turns call barrierId rfl rfl
    (fun other hne ↦ Function.update_of_ne hne ..) (fun _ _ ↦ rfl) ?_ ?_ ?_ ?_) ?_
  · exact fun other left _ hother hbarrier ↦
      hfresh (hmanaged.drawn barrierId ⟨other, left, hother, hbarrier⟩)
  · intro left hleft other hother
    rw [← Option.some.inj (hcall.symm.trans hleft)] at hother
    cases hother
  · intro left hleft
    obtain rfl : ⟨sandboxId, .membership barrierId⟩ = left := by
      simpa [Manager.goes] using hleft
    exact ⟨⟨by simp, fun request hrequested hbarrier ↦
      hfresh (hbarrier ▸ hshown.drawn request hrequested)⟩, rfl, List.mem_cons_self⟩
  · intro round hround
    have hsome : (world.managers replica).rounds barrierId = some round := hround
    exact absurd (hmanaged.drawn barrierId (hmanaged.owned barrierId (by simp [hsome]))) hfresh
  · rintro other ⟨holder, left, hholder, hleft⟩
    by_cases heq : holder = call
    · subst heq
      obtain rfl : ⟨sandboxId, .membership barrierId⟩ = left := by
        simpa [Manager.goes] using hholder
      exact Or.inr (Option.some.inj hleft ▸ hfresh)
    · exact Or.inl ⟨holder, left, (Function.update_of_ne heq ..).symm.trans hholder, hleft⟩

/-- The members are those that were found. -/
theorem mem_sortedIds {found : List Uuid} {member : Uuid} :
    member ∈ sortedIds found ↔ member ∈ found := by
  simp [sortedIds]

/-- `members` returns. -/
theorem Sound.opens {found : List Uuid} (hsound : Sound trace world)
    (hcall : (world.managers replica).calls call = some ⟨sandboxId, .membership barrierId⟩) :
    Sound
      (trace ++ ((world.managers replica).opens replica call sandboxId barrierId found).2)
      (world.put replica
        ((world.managers replica).opens replica call sandboxId barrierId found).1) := by
  have hmanaged := hsound.managers replica
  obtain ⟨hprepares, hnone⟩ := hmanaged.calls call _ hcall
  have hholds : (world.managers replica).Holds barrierId := ⟨call, _, hcall, rfl⟩
  unfold Manager.opens
  split_ifs with hlocal
  · have hleft : ¬ ((world.managers replica).leaves call barrierId).Holds barrierId := by
      rintro ⟨holder, left, hholder, hleft⟩
      by_cases heq : holder = call
      · subst heq
        simp [Manager.leaves] at hholder
      · exact hmanaged.alone hcall rfl holder left heq
          ((Function.update_of_ne heq ..).symm.trans hholder) hleft
    let request : BarrierRequest := ⟨barrierId, sandboxId, replica, sortedIds found⟩
    have hmade : Managed (trace ++ [.requested request]) world.drawn replica
        ((world.managers replica).leaves call barrierId) :=
      (hmanaged.leaves hcall rfl).snoc hleft
    have hjustified : Event.Justified trace (.requested request) :=
      ⟨⟨call, hprepares⟩, mem_sortedIds.mpr hlocal, hnone⟩
    refine hsound.acts hjustified ?_ ?_
      (hmade.turns call barrierId rfl rfl ?_ ?_ ?_ ?_ ?_ ?_) fun other ↦ holds_goes hcall (by rfl)
    · exact fun other hne hother ↦ hne (hsound.apart other replica barrierId hother hholds)
    · rintro other ⟨⟩
      exact hmanaged.drawn barrierId hholds
    · exact fun other hne ↦ by simp [Manager.goes, Manager.leaves, Function.update_of_ne hne]
    · exact fun other hne ↦ by simp [Manager.leaves, Function.update_of_ne hne]
    · exact fun other left _ hother hbarrier ↦ hleft ⟨other, left, hother, hbarrier⟩
    · intro left hcalls
      simp [Manager.leaves] at hcalls
    · intro left hcalls
      obtain rfl : ⟨sandboxId, .broadcast request⟩ = left := by
        simpa [Manager.goes] using hcalls
      exact ⟨⟨List.mem_append_left _ hprepares, rfl, ⟨request, {replica}, false⟩,
        by simp [request], rfl⟩, rfl, hmanaged.drawn barrierId hholds⟩
    · intro round hround
      obtain rfl : ⟨request, {replica}, false⟩ = round := by simpa using hround
      refine ⟨⟨rfl, ⟨rfl, by simp⟩, fun member ↦ ?_⟩, by simp [Manager.goes]⟩
      have hunheard : .heard barrierId member ∉ trace := by
        intro hheard
        obtain ⟨before, hbefore, other, hbarrier, hready⟩ :=
          justified_of_mem hsound.along hheard
        exact hnone other (requested_of_ready hsound.along (hbefore hready)) hbarrier
      simp [hunheard]
  · exact hsound.gives hcall rfl hprepares fun request hbarrier hrequested ↦
      absurd hbarrier (hnone request hrequested)

/-! ### The steps of the listener and of the participants -/

/-- A replica has another assignment. -/
theorem Managed.assigns {event : Event} {topics : Finset Uuid}
    (hmanaged : Managed trace drawn replica manager)
    (htopics : ∀ sandboxId ∈ topics, Subscribed replica sandboxId (trace ++ [event]))
    (hrequest : ∀ request, event ≠ .requested request)
    (hheard : ∀ barrierId member, event ≠ .heard barrierId member) :
    Managed (trace ++ [event]) drawn replica { manager with topics } where
  topics := htopics
  calls := fun call waiting hcall ↦ InOrder.frame (hmanaged.calls call waiting hcall)
    (fun _ _ round hround hrequest ↦ ⟨round, hround, hrequest⟩)
    fun request heq ↦ absurd heq (hrequest request)
  drawn := hmanaged.drawn
  apart := hmanaged.apart
  rounds := fun barrierId round hround ↦
    (hmanaged.rounds barrierId round hround).snoc (hheard barrierId)
  owned := hmanaged.owned
  participants := fun barrierId participant hparticipant ↦
    (hmanaged.participants barrierId participant hparticipant).mono

/-- The participants of a replica change. -/
theorem Managed.joins {participants : Uuid → Option Participant}
    (hmanaged : Managed trace drawn replica manager)
    (hjoins : ∀ barrierId participant, participants barrierId = some participant →
      Joins trace replica barrierId participant) :
    Managed trace drawn replica { manager with participants } :=
  ⟨hmanaged.topics, fun call waiting hcall ↦
    InOrder.elsewhere (hmanaged.calls call waiting hcall) fun _ _ ↦ rfl,
    hmanaged.drawn, hmanaged.apart, hmanaged.rounds, hmanaged.owned, hjoins⟩

/-- One participant of a replica changes. -/
theorem Sound.participates {value : Option Participant} (hsound : Sound trace world)
    (hjoins : ∀ participant, value = some participant →
      Joins trace replica barrierId participant) :
    Sound trace (world.put replica ((world.managers replica).participates barrierId value)) := by
  refine hsound.puts ((hsound.managers replica).joins fun other participant hother ↦ ?_)
    fun _ hholds ↦ hholds
  by_cases heq : other = barrierId
  · subst heq
    rw [Function.update_self] at hother
    exact hjoins participant hother
  · rw [Function.update_of_ne heq] at hother
    exact (hsound.managers replica).participants other participant hother

/-- A request is accepted. -/
theorem Sound.acceptRequest {request : BarrierRequest} (hsound : Sound trace world)
    (hrequested : .requested request ∈ trace) :
    Sound trace (world.put replica ((world.managers replica).acceptRequest replica request)) := by
  unfold Manager.acceptRequest
  split_ifs with hskips
  · exact hsound.puts (hsound.managers replica) fun _ hholds ↦ hholds
  · simp only [not_or, not_not] at hskips
    obtain ⟨hmember, hother, -⟩ := hskips
    refine hsound.participates ?_
    rintro participant ⟨⟩
    exact ⟨rfl, hrequested, hmember, fun heq ↦ hother heq.symm, fun hready ↦ by cases hready⟩

/-- An answer is accepted. -/
theorem Sound.acceptAck {ack : BarrierAck} (hsound : Sound trace world)
    (hmeant : (BarrierMessage.ack ack).Meant trace) :
    Sound (trace ++ ((world.managers replica).acceptAck ack).2)
      (world.put replica ((world.managers replica).acceptAck ack).1) := by
  have hmanaged := hsound.managers replica
  unfold Manager.acceptAck
  cases hround : (world.managers replica).rounds ack.barrierId with
  | none =>
    rw [List.append_nil]
    exact hsound.puts hmanaged fun _ hholds ↦ hholds
  | some round =>
    dsimp only
    split_ifs
    · have hholds := hmanaged.owned ack.barrierId (by simp [hround])
      have hjustified : Event.Justified trace (.heard ack.barrierId ack.member) := by
        obtain ⟨made, hready, hack⟩ := hmeant
        exact ⟨made, by rw [hack]; rfl, hready⟩
      refine hsound.acts hjustified
        (fun other hne hother ↦ hne (hsound.apart other replica _ hother hholds)) nofun
        ⟨?_, ?_, hmanaged.drawn, hmanaged.apart, ?_, ?_, ?_⟩ fun _ hsame ↦ hsame
      · exact fun sandboxId hmem ↦ (hmanaged.topics sandboxId hmem).snoc id
      · intro call waiting hcall
        refine InOrder.frame (hmanaged.calls call waiting hcall)
          (fun request _ earlier hearlier hrequest ↦ ?_) nofun
        by_cases heq : request.barrierId = ack.barrierId
        · rw [heq, hround] at hearlier
          obtain rfl := Option.some.inj hearlier
          rw [heq]
          exact ⟨_, Function.update_self .., hrequest⟩
        · exact ⟨earlier, (Function.update_of_ne heq ..).trans hearlier, hrequest⟩
      · intro barrierId other hother
        by_cases heq : barrierId = ack.barrierId
        · subst heq
          have hheard := hmanaged.rounds _ _ hround
          obtain rfl : { round with
              received := insert ack.member round.received, changed := true } = other := by
            simpa using hother
          refine ⟨hheard.barrier, hheard.opened.mono, fun member ↦ ?_⟩
          simp only [Finset.mem_insert, hheard.received, List.mem_append, List.mem_singleton,
            Event.heard.injEq, true_and]
          exact or_rotate
        · refine (hmanaged.rounds barrierId other
            ((Function.update_of_ne heq ..).symm.trans hother)).snoc fun member hsame ↦ ?_
          exact heq (Event.heard.inj hsame).1.symm
      · intro barrierId hother
        by_cases heq : barrierId = ack.barrierId
        · exact heq ▸ hholds
        · exact hmanaged.owned barrierId fun hnone ↦
            hother ((Function.update_of_ne heq ..).trans hnone)
      · exact fun barrierId participant hparticipant ↦
          (hmanaged.participants barrierId participant hparticipant).mono
    · rw [List.append_nil]
      exact hsound.puts hmanaged fun _ hholds ↦ hholds

/-- A step of a task of `_ack`. -/
theorem Sound.participate {participant : Participant} (hsound : Sound trace world)
    (hparticipant : (world.managers replica).participants barrierId = some participant)
    {input : Input} (hinput : input = .joined barrierId ∨ input = .answer barrierId ∨
      (∃ failed, input = .ended barrierId failed) ∨ input = .forget barrierId) :
    Sound (trace ++ (world.participate replica participant input).2)
      (world.participate replica participant input).1 := by
  have hjoins := (hsound.managers replica).participants barrierId participant hparticipant
  have hidle : Sound (trace ++ []) world := (List.append_nil trace).symm ▸ hsound
  rcases hinput with rfl | rfl | ⟨failed, rfl⟩ | rfl
  · unfold World.participate
    dsimp only
    split_ifs with hready
    · have hjustified : Event.Justified trace (.ready replica participant.request) :=
        ⟨hjoins.requested, hjoins.member, hjoins.other,
          (hsound.managers replica).topics _ hready.2⟩
      refine (hsound.shows hjustified (fun _ ↦ trivial) (fun _ ↦ nofun)).participates ?_
      rintro next ⟨⟩
      exact ⟨hjoins.barrier, List.mem_append_left _ hjoins.requested, hjoins.member, hjoins.other,
        fun _ ↦ by simp⟩
    · exact hidle
  · unfold World.participate
    dsimp only
    split_ifs with hphase
    · rw [List.append_nil]
      exact hsound.sends ⟨participant.request, hjoins.ready hphase, rfl⟩
    · exact hidle
  · unfold World.participate
    dsimp only
    split_ifs
    · rw [List.append_nil]
      refine hsound.participates ?_
      rintro next ⟨⟩
      exact ⟨hjoins.barrier, hjoins.requested, hjoins.member, hjoins.other, nofun⟩
    · exact hidle
  · unfold World.participate
    dsimp only
    split_ifs
    · rw [List.append_nil]
      exact hsound.participates nofun
    · exact hidle

/-! ### Runs -/

/-- A step of a call of `prepare`. -/
theorem Sound.proceed (hsound : Sound trace world)
    (hcall : (world.managers replica).calls call = some waiting) {input : Input} (hinput :
      input = .created call ∨ (∃ barrierId, input = .subscribed call barrierId) ∨
      (∃ found, input = .members call found) ∨ input = .hand call ∨ input = .broadcasted call ∨
      input = .wake call ∨ input = .fail call ∨ input = .cancel call) :
    Sound (trace ++ (world.proceed replica call waiting input).2)
      (world.proceed replica call waiting input).1 := by
  have hidle : Sound (trace ++ []) world := (List.append_nil trace).symm ▸ hsound
  obtain ⟨sandboxId, phase⟩ := waiting
  rcases hinput with rfl | ⟨barrierId, rfl⟩ | ⟨found, rfl⟩ | rfl | rfl | rfl | rfl | rfl
  · cases phase with
    | topics =>
      refine hsound.recalls (by simp [hcall, Phase.barrier]) ?_
      rintro next ⟨⟩
      rfl
    | _ => exact hidle
  · cases phase with
    | subscription =>
      unfold World.proceed
      dsimp only
      split_ifs with hskips
      · exact hidle
      · rw [not_or, not_not] at hskips
        exact hsound.subscribes hcall hskips.1 hskips.2
    | _ => exact hidle
  · cases phase with
    | membership barrierId => exact hsound.opens hcall
    | _ => exact hidle
  · cases phase with
    | broadcast request =>
      obtain ⟨-, -, round, hround, hrequest⟩ := (hsound.managers replica).calls call _ hcall
      rw [World.proceed, List.append_nil]
      exact hsound.sends
        (hrequest ▸ ((hsound.managers replica).rounds _ _ hround).opened.requested)
    | _ => exact hidle
  · cases phase with
    | broadcast request =>
      unfold World.proceed
      dsimp only
      split_ifs
      · exact hsound.awaits hcall (Or.inl rfl)
      · exact hidle
    | _ => exact hidle
  · cases phase with
    | answers request =>
      unfold World.proceed
      dsimp only
      split_ifs
      · exact hsound.awaits hcall (Or.inr rfl)
      · exact hidle
    | _ => exact hidle
  · exact hsound.fails hcall
  · exact hsound.cancels hcall

/-- Every step keeps the invariant. -/
theorem Sound.step (hsound : Sound trace world) (action : Uuid × Input) :
    Sound (trace ++ (step world action).2) (step world action).1 := by
  obtain ⟨replica, input⟩ := action
  have hidle : Sound (trace ++ []) world := (List.append_nil trace).symm ▸ hsound
  have hcalls : ∀ call, (∀ waiting, (world.managers replica).calls call = some waiting →
      Sound (trace ++ (world.proceed replica call waiting input).2)
        (world.proceed replica call waiting input).1) →
      Sound (trace ++ (world.callStep replica call input).2)
        (world.callStep replica call input).1 := by
    intro call hproceed
    unfold World.callStep
    cases hcall : (world.managers replica).calls call with
    | none => exact hidle
    | some waiting => exact hproceed waiting hcall
  have htasks : ∀ barrierId, (∀ participant,
      (world.managers replica).participants barrierId = some participant →
      Sound (trace ++ (world.participate replica participant input).2)
        (world.participate replica participant input).1) →
      Sound (trace ++ (world.taskStep replica barrierId input).2)
        (world.taskStep replica barrierId input).1 := by
    intro barrierId hparticipate
    unfold World.taskStep
    cases hparticipant : (world.managers replica).participants barrierId with
    | none => exact hidle
    | some participant => exact hparticipate participant hparticipant
  cases input with
  | assign topics =>
    refine hsound.acts trivial (fun other hne ↦ hne.symm) nofun
      ((hsound.managers replica).assigns (fun sandboxId hmem ↦ ?_) nofun nofun)
      fun _ hholds ↦ hholds
    exact ⟨topics, hmem, since_snoc.mpr (Or.inl rfl)⟩
  | revoke =>
    exact hsound.acts trivial (fun other hne ↦ hne.symm) nofun
      ((hsound.managers replica).assigns (by simp) nofun nofun) fun _ hholds ↦ hholds
  | prepare call sandboxId =>
    unfold Barrier.step
    dsimp only
    split_ifs with hsome
    · exact hidle
    · refine hsound.recalls (fun waiting hcall ↦ absurd (by simp [hcall]) hsome) ?_
      rintro waiting ⟨⟩
      rfl
  | created call => exact hcalls call fun _ hcall ↦ hsound.proceed hcall (by simp)
  | subscribed call barrierId => exact hcalls call fun _ hcall ↦ hsound.proceed hcall (by simp)
  | members call found => exact hcalls call fun _ hcall ↦ hsound.proceed hcall (by simp)
  | hand call => exact hcalls call fun _ hcall ↦ hsound.proceed hcall (by simp)
  | broadcasted call => exact hcalls call fun _ hcall ↦ hsound.proceed hcall (by simp)
  | wake call => exact hcalls call fun _ hcall ↦ hsound.proceed hcall (by simp)
  | fail call => exact hcalls call fun _ hcall ↦ hsound.proceed hcall (by simp)
  | cancel call => exact hcalls call fun _ hcall ↦ hsound.proceed hcall (by simp)
  | accept message =>
    unfold Barrier.step
    dsimp only
    split_ifs with hsent
    · cases message with
      | request request =>
        rw [List.append_nil]
        exact hsound.acceptRequest (hsound.sent _ hsent)
      | ack ack => exact hsound.acceptAck (hsound.sent _ hsent)
    · exact hidle
  | joined barrierId => exact htasks barrierId fun _ hjoins ↦ hsound.participate hjoins (by simp)
  | answer barrierId => exact htasks barrierId fun _ hjoins ↦ hsound.participate hjoins (by simp)
  | ended barrierId failed =>
    exact htasks barrierId fun _ hjoins ↦ hsound.participate hjoins (by simp)
  | forget barrierId => exact htasks barrierId fun _ hjoins ↦ hsound.participate hjoins (by simp)
  | stop =>
    rw [Barrier.step, List.append_nil]
    exact hsound.puts ((hsound.managers replica).joins nofun) fun _ hholds ↦ hholds

/-- The invariant holds at the start. -/
theorem Sound.start : Sound [] World.start where
  along := Along.nil
  drawn := nofun
  unique := nofun
  sent := nofun
  managers := fun _ ↦
    { topics := by simp [World.start, Manager.fresh]
      calls := nofun
      drawn := by
        rintro barrierId ⟨call, waiting, hcall, -⟩
        cases hcall
      apart := nofun
      rounds := nofun
      owned := fun _ hround ↦ absurd rfl hround
      participants := nofun }
  apart := by
    rintro first second barrierId ⟨call, waiting, hcall, -⟩
    cases hcall

/-- The invariant holds after every run. -/
theorem Sound.run (inputs : List (Uuid × Input)) :
    Sound (runFrom Barrier.step World.start inputs).2
      (runFrom Barrier.step World.start inputs).1 :=
  run_induction (fun _ world trace ↦ Sound trace world) Sound.start
    (fun _ action _ _ hsound ↦ hsound.step action) inputs

/-- A replica keeps a round only for a call that is still in `wait`. -/
theorem rounds_belong (inputs : List (Uuid × Input)) (replica barrierId : Uuid)
    (hround : ((runFrom Barrier.step World.start inputs).1.managers replica).rounds barrierId ≠
      none) :
    ((runFrom Barrier.step World.start inputs).1.managers replica).Holds barrierId :=
  ((Sound.run inputs).managers replica).owned barrierId hround

end Ads.ManagerKafka.Barrier
