import Mathlib.Data.Finset.Card
import Ads.SandboxEgress.Membership

/-!
# Fresh evidence

`membership_safe` says of every run of a `ConnectionMembership` that its names are bounded, that one
lookup runs for a key, that cached evidence is fresh when it is used, and that a call succeeds only
before closing and for a member of the evidence.

A running lookup is in flight under its key, so that caching its answer adds no name; every call of
`close` gathers all running lookups, since no lookup begins after it.
-/

set_option autoImplicit false
set_option relaxedAutoImplicit false

namespace Ads.SandboxEgress

open Foundation Foundation.Runs Foundation.StateExcept

/-- The evidence that was cached last for a key, with the time of its insertion. -/
def lastInserted (key : MembershipKey) (trace : List MembershipEffect) :
    Option (ResolutionEvidence × ℚ) :=
  trace.reverse.findSome? fun effect ↦
    match effect with
    | .inserted other evidence time => if other = key then some (evidence, time) else none
    | _ => none

/-- The address and the port of a call are in the evidence for its key. -/
def AdmittedBy (call : MembershipCall) (key : MembershipKey) (evidence : ResolutionEvidence) : Prop :=
  evidence.name = key.name ∧
    ((call.originalPort = call.authorityPort ∧ call.original ∈ evidence.directAddresses) ∨
      ∃ endpoint ∈ evidence.serviceEndpoints, endpoint.service = key.name ∧
        endpoint.address = call.original ∧ endpoint.port = call.originalPort ∧
          endpoint.authorityPort = call.authorityPort)

/-- What an effect has to keep to, given the effects before it. -/
def InOrder (membership : ConnectionMembership) (trace : List MembershipEffect) :
    MembershipEffect → Prop
  | .served key evidence time => ∃ inserted expiry,
      lastInserted key trace = some (evidence, inserted) ∧ evidence.expiresAt = some expiry ∧
        time < min expiry (inserted + membership.cap)
  | .succeeded _ call key evidence =>
    .closing ∉ trace ∧ membership.scope call = .ok key ∧ AdmittedBy call key evidence
  | _ => True

/-- What holds after a run. -/
structure SafeMembership (membership : ConnectionMembership) (state : MembershipState)
    (trace : List MembershipEffect) : Prop where
  bounded : state.keys.card ≤ membership.maximum
  names : (state.keys.image MembershipKey.name).card ≤ membership.maximum
  single : ∀ first second key, state.tasks first = some ⟨key, none⟩ →
    state.tasks second = some ⟨key, none⟩ → first = second
  effects : Along (InOrder membership) trace

/-! ### The invariant -/

/-- Cached evidence expires as it should. -/
structure Fresh (membership : ConnectionMembership) (trace : List MembershipEffect)
    (cached : CachedEvidence) : Prop where
  inserted : ∃ time expiry, lastInserted cached.key trace = some (cached.evidence, time) ∧
    cached.evidence.expiresAt = some expiry ∧ cached.expiry = min expiry (time + membership.cap)
  name : cached.evidence.name = cached.key.name

/-- The state fits to the effects so far. -/
structure Coherent (membership : ConnectionMembership) (trace : List MembershipEffect)
    (state : MembershipState) : Prop where
  bounded : state.keys.card ≤ membership.maximum
  running : ∀ task key, state.tasks task = some ⟨key, none⟩ →
    state.inflight.find key = some ⟨key, task⟩
  fresh : ∀ task, state.next ≤ task → state.tasks task = none
  gathered : ∀ gathered ∈ state.closings, ∀ task key, state.tasks task = some ⟨key, none⟩ →
    task ∈ gathered
  unclosed : state.closed = false → state.closings = []
  closed : state.closed = true ↔ .closing ∈ trace
  cached : ∀ cached ∈ state.cache, Fresh membership trace cached
  returned : ∀ task key evidence, state.tasks task = some ⟨key, some (.returned evidence)⟩ →
    evidence.name = key.name
  waiting : ∀ id waiting, state.calls id = some waiting →
    membership.scope waiting.call = .ok waiting.key ∧
      ∃ outcome, state.tasks waiting.task = some ⟨waiting.key, outcome⟩
  pending : ∀ pending ∈ state.inflight,
    ∃ outcome, state.tasks pending.task = some ⟨pending.key, outcome⟩

/-! ### Keys -/

section Keys

variable {state after : MembershipState} {key : MembershipKey}

theorem mem_keys : key ∈ state.keys ↔ (∃ cached ∈ state.cache, cached.key = key) ∨
    ∃ pending ∈ state.inflight, pending.key = key := by
  rw [MembershipState.keys, Finset.mem_union, List.mem_toFinset, List.mem_toFinset, List.mem_map,
    List.mem_map]
  rfl

/-- Fewer keys stay bounded. -/
theorem card_keys_le {maximum : ℕ} (hbounded : state.keys.card ≤ maximum)
    (hcache : ∀ cached ∈ after.cache, cached.key ∈ state.keys)
    (hinflight : ∀ pending ∈ after.inflight, pending.key ∈ state.keys) :
    after.keys.card ≤ maximum := by
  refine (Finset.card_le_card fun key hkey ↦ ?_).trans hbounded
  rcases mem_keys.mp hkey with ⟨cached, hcached, rfl⟩ | ⟨pending, hpending, rfl⟩
  · exact hcache cached hcached
  · exact hinflight pending hpending

theorem mem_keys_of_cached {cached : CachedEvidence} (hcached : cached ∈ state.cache) :
    cached.key ∈ state.keys :=
  mem_keys.mpr (.inl ⟨cached, hcached, rfl⟩)

theorem mem_keys_of_pending {pending : PendingLookup} (hpending : pending ∈ state.inflight) :
    pending.key ∈ state.keys :=
  mem_keys.mpr (.inr ⟨pending, hpending, rfl⟩)

end Keys

/-! ### Insertions -/

section Insertions

variable {key : MembershipKey} {trace more : List MembershipEffect}

/-- An effect that neither caches evidence nor closes. -/
def MembershipEffect.isQuiet : MembershipEffect → Bool
  | .inserted _ _ _ | .closing => false
  | _ => true

theorem lastInserted_snoc {effect : MembershipEffect} (hquiet : effect.isQuiet = true) :
    lastInserted key (trace ++ [effect]) = lastInserted key trace := by
  cases effect with
  | inserted => cases hquiet
  | closing => cases hquiet
  | served | succeeded | refused => simp [lastInserted]

theorem lastInserted_closing :
    lastInserted key (trace ++ [.closing]) = lastInserted key trace := by
  simp [lastInserted]

theorem lastInserted_inserted {other : MembershipKey} {evidence : ResolutionEvidence} {time : ℚ} :
    lastInserted key (trace ++ [.inserted other evidence time]) =
      if other = key then some (evidence, time) else lastInserted key trace := by
  simp only [lastInserted, List.reverse_append, List.reverse_singleton, List.singleton_append,
    List.findSome?_cons]
  split_ifs <;> rfl

variable {membership : ConnectionMembership} {state : MembershipState}

/-- Quiet effects change nothing. -/
theorem Coherent.snoc {effect : MembershipEffect} (hcoherent : Coherent membership trace state)
    (hquiet : effect.isQuiet = true) : Coherent membership (trace ++ [effect]) state := by
  refine { hcoherent with closed := ?_, cached := fun cached hcached ↦ ?_ }
  · rw [hcoherent.closed, List.mem_append, List.mem_singleton]
    refine ⟨.inl, fun hclosing ↦ hclosing.resolve_right ?_⟩
    rintro rfl
    cases hquiet
  · obtain ⟨⟨time, expiry, hlast, hexpiry⟩, hname⟩ := hcoherent.cached cached hcached
    exact ⟨⟨time, expiry, (lastInserted_snoc hquiet).trans hlast, hexpiry⟩, hname⟩

end Insertions

/-! ### Evidence -/

section Evidence

variable {membership : ConnectionMembership} {key : MembershipKey} {evidence : ResolutionEvidence}
  {expiry : ℚ}

/-- Accepted evidence is for its key, and has its own expiry. -/
theorem checkEvidence_spec (hchecked : membership.checkEvidence key evidence = .ok expiry) :
    evidence.expiresAt = some expiry ∧ evidence.name = key.name := by
  unfold ConnectionMembership.checkEvidence at hchecked
  cases hexpires : evidence.expiresAt with
  | none =>
    rw [hexpires] at hchecked
    cases hchecked
  | some finite =>
    rw [hexpires] at hchecked
    simp only [except_bind_eq_ok, failIf_eq_ok, not_or] at hchecked
    obtain ⟨_, ⟨_, hname, _⟩, _, _, _, _, hresult⟩ := hchecked
    cases hresult
    exact ⟨rfl, not_not.mp hname⟩

/-- A member of the evidence for a key is admitted. -/
theorem admits_of_isMember {call : MembershipCall} (hname : evidence.name = key.name)
    (hmember : call.isMember key evidence = true) : AdmittedBy call key evidence := by
  refine ⟨hname, ?_⟩
  simpa [MembershipCall.isMember] using hmember

end Evidence

/-! ### Steps -/

section Steps

variable {membership : ConnectionMembership} {trace : List MembershipEffect}
  {state after : MembershipState} {id task : ℕ} {key : MembershipKey} {call : MembershipCall}
  {evidence : ResolutionEvidence}

/-- A step keeps the invariant, and its effects are in order. -/
structure Advances (membership : ConnectionMembership) (trace : List MembershipEffect)
    (after : MembershipState) (effects : List MembershipEffect) : Prop where
  coherent : Coherent membership (trace ++ effects) after
  ordered : Along (InOrder membership) (trace ++ effects)

theorem advances_nil (hordered : Along (InOrder membership) trace)
    (hcoherent : Coherent membership trace after) : Advances membership trace after [] := by
  refine ⟨?_, ?_⟩
  · rwa [List.append_nil]
  · rwa [List.append_nil]

/-- One more quiet effect. -/
theorem advances_quiet {effect : MembershipEffect} (hordered : Along (InOrder membership) trace)
    (hcoherent : Coherent membership trace after) (hquiet : effect.isQuiet = true)
    (horder : InOrder membership trace effect) : Advances membership trace after [effect] :=
  ⟨hcoherent.snoc hquiet, hordered.snoc horder⟩

/-- A call that goes on with evidence for its key is refused, or succeeds in order. -/
theorem conclude_inOrder (hcoherent : Coherent membership trace state)
    (hscope : membership.scope call = .ok key) (hname : evidence.name = key.name) :
    (state.conclude id call key evidence).isQuiet = true ∧
      InOrder membership trace (state.conclude id call key evidence) := by
  unfold MembershipState.conclude
  split_ifs with hclosed hmember
  · exact ⟨rfl, trivial⟩
  · refine ⟨rfl, fun hclosing ↦ hclosed (hcoherent.closed.mpr hclosing), hscope, ?_⟩
    exact admits_of_isMember hname hmember
  · exact ⟨rfl, trivial⟩

/-- A call that waits for a lookup of its key. -/
theorem Coherent.wait {outcome : Option LookupOutcome} (hcoherent : Coherent membership trace state)
    (hscope : membership.scope call = .ok key) (htask : state.tasks task = some ⟨key, outcome⟩) :
    Coherent membership trace (state.wait id call key task) := by
  refine { hcoherent with waiting := fun other waiting hwaiting ↦ ?_ }
  change Function.update state.calls id (some ⟨call, key, task⟩) other = some waiting at hwaiting
  rw [Function.update_apply] at hwaiting
  split_ifs at hwaiting
  · obtain rfl := Option.some.inj hwaiting
    exact ⟨hscope, outcome, htask⟩
  · exact hcoherent.waiting other waiting hwaiting

/-- A call stops waiting. -/
theorem Coherent.leave (hcoherent : Coherent membership trace state) :
    Coherent membership trace (state.leave id) := by
  refine { hcoherent with waiting := fun other waiting hwaiting ↦ ?_ }
  change Function.update state.calls id none other = some waiting at hwaiting
  rw [Function.update_apply] at hwaiting
  split_ifs at hwaiting
  exact hcoherent.waiting other waiting hwaiting

/-- Expired evidence is evicted. -/
theorem Coherent.evict (hcoherent : Coherent membership trace state) :
    Coherent membership trace state.evict := by
  have hmem : ∀ cached ∈ state.evict.cache, cached ∈ state.cache :=
    fun cached hcached ↦ (Table.mem_filter.mp hcached).1
  refine { hcoherent with bounded := ?_, cached := fun cached hcached ↦ ?_ }
  · exact card_keys_le hcoherent.bounded (fun cached hcached ↦ mem_keys_of_cached (hmem _ hcached))
      fun pending hpending ↦ mem_keys_of_pending hpending
  · exact hcoherent.cached cached (hmem cached hcached)

/-- A lookup begins for a new key. -/
theorem Coherent.begin (hcoherent : Coherent membership trace state)
    (hopen : state.closed = false) (hnone : state.inflight.find key = none)
    (hcapacity : state.keys.card < membership.maximum) :
    Coherent membership trace (state.begin key) := by
  have hnew : state.tasks state.next = none := hcoherent.fresh state.next (le_refl _)
  have htasks : ∀ other found, (state.begin key).tasks other = some found →
      (other = state.next ∧ found = ⟨key, none⟩) ∨ state.tasks other = some found := by
    intro other found hfound
    change Function.update state.tasks state.next (some ⟨key, none⟩) other = some found at hfound
    rw [Function.update_apply] at hfound
    split_ifs at hfound with hsame
    · exact .inl ⟨hsame, (Option.some.inj hfound).symm⟩
    · exact .inr hfound
  refine { hcoherent with
    bounded := ?_, running := ?_, fresh := ?_, gathered := ?_, returned := ?_, waiting := ?_,
    pending := ?_ }
  · have hsubset : (state.begin key).keys ⊆ insert key state.keys := by
      intro other hother
      rcases mem_keys.mp hother with ⟨cached, hcached, rfl⟩ | ⟨pending, hpending, rfl⟩
      · exact Finset.mem_insert_of_mem (mem_keys_of_cached hcached)
      · rcases Table.mem_save.mp hpending with rfl | ⟨hold, -⟩
        · exact Finset.mem_insert_self _ _
        · exact Finset.mem_insert_of_mem (mem_keys_of_pending hold)
    exact (Finset.card_le_card hsubset).trans ((Finset.card_insert_le _ _).trans hcapacity)
  · intro other found hfound
    change (state.inflight.save ⟨key, state.next⟩).find found = _
    rw [Table.find_save]
    rcases htasks other _ hfound with ⟨rfl, heq⟩ | hold
    · cases heq
      exact if_pos rfl
    · have hpending := hcoherent.running other found hold
      have hne : found ≠ key := by
        rintro rfl
        rw [hnone] at hpending
        cases hpending
      rwa [if_neg hne]
  · intro other hother
    have hlt : state.next < other := hother
    change Function.update state.tasks state.next (some ⟨key, none⟩) other = none
    rw [Function.update_of_ne hlt.ne']
    exact hcoherent.fresh other hlt.le
  · intro gathered hgathered
    rw [show (state.begin key).closings = state.closings from rfl, hcoherent.unclosed hopen]
      at hgathered
    exact absurd hgathered List.not_mem_nil
  · intro other found returned hfound
    rcases htasks other _ hfound with ⟨-, heq⟩ | hold
    · cases heq
    · exact hcoherent.returned other found returned hold
  · intro other waiting hwaiting
    obtain ⟨hscope, outcome, htask⟩ := hcoherent.waiting other waiting hwaiting
    refine ⟨hscope, outcome, ?_⟩
    have hne : waiting.task ≠ state.next := by
      intro heq
      rw [heq, hnew] at htask
      cases htask
    exact (Function.update_of_ne hne _ _).trans htask
  · intro pending hpending
    rcases Table.mem_save.mp hpending with rfl | ⟨hold, -⟩
    · exact ⟨none, Function.update_self _ _ _⟩
    · obtain ⟨outcome, htask⟩ := hcoherent.pending pending hold
      refine ⟨outcome, ?_⟩
      have hne : pending.task ≠ state.next := by
        intro heq
        rw [heq, hnew] at htask
        cases htask
      exact (Function.update_of_ne hne _ _).trans htask

/-- A call with its key up to the lookup that it waits for. -/
theorem admit_advances (hordered : Along (InOrder membership) trace)
    (hcoherent : Coherent membership trace state) (hopen : state.closed = false)
    (hscope : membership.scope call = .ok key) :
    Advances membership trace ( membership.admit state id call key).1
      ( membership.admit state id call key).2 := by
  have hevicted := hcoherent.evict
  unfold ConnectionMembership.admit
  dsimp only
  cases hcached : state.evict.cache.find key with
  | some cached =>
    obtain ⟨hmem, rfl⟩ := Table.find_eq_some_iff.mp hcached
    obtain ⟨⟨time, expiry, hlast, hexpires, hexpiry⟩, hname⟩ := hevicted.cached cached hmem
    -- What the eviction left expires after the time of this step.
    have hfresh : state.now < cached.expiry := by simpa using (Table.mem_filter.mp hmem).2
    have hserved : InOrder membership trace (.served cached.key cached.evidence state.now) :=
      ⟨time, expiry, hlast, hexpires, hexpiry ▸ hfresh⟩
    have hnext := hevicted.snoc (rfl : (MembershipEffect.served cached.key cached.evidence
      state.now).isQuiet = true)
    obtain ⟨hquiet, hconcluded⟩ := @conclude_inOrder membership _ _ id _ call _ hnext hscope hname
    refine ⟨?_, ?_⟩
    · have hlater := hnext.snoc hquiet
      rwa [List.append_assoc] at hlater
    · have hlater := (hordered.snoc hserved).snoc hconcluded
      rwa [List.append_assoc] at hlater
  | none =>
    dsimp only
    cases hpending : state.evict.inflight.find key with
    | some pending =>
      obtain ⟨hmem, rfl⟩ := Table.find_eq_some_iff.mp hpending
      obtain ⟨outcome, htask⟩ := hevicted.pending pending hmem
      exact advances_nil hordered (hevicted.wait hscope htask)
    | none =>
      dsimp only
      split_ifs with hcapacity
      · exact advances_quiet hordered hevicted rfl trivial
      · refine advances_nil hordered ?_
        have hbegun := hevicted.begin hopen hpending (Nat.lt_of_not_le hcapacity)
        exact hbegun.wait hscope (Function.update_self _ _ _)

theorem require_advances (hordered : Along (InOrder membership) trace)
    (hcoherent : Coherent membership trace state) :
    Advances membership trace (membership.require state id call).1
      (membership.require state id call).2 := by
  unfold ConnectionMembership.require
  split_ifs with hclosed
  · exact advances_quiet hordered hcoherent rfl trivial
  · cases hscope : membership.scope call with
    | error raised => exact advances_quiet hordered hcoherent rfl trivial
    | ok key => exact admit_advances hordered hcoherent (by simpa using hclosed) hscope

/-- A running lookup ends. -/
theorem Coherent.settle {outcome : LookupOutcome} (hcoherent : Coherent membership trace state)
    (htask : state.tasks task = some ⟨key, none⟩)
    (hname : ∀ evidence, outcome = .returned evidence → evidence.name = key.name) :
    Coherent membership trace (state.settle task key outcome) := by
  have htasks : ∀ other found, (state.settle task key outcome).tasks other = some found →
      (other = task ∧ found = ⟨key, some outcome⟩) ∨ state.tasks other = some found := by
    intro other found hfound
    change Function.update state.tasks task (some ⟨key, some outcome⟩) other = some found at hfound
    rw [Function.update_apply] at hfound
    split_ifs at hfound with hsame
    · exact .inl ⟨hsame, (Option.some.inj hfound).symm⟩
    · exact .inr hfound
  have hrunning : ∀ other found, (state.settle task key outcome).tasks other = some ⟨found, none⟩ →
      state.tasks other = some ⟨found, none⟩ := by
    intro other found hfound
    rcases htasks other _ hfound with ⟨-, heq⟩ | hold
    · cases heq
    · exact hold
  refine { hcoherent with
    running := ?_, fresh := ?_, gathered := ?_, returned := ?_, waiting := ?_, pending := ?_ }
  · exact fun other found hfound ↦ hcoherent.running other found (hrunning other found hfound)
  · intro other hother
    have hnone := hcoherent.fresh other hother
    have hne : other ≠ task := by
      rintro rfl
      rw [htask] at hnone
      cases hnone
    exact (Function.update_of_ne hne _ _).trans hnone
  · exact fun gathered hgathered other found hfound ↦
      hcoherent.gathered gathered hgathered other found (hrunning other found hfound)
  · intro other found returned hfound
    rcases htasks other _ hfound with ⟨-, heq⟩ | hold
    · cases heq
      exact hname returned rfl
    · exact hcoherent.returned other found returned hold
  · intro other waiting hwaiting
    obtain ⟨hscope, found, hfound⟩ := hcoherent.waiting other waiting hwaiting
    by_cases hsame : waiting.task = task
    · rw [hsame, htask] at hfound
      cases hfound
      exact ⟨hscope, some outcome, hsame ▸ Function.update_self _ _ _⟩
    · exact ⟨hscope, found, (Function.update_of_ne hsame _ _).trans hfound⟩
  · intro pending hpending
    obtain ⟨found, hfound⟩ := hcoherent.pending pending hpending
    by_cases hsame : pending.task = task
    · rw [hsame, htask] at hfound
      cases hfound
      exact ⟨some outcome, hsame ▸ Function.update_self _ _ _⟩
    · exact ⟨found, (Function.update_of_ne hsame _ _).trans hfound⟩

/-- Evidence of a running lookup is cached. -/
theorem Coherent.insert {expiry : ℚ} (hcoherent : Coherent membership trace state)
    (htask : state.tasks task = some ⟨key, none⟩) (hexpires : evidence.expiresAt = some expiry)
    (hname : evidence.name = key.name) :
    Coherent membership (trace ++ [.inserted key evidence state.now])
      (membership.insert state key evidence expiry) := by
  refine { hcoherent with bounded := ?_, closed := ?_, cached := fun cached hcached ↦ ?_ }
  · -- The lookup is in flight, so that its key is there already.
    have hpending := (Table.find_eq_some_iff.mp (hcoherent.running task key htask)).1
    refine card_keys_le hcoherent.bounded (fun cached hcached ↦ ?_)
      fun pending hpending ↦ mem_keys_of_pending hpending
    rcases Table.mem_save.mp hcached with rfl | ⟨hold, -⟩
    · exact mem_keys_of_pending hpending
    · exact mem_keys_of_cached hold
  · rw [List.mem_append, ← hcoherent.closed]
    simp [ConnectionMembership.insert]
  · rcases Table.mem_save.mp hcached with rfl | ⟨hold, hne⟩
    · exact ⟨⟨state.now, expiry, lastInserted_inserted.trans (if_pos rfl), hexpires, rfl⟩, hname⟩
    · obtain ⟨⟨time, other, hlast, hother⟩, hcachedName⟩ := hcoherent.cached cached hold
      refine ⟨⟨time, other, ?_, hother⟩, hcachedName⟩
      rw [lastInserted_inserted, if_neg fun heq ↦ hne heq.symm, hlast]

theorem lookedUp_advances {answer : Except Raised ResolutionEvidence}
    (hordered : Along (InOrder membership) trace) (hcoherent : Coherent membership trace state) :
    Advances membership trace (membership.lookedUp state task answer).1
      (membership.lookedUp state task answer).2 := by
  unfold ConnectionMembership.lookedUp
  split
  · next key htask =>
    have hfails : ∀ raised, Coherent membership trace (state.settle task key (.raised raised)) :=
      fun raised ↦ hcoherent.settle htask fun _ heq ↦ by cases heq
    cases answer with
    | error raised => exact advances_nil hordered (hfails raised)
    | ok evidence =>
      dsimp only
      cases hchecked : membership.checkEvidence key evidence with
      | error raised => exact advances_nil hordered (hfails raised)
      | ok expiry =>
        obtain ⟨hexpires, hname⟩ := checkEvidence_spec hchecked
        have hreturned : ∀ returned, LookupOutcome.returned evidence = .returned returned →
            returned.name = key.name := by
          rintro returned heq
          cases heq
          exact hname
        dsimp only
        split_ifs
        · refine ⟨?_, hordered.snoc trivial⟩
          exact (hcoherent.insert htask hexpires hname).settle htask hreturned
        · exact advances_nil hordered (hcoherent.settle htask hreturned)
  · exact advances_nil hordered hcoherent

theorem Coherent.abandon (hcoherent : Coherent membership trace state) :
    Coherent membership trace (state.abandon task) := by
  unfold MembershipState.abandon
  split
  · next key htask => exact hcoherent.settle htask fun _ heq ↦ by cases heq
  · exact hcoherent

/-- The callback of a finished lookup takes it out of flight, and no running one. -/
theorem Coherent.finish (hcoherent : Coherent membership trace state) :
    Coherent membership trace (state.finish task) := by
  unfold MembershipState.finish
  split
  · next key outcome htask =>
    refine { hcoherent with bounded := ?_, running := ?_, pending := ?_ }
    · exact card_keys_le hcoherent.bounded (fun cached hcached ↦ mem_keys_of_cached hcached)
        fun pending hpending ↦ mem_keys_of_pending (Table.mem_filter.mp hpending).1
    · intro other found hfound
      have hne : other ≠ task := by
        rintro rfl
        rw [htask] at hfound
        cases hfound
      rw [Table.find_filter, hcoherent.running other found hfound]
      simp [hne]
    · exact fun pending hpending ↦ hcoherent.pending pending (Table.mem_filter.mp hpending).1
  · exact hcoherent

theorem resume_advances (hordered : Along (InOrder membership) trace)
    (hcoherent : Coherent membership trace state) :
    Advances membership trace (state.resume id).1 (state.resume id).2 := by
  unfold MembershipState.resume
  cases hcall : state.calls id with
  | none => exact advances_nil hordered hcoherent
  | some waiting =>
    obtain ⟨hscope, outcome, htask⟩ := hcoherent.waiting id waiting hcall
    dsimp only
    rw [htask, Option.bind_some]
    cases outcome with
    | none => exact advances_nil hordered hcoherent
    | some outcome =>
      cases outcome with
      | returned evidence =>
        have hname := hcoherent.returned waiting.task waiting.key evidence htask
        obtain ⟨hquiet, horder⟩ := @conclude_inOrder membership _ _ id _ _ _ hcoherent hscope hname
        exact advances_quiet hordered hcoherent.leave hquiet horder
      | raised raised => exact advances_quiet hordered hcoherent.leave rfl trivial
      | cancelled => exact advances_nil hordered hcoherent.leave

/-- Closing begins, and gathers all running lookups. -/
theorem close_advances (hordered : Along (InOrder membership) trace)
    (hcoherent : Coherent membership trace state) :
    Advances membership trace state.close [.closing] := by
  refine ⟨?_, hordered.snoc trivial⟩
  refine { hcoherent with gathered := ?_, unclosed := ?_, closed := ?_, cached := ?_ }
  · intro gathered hgathered other found hfound
    rcases List.mem_append.mp hgathered with hold | hnew
    · exact hcoherent.gathered gathered hold other found hfound
    · rw [List.mem_singleton.mp hnew]
      have hpending := (Table.find_eq_some_iff.mp (hcoherent.running other found hfound)).1
      exact List.mem_map_of_mem hpending
  · intro hopen
    cases hopen
  · simp [MembershipState.close]
  · intro cached hcached
    obtain ⟨⟨time, expiry, hlast, hexpiry⟩, hname⟩ := hcoherent.cached cached hcached
    exact ⟨⟨time, expiry, lastInserted_closing.trans hlast, hexpiry⟩, hname⟩

/-- Once all gathered lookups ended, none is running. -/
theorem Coherent.clear {gathered : List ℕ} (hcoherent : Coherent membership trace state) :
    Coherent membership trace (state.clear gathered) := by
  unfold MembershipState.clear
  split_ifs with hdone
  · obtain ⟨hgathered, hall⟩ := hdone
    have hnone : ∀ other found, state.tasks other ≠ some ⟨found, none⟩ := by
      intro other found hfound
      have hmem := hcoherent.gathered gathered hgathered other found hfound
      have hended := List.all_eq_true.mp hall other hmem
      simp [MembershipState.isDone, hfound] at hended
    refine { hcoherent with
      bounded := ?_, running := ?_, gathered := ?_, unclosed := ?_, cached := ?_, pending := ?_ }
    · exact Nat.zero_le _
    · exact fun other found hfound ↦ absurd hfound (hnone other found)
    · exact fun _ _ other found hfound ↦ absurd hfound (hnone other found)
    · intro hopen
      rw [hcoherent.unclosed hopen] at hgathered
      exact absurd hgathered List.not_mem_nil
    · exact fun cached hcached ↦ absurd hcached Table.not_mem_empty
    · exact fun pending hpending ↦ absurd hpending Table.not_mem_empty
  · exact hcoherent

/-- What a step keeps. -/
theorem step_advances {input : MembershipInput} (hordered : Along (InOrder membership) trace)
    (hcoherent : Coherent membership trace state) :
    Advances membership trace (membership.step state input).1 (membership.step state input).2 := by
  cases input with
  | tick now => exact advances_nil hordered { hcoherent with }
  | require id call =>
    unfold ConnectionMembership.step
    dsimp only
    split
    · exact advances_nil hordered hcoherent
    · exact require_advances hordered hcoherent
  | lookedUp task answer => exact lookedUp_advances hordered hcoherent
  | abandon task => exact advances_nil hordered hcoherent.abandon
  | finish task => exact advances_nil hordered hcoherent.finish
  | resume id => exact resume_advances hordered hcoherent
  | cancel id => exact advances_nil hordered hcoherent.leave
  | close => exact close_advances hordered hcoherent
  | clear gathered => exact advances_nil hordered hcoherent.clear

/-- A new connection fits to no effects. -/
theorem coherent_initial : Coherent membership [] .initial where
  bounded := Nat.zero_le _
  running := fun _ _ hnone ↦ by cases hnone
  fresh := fun _ _ ↦ rfl
  gathered := fun _ hgathered ↦ absurd hgathered List.not_mem_nil
  unclosed := fun _ ↦ rfl
  closed := by simp [MembershipState.initial]
  cached := fun _ hcached ↦ absurd hcached Table.not_mem_empty
  returned := fun _ _ _ hnone ↦ by cases hnone
  waiting := fun _ _ hnone ↦ by cases hnone
  pending := fun _ hpending ↦ absurd hpending Table.not_mem_empty

end Steps

/-! ### The main result -/

/-- In every run the names are bounded, one lookup runs for a key, cached evidence is used while it is
fresh, and a call succeeds before closing and with its address and port in the evidence. -/
theorem membership_safe (membership : ConnectionMembership) (inputs : List MembershipInput) :
    SafeMembership membership (membership.run inputs).1 (membership.run inputs).2 := by
  have hrun : Coherent membership (membership.run inputs).2 (membership.run inputs).1 ∧
      Along (InOrder membership) (membership.run inputs).2 := by
    refine run_induction
      (fun _ state trace ↦ Coherent membership trace state ∧ Along (InOrder membership) trace)
      ⟨coherent_initial, .nil⟩ ?_ inputs
    intro _ input before effects hbefore
    obtain ⟨hcoherent, hordered⟩ := @step_advances membership effects before input hbefore.2 hbefore.1
    exact ⟨hcoherent, hordered⟩
  obtain ⟨hcoherent, hordered⟩ := hrun
  refine ⟨hcoherent.bounded, Finset.card_image_le.trans hcoherent.bounded, ?_, hordered⟩
  intro first second key hfirst hsecond
  have hpending := hcoherent.running first key hfirst
  rw [hcoherent.running second key hsecond] at hpending
  exact (congrArg PendingLookup.task (Option.some.inj hpending)).symm

end Ads.SandboxEgress
