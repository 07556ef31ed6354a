import Ads.Foundation.Runs
import Mathlib.Data.List.Range

/-!
# The shared consumer group of the managers

The replicas of the manager share a consumer group. Each replica remembers in `SubscriptionReady`
the next offset of every partition it has had, and `_consume` dispatches what the consumer delivers.
No offset is committed: a replica that gets a partition for the first time seeks to the end, one
that had it before seeks to what it remembers.

The group is the environment: it takes partitions from replicas and gives them to replicas, each to
one at a time, and logs grow. A callback treats its partitions independently of each other, so a
step is about one partition. The fields `complete` and `topics`, which only `wait` reads, have no
part in the state.
-/

set_option autoImplicit false
set_option relaxedAutoImplicit false

namespace Ads.ManagerKafka.Group

open Foundation.Runs

variable {R P : Type}

/-! ### The listener -/

/-- `SubscriptionReady`. -/
structure SubscriptionReady (P : Type) where
  /-- `seen`. -/
  seen : P → Bool
  /-- `positions`. -/
  positions : P → Option ℕ

variable [DecidableEq P]

/-- `on_partitions_revoked` for one partition. The consumer gives its position or raises
`IllegalStateError`. -/
def SubscriptionReady.revoked (listener : SubscriptionReady P) (partition : P)
    (position : Option ℕ) : SubscriptionReady P :=
  match position with
  | some offset =>
    { listener with positions := Function.update listener.positions partition (some offset) }
  | none => listener

/-- `on_partitions_assigned` for one partition, with its end offset, and the offset it seeks to. -/
def SubscriptionReady.assigned (listener : SubscriptionReady P) (partition : P) (endOffset : ℕ) :
    SubscriptionReady P × Option ℕ :=
  if listener.seen partition then (listener, listener.positions partition)
  else
    ({ seen := Function.update listener.seen partition true
       positions := Function.update listener.positions partition (some endOffset) },
      some endOffset)

theorem SubscriptionReady.assigned_of_seen {listener : SubscriptionReady P} {partition : P}
    (hseen : listener.seen partition = true) (endOffset : ℕ) :
    listener.assigned partition endOffset = (listener, listener.positions partition) :=
  if_pos hseen

theorem SubscriptionReady.assigned_of_new {listener : SubscriptionReady P} {partition : P}
    (hseen : listener.seen partition = false) (endOffset : ℕ) :
    listener.assigned partition endOffset =
      ({ seen := Function.update listener.seen partition true
         positions := Function.update listener.positions partition (some endOffset) },
        some endOffset) := by
  rw [SubscriptionReady.assigned, if_neg (by rw [hseen]; exact Bool.false_ne_true)]

/-- `_consume` before it dispatches a record. -/
def SubscriptionReady.delivered (listener : SubscriptionReady P) (partition : P) (offset : ℕ) :
    SubscriptionReady P :=
  { listener with positions := Function.update listener.positions partition (some (offset + 1)) }

/-! ### The group -/

/-- The logs, the assignment and the replicas. -/
structure State (R P : Type) where
  /-- The end of the log of each partition. -/
  ends : P → ℕ
  /-- The owner of each partition. -/
  owner : P → Option R
  /-- The position of each consumer. -/
  position : R → P → ℕ
  /-- The listener of each replica. -/
  listener : R → SubscriptionReady P

/-- `controller.on_message` is called for a record. -/
structure Dispatch (R P : Type) where
  /-- The replica. -/
  replica : R
  /-- The partition of the record. -/
  partition : P
  /-- Its offset. -/
  offset : ℕ
deriving DecidableEq

/-- A step of the group or of a replica. -/
inductive Input (R P : Type)
  /-- A record is appended. -/
  | append (partition : P)
  /-- A partition without owner goes to a replica. -/
  | assign (replica : R) (partition : P)
  /-- A partition is taken from its owner, whose consumer still knows its position or not. -/
  | revoke (replica : R) (partition : P) (known : Bool)
  /-- The consumer of the owner delivers the next record. -/
  | deliver (replica : R) (partition : P)
deriving DecidableEq

variable [DecidableEq R]

/-- One step. What the group does not do leaves everything as it is. -/
def step (state : State R P) : Input R P → State R P × List (Dispatch R P)
  | .append partition =>
    ({ state with ends := Function.update state.ends partition (state.ends partition + 1) }, [])
  | .assign replica partition =>
    if state.owner partition ≠ none then (state, [])
    else
      let (listener, sought) :=
        (state.listener replica).assigned partition (state.ends partition)
      ({ state with
          owner := Function.update state.owner partition (some replica)
          position := Function.update state.position replica
            (Function.update (state.position replica) partition
              (sought.getD (state.ends partition)))
          listener := Function.update state.listener replica listener }, [])
  | .revoke replica partition known =>
    if state.owner partition ≠ some replica then (state, [])
    else
      ({ state with
          owner := Function.update state.owner partition none
          listener := Function.update state.listener replica
            ((state.listener replica).revoked partition
              (if known then some (state.position replica partition) else none)) }, [])
  | .deliver replica partition =>
    let offset := state.position replica partition
    if state.owner partition ≠ some replica ∨ state.ends partition ≤ offset then (state, [])
    else
      ({ state with
          position := Function.update state.position replica
            (Function.update (state.position replica) partition (offset + 1))
          listener := Function.update state.listener replica
            ((state.listener replica).delivered partition offset) },
        [⟨replica, partition, offset⟩])

/-- Replicas that have not had a partition. -/
def start (ends : P → ℕ) : State R P where
  ends
  owner := fun _ ↦ none
  position := fun _ _ ↦ 0
  listener := fun _ ↦ ⟨fun _ ↦ false, fun _ ↦ none⟩

/-! ### What the claim says of a run -/

/-- No record is dispatched more than once over all replicas. -/
def Once (trace : List (Dispatch R P)) : Prop :=
  (trace.map fun dispatch ↦ (dispatch.partition, dispatch.offset)).Nodup

instance (trace : List (Dispatch R P)) : Decidable (Once trace) :=
  inferInstanceAs (Decidable (List.Nodup _))

/-- The dispatches of a partition. -/
def ofPartition (partition : P) (trace : List (Dispatch R P)) :
    List (Dispatch R P) :=
  trace.filter fun dispatch ↦ dispatch.partition = partition

/-- What a replica dispatches of a partition while nobody else has it, between two moments at which
it owns the partition: every record from its position on, in order. -/
def NoneSkipped (ends : P → ℕ) (before during : List (Input R P)) : Prop :=
  ∀ replica partition,
    let first := (runFrom step (start ends) before).1
    let second := (runFrom step first during).1
    first.owner partition = some replica →
    (∀ other, .assign other partition ∈ during → other = replica) →
    second.owner partition = some replica →
    first.position replica partition ≤ second.position replica partition ∧
      ofPartition partition (runFrom step first during).2 =
        (List.range' (first.position replica partition)
          (second.position replica partition - first.position replica partition)).map
          fun offset ↦ ⟨replica, partition, offset⟩

/-- A free partition goes to a replica that remembers an offset past every record dispatched from
it, or has not had it. -/
def UpToDate (trace : List (Dispatch R P)) (state : State R P) : Input R P → Prop
  | .assign replica partition =>
    state.owner partition = none → (state.listener replica).seen partition = true →
      ∀ next, (state.listener replica).positions partition = some next →
        ∀ dispatch ∈ trace, dispatch.partition = partition → dispatch.offset < next
  | _ => True

/-- Every step of a run is up to date. -/
def AllUpToDate (ends : P → ℕ) (inputs : List (Input R P)) : Prop :=
  ∀ before input after, inputs = before ++ input :: after →
    UpToDate (runFrom step (start ends) before).2 (runFrom step (start ends) before).1 input

/-! ### The invariant -/

/-- One entry of a table of tables is set. -/
theorem update_update (table : R → P → ℕ) (replica other : R) (partition partition' : P)
    (value : ℕ) :
    Function.update table replica (Function.update (table replica) partition value) other
        partition' =
      if other = replica ∧ partition' = partition then value else table other partition' := by
  by_cases hreplica : other = replica
  · subst hreplica
    rw [Function.update_self, Function.update_apply]
    simp only [true_and]
  · rw [Function.update_of_ne hreplica, if_neg fun h ↦ hreplica h.1]

/-- What the replicas remember. -/
structure Sound (trace : List (Dispatch R P)) (state : State R P) : Prop where
  /-- The owner of a partition remembers its position, which is in the log. -/
  owned : ∀ replica partition, state.owner partition = some replica →
    (state.listener replica).seen partition = true ∧
      (state.listener replica).positions partition = some (state.position replica partition) ∧
      state.position replica partition ≤ state.ends partition
  /-- A replica remembers an offset of every partition it has seen. -/
  remembered : ∀ replica partition, (state.listener replica).seen partition = true →
    ∃ next, (state.listener replica).positions partition = some next ∧
      next ≤ state.ends partition
  /-- What was dispatched is in the log. -/
  logged : ∀ dispatch ∈ trace, dispatch.offset < state.ends dispatch.partition

/-- The owner of a partition is past everything dispatched from it, and nothing was dispatched
twice. -/
structure Past (trace : List (Dispatch R P)) (state : State R P) : Prop where
  /-- The owner is past everything dispatched. -/
  past : ∀ replica partition, state.owner partition = some replica →
    ∀ dispatch ∈ trace, dispatch.partition = partition →
      dispatch.offset < state.position replica partition
  /-- No record was dispatched twice. -/
  once : Once trace

omit [DecidableEq P] [DecidableEq R] in
/-- The replicas that have not had a partition remember nothing. -/
theorem sound_start (ends : P → ℕ) : Sound (R := R) [] (start ends) :=
  ⟨nofun, nofun, nofun⟩

omit [DecidableEq R] in
/-- An owner that gives a partition up remembers what it remembered before: the position that the
consumer may give is the one that is remembered. -/
theorem Sound.revoked_eq {trace : List (Dispatch R P)} {state : State R P}
    (hsound : Sound trace state) {replica : R} {partition : P}
    (howner : state.owner partition = some replica) (known : Bool) :
    (state.listener replica).revoked partition
        (if known then some (state.position replica partition) else none) =
      state.listener replica := by
  cases known with
  | false => rfl
  | true =>
    have hposition := (hsound.owned replica partition howner).2.1
    rw [if_pos rfl, SubscriptionReady.revoked, ← hposition, Function.update_eq_self]

/-- One step keeps what the replicas remember. -/
theorem Sound.step {trace : List (Dispatch R P)} {state : State R P} (hsound : Sound trace state)
    (input : Input R P) :
    Sound (trace ++ (Group.step state input).2) (Group.step state input).1 := by
  cases input with
  | append partition =>
    have hgrow : ∀ other, state.ends other ≤
        Function.update state.ends partition (state.ends partition + 1) other := by
      intro other
      by_cases h : other = partition
      · subst h
        rw [Function.update_self]
        exact Nat.le_succ _
      · rw [Function.update_of_ne h]
    rw [show (Group.step state (.append partition)).2 = [] from rfl, List.append_nil]
    refine ⟨fun replica other howner ↦ ?_, fun replica other hseen ↦ ?_, fun dispatch hmem ↦ ?_⟩
    · obtain ⟨hseen, hposition, hle⟩ := hsound.owned replica other howner
      exact ⟨hseen, hposition, hle.trans (hgrow other)⟩
    · obtain ⟨next, hnext, hle⟩ := hsound.remembered replica other hseen
      exact ⟨next, hnext, hle.trans (hgrow other)⟩
    · exact (hsound.logged dispatch hmem).trans_le (hgrow dispatch.partition)
  | assign replica partition =>
    unfold Group.step
    dsimp only
    split_ifs with howner
    · rw [List.append_nil]
      exact hsound
    · rw [List.append_nil]
      have howned := hsound.owned
      have hremembered := hsound.remembered
      cases hseen : (state.listener replica).seen partition with
      | true =>
        rw [SubscriptionReady.assigned_of_seen hseen, Function.update_eq_self]
        obtain ⟨next, hnext, hle⟩ := hremembered replica partition hseen
        refine ⟨fun other partition' howner' ↦ ?_, fun other partition' hseen' ↦ ?_,
          hsound.logged⟩
        · dsimp only at howner' ⊢
          rw [update_update]
          grind [Function.update_apply]
        · dsimp only at hseen' ⊢
          grind [Function.update_apply]
      | false =>
        rw [SubscriptionReady.assigned_of_new hseen]
        refine ⟨fun other partition' howner' ↦ ?_, fun other partition' hseen' ↦ ?_,
          hsound.logged⟩
        · dsimp only at howner' ⊢
          rw [update_update]
          by_cases hother : other = replica
          · subst hother
            rw [Function.update_self]
            grind [Function.update_apply]
          · rw [Function.update_of_ne hother]
            grind [Function.update_apply]
        · dsimp only at hseen' ⊢
          by_cases hother : other = replica
          · subst hother
            rw [Function.update_self] at hseen' ⊢
            grind [Function.update_apply]
          · rw [Function.update_of_ne hother] at hseen' ⊢
            exact hremembered other partition' hseen'
  | revoke replica partition known =>
    unfold Group.step
    dsimp only
    by_cases howner : state.owner partition = some replica
    · rw [if_neg (not_not.mpr howner), hsound.revoked_eq howner, Function.update_eq_self,
        List.append_nil]
      refine ⟨fun other partition' howner' ↦ ?_, hsound.remembered, hsound.logged⟩
      dsimp only at howner'
      by_cases h : partition' = partition
      · subst h
        rw [Function.update_self] at howner'
        cases howner'
      · rw [Function.update_of_ne h] at howner'
        exact hsound.owned other partition' howner'
    · rw [if_pos howner, List.append_nil]
      exact hsound
  | deliver replica partition =>
    unfold Group.step
    dsimp only
    by_cases hdeliver : state.owner partition ≠ some replica ∨
        state.ends partition ≤ state.position replica partition
    · rw [if_pos hdeliver, List.append_nil]
      exact hsound
    · rw [if_neg hdeliver]
      obtain ⟨howner, hend⟩ := not_or.mp hdeliver
      have howned := hsound.owned
      have hremembered := hsound.remembered
      refine ⟨fun other partition' howner' ↦ ?_, fun other partition' hseen ↦ ?_,
        fun dispatch hmem ↦ ?_⟩
      · dsimp only at howner' ⊢
        rw [update_update]
        by_cases hother : other = replica
        · subst hother
          rw [Function.update_self, SubscriptionReady.delivered]
          grind [Function.update_apply]
        · rw [Function.update_of_ne hother, if_neg fun h ↦ hother h.1]
          exact howned other partition' howner'
      · dsimp only at hseen ⊢
        by_cases hother : other = replica
        · subst hother
          rw [Function.update_self, SubscriptionReady.delivered] at hseen ⊢
          grind [Function.update_apply]
        · rw [Function.update_of_ne hother] at hseen ⊢
          exact hremembered other partition' hseen
      · rcases List.mem_append.mp hmem with hold | hnew
        · exact hsound.logged dispatch hold
        · obtain rfl := List.mem_singleton.mp hnew
          exact not_le.mp hend

/-- The invariant holds after every run. -/
theorem sound_run (ends : P → ℕ) (inputs : List (Input R P)) :
    Sound (runFrom step (start ends) inputs).2 (runFrom step (start ends) inputs).1 :=
  run_induction (fun _ state trace ↦ Sound trace state) (sound_start ends)
    (fun _ input _ _ hsound ↦ hsound.step input) inputs

/-! ### Nothing is dispatched twice -/

/-- An up-to-date step keeps the owners past what was dispatched. -/
theorem Past.step {trace : List (Dispatch R P)} {state : State R P} (hpast : Past trace state)
    (hsound : Sound trace state) {input : Input R P} (hinput : UpToDate trace state input) :
    Past (trace ++ (Group.step state input).2) (Group.step state input).1 := by
  cases input with
  | append partition =>
    rw [show (Group.step state (.append partition)).2 = [] from rfl, List.append_nil]
    exact ⟨hpast.past, hpast.once⟩
  | assign replica partition =>
    unfold Group.step
    dsimp only
    by_cases hfree : state.owner partition = none
    · rw [if_neg (not_not.mpr hfree), List.append_nil]
      refine ⟨fun other partition' howner dispatch hmem hof ↦ ?_, hpast.once⟩
      dsimp only at howner ⊢
      rw [update_update]
      by_cases hpartition : partition' = partition
      · subst hpartition
        rw [Function.update_self] at howner
        obtain rfl := Option.some.inj howner
        rw [if_pos ⟨rfl, rfl⟩]
        cases hseen : (state.listener replica).seen partition' with
        | true =>
          obtain ⟨next, hnext, -⟩ := hsound.remembered replica partition' hseen
          rw [SubscriptionReady.assigned_of_seen hseen, hnext]
          exact hinput hfree hseen next hnext dispatch hmem hof
        | false =>
          rw [SubscriptionReady.assigned_of_new hseen]
          exact hof ▸ hsound.logged dispatch hmem
      · rw [Function.update_of_ne hpartition] at howner
        rw [if_neg fun h ↦ hpartition h.2]
        exact hpast.past other partition' howner dispatch hmem hof
    · rw [if_pos hfree, List.append_nil]
      exact hpast
  | revoke replica partition known =>
    unfold Group.step
    dsimp only
    by_cases howner : state.owner partition = some replica
    · rw [if_neg (not_not.mpr howner), List.append_nil]
      refine ⟨fun other partition' howner' ↦ ?_, hpast.once⟩
      dsimp only at howner'
      by_cases h : partition' = partition
      · subst h
        rw [Function.update_self] at howner'
        cases howner'
      · rw [Function.update_of_ne h] at howner'
        exact hpast.past other partition' howner'
    · rw [if_pos howner, List.append_nil]
      exact hpast
  | deliver replica partition =>
    unfold Group.step
    dsimp only
    by_cases hdeliver : state.owner partition ≠ some replica ∨
        state.ends partition ≤ state.position replica partition
    · rw [if_pos hdeliver, List.append_nil]
      exact hpast
    · rw [if_neg hdeliver]
      have howner := not_not.mp (not_or.mp hdeliver).1
      have hbefore := hpast.past replica partition howner
      constructor
      · intro other partition' howner' dispatch hmem hof
        dsimp only at howner' ⊢
        rw [update_update]
        by_cases hpartition : partition' = partition
        · subst hpartition
          obtain rfl : replica = other := Option.some.inj (howner.symm.trans howner')
          rw [if_pos ⟨rfl, rfl⟩]
          rcases List.mem_append.mp hmem with hold | hnew
          · exact Nat.lt_succ_of_lt (hbefore dispatch hold hof)
          · obtain rfl := List.mem_singleton.mp hnew
            exact Nat.lt_succ_self _
        · rw [if_neg fun h ↦ hpartition h.2]
          rcases List.mem_append.mp hmem with hold | hnew
          · exact hpast.past other partition' howner' dispatch hold hof
          · obtain rfl := List.mem_singleton.mp hnew
            exact absurd hof.symm hpartition
      · unfold Once
        rw [List.map_append, List.map_singleton, List.nodup_append]
        refine ⟨hpast.once, by simp, fun earlier hearlier last hlast ↦ ?_⟩
        obtain ⟨dispatch, hmem, rfl⟩ := List.mem_map.mp hearlier
        obtain rfl := List.mem_singleton.mp hlast
        intro hsame
        obtain ⟨hof, hoffset⟩ := Prod.mk.inj hsame
        exact (hbefore dispatch hmem hof).ne hoffset

/-- A run whose steps are all up to date dispatches nothing twice. -/
theorem once_of_allUpToDate {ends : P → ℕ} {inputs : List (Input R P)}
    (hinputs : AllUpToDate ends inputs) : Once (runFrom step (start ends) inputs).2 := by
  have hpast : ∀ before after, inputs = before ++ after →
      Past (runFrom step (start ends) before).2 (runFrom step (start ends) before).1 := by
    intro before
    induction before using List.reverseRecOn with
    | nil => exact fun _ _ ↦ ⟨nofun, List.nodup_nil⟩
    | append_singleton before input ih =>
      intro after hsplit
      rw [List.append_assoc, List.singleton_append] at hsplit
      rw [runFrom_snoc]
      exact (ih (input :: after) hsplit).step (sound_run ends before) (hinputs before input after hsplit)
  exact (hpast inputs [] (List.append_nil inputs).symm).once

/-! ### Nothing is skipped -/

/-- The replica has the partition, or nobody has it and the replica had it last; it goes on at an
offset. -/
def Held (state : State R P) (replica : R) (partition : P) (next : ℕ) : Prop :=
  state.owner partition = some replica ∧ state.position replica partition = next ∨
    state.owner partition = none ∧ (state.listener replica).seen partition = true ∧
      (state.listener replica).positions partition = some next

/-- The partition a step is about. -/
def Input.partition : Input R P → P
  | .append partition | .assign _ partition | .revoke _ partition _ | .deliver _ partition =>
    partition

/-- A step about one partition leaves what concerns another one as it is. -/
theorem step_frame (state : State R P) {input : Input R P} {partition : P}
    (hother : input.partition ≠ partition) (replica : R) :
    (Group.step state input).1.owner partition = state.owner partition ∧
      (Group.step state input).1.position replica partition = state.position replica partition ∧
      ((Group.step state input).1.listener replica).seen partition =
        (state.listener replica).seen partition ∧
      ((Group.step state input).1.listener replica).positions partition =
        (state.listener replica).positions partition ∧
      ofPartition partition (Group.step state input).2 = [] := by
  have hne : partition ≠ input.partition := hother.symm
  have hlistener : ∀ (acting : R) (listener : SubscriptionReady P),
      listener.seen partition = (state.listener acting).seen partition →
      listener.positions partition = (state.listener acting).positions partition →
      (Function.update state.listener acting listener replica).seen partition =
          (state.listener replica).seen partition ∧
        (Function.update state.listener acting listener replica).positions partition =
          (state.listener replica).positions partition := by
    intro acting listener hseen hpositions
    by_cases h : replica = acting
    · subst h
      rw [Function.update_self]
      exact ⟨hseen, hpositions⟩
    · rw [Function.update_of_ne h]
      exact ⟨rfl, rfl⟩
  cases input with
  | append other => exact ⟨rfl, rfl, rfl, rfl, rfl⟩
  | assign acting other =>
    replace hne : partition ≠ other := hne
    unfold Group.step
    dsimp only
    split_ifs
    · exact ⟨rfl, rfl, rfl, rfl, rfl⟩
    · have hkept := hlistener acting
        ((state.listener acting).assigned other (state.ends other)).1
        (by unfold SubscriptionReady.assigned; split_ifs <;> simp [hne])
        (by unfold SubscriptionReady.assigned; split_ifs <;> simp [hne])
      refine ⟨Function.update_of_ne hne .., ?_, hkept.1, hkept.2, rfl⟩
      exact (update_update ..).trans (if_neg fun h ↦ hne h.2)
  | revoke acting other known =>
    replace hne : partition ≠ other := hne
    unfold Group.step
    dsimp only
    split_ifs
    · exact ⟨rfl, rfl, rfl, rfl, rfl⟩
    all_goals
      have hkept := hlistener acting ((state.listener acting).revoked other
          (if known then some (state.position acting other) else none))
        (by unfold SubscriptionReady.revoked; split <;> rfl)
        (by unfold SubscriptionReady.revoked; split <;> simp [hne])
      simp only [*, if_true] at hkept
      exact ⟨Function.update_of_ne hne .., rfl, hkept.1, hkept.2, rfl⟩
  | deliver acting other =>
    replace hne : partition ≠ other := hne
    unfold Group.step
    dsimp only
    split_ifs
    · exact ⟨rfl, rfl, rfl, rfl, rfl⟩
    · have hkept := hlistener acting
        ((state.listener acting).delivered other (state.position acting other)) rfl
        (Function.update_of_ne hne ..)
      refine ⟨rfl, ?_, hkept.1, hkept.2, ?_⟩
      · exact (update_update ..).trans (if_neg fun h ↦ hne h.2)
      · simp [ofPartition, hne.symm]

/-- While no other replica gets the partition, a step dispatches nothing of it or the next
record. -/
theorem Held.step {trace : List (Dispatch R P)} {state : State R P} {replica : R} {partition : P}
    {next : ℕ} (hheld : Held state replica partition next) (hsound : Sound trace state)
    {input : Input R P} (hinput : ∀ other, input = .assign other partition → other = replica) :
    ∃ count, Held (Group.step state input).1 replica partition (next + count) ∧
      ofPartition partition (Group.step state input).2 =
        (List.range' next count).map fun offset ↦ ⟨replica, partition, offset⟩ := by
  by_cases hother : input.partition ≠ partition
  · obtain ⟨howner, hposition, hseen, hpositions, hnothing⟩ := step_frame state hother replica
    refine ⟨0, ?_, hnothing⟩
    unfold Held
    rw [howner, hposition, hseen, hpositions]
    exact hheld
  obtain rfl := not_not.mp hother
  cases input with
  | append partition => exact ⟨0, hheld, rfl⟩
  | assign acting partition =>
    obtain rfl := hinput acting rfl
    refine ⟨0, ?_, ?_⟩
    · unfold Group.step
      dsimp only
      rcases hheld with howned | ⟨hfree, hseen, hnext⟩
      · rw [if_pos (by rw [Input.partition] at howned; rw [howned.1]; exact nofun)]
        exact Or.inl howned
      · rw [Input.partition] at hfree hseen hnext
        rw [if_neg (not_not.mpr hfree), SubscriptionReady.assigned_of_seen hseen, hnext]
        refine Or.inl ⟨Function.update_self .., ?_⟩
        exact (update_update ..).trans (if_pos ⟨rfl, rfl⟩)
    · unfold Group.step
      dsimp only
      split_ifs <;> rfl
  | revoke acting partition known =>
    refine ⟨0, ?_, ?_⟩
    · unfold Group.step
      dsimp only
      by_cases howner : state.owner partition = some acting
      · rw [if_neg (not_not.mpr howner), hsound.revoked_eq howner, Function.update_eq_self]
        rcases hheld with ⟨howned, hnext⟩ | ⟨hfree, -⟩
        · obtain rfl : acting = replica := Option.some.inj (howner.symm.trans howned)
          obtain ⟨hseen, hposition, -⟩ := hsound.owned acting partition howner
          exact Or.inr ⟨Function.update_self .., hseen, hposition.trans (congrArg some hnext)⟩
        · rw [Input.partition, howner] at hfree
          cases hfree
      · rw [if_pos howner]
        exact hheld
    · unfold Group.step
      dsimp only
      split_ifs <;> rfl
  | deliver acting partition =>
    unfold Group.step
    dsimp only
    by_cases hdeliver : state.owner partition ≠ some acting ∨
        state.ends partition ≤ state.position acting partition
    · rw [if_pos hdeliver]
      exact ⟨0, hheld, rfl⟩
    · rw [if_neg hdeliver]
      have howner := not_not.mp (not_or.mp hdeliver).1
      rcases hheld with ⟨howned, hnext⟩ | ⟨hfree, -⟩
      · obtain rfl : acting = replica := Option.some.inj (howner.symm.trans howned)
        rw [Input.partition] at hnext
        refine ⟨1, Or.inl ⟨howner, ?_⟩, ?_⟩
        · exact (update_update ..).trans ((if_pos ⟨rfl, rfl⟩).trans (congrArg (· + 1) hnext))
        · simp [ofPartition, Input.partition, hnext]
      · rw [Input.partition, howner] at hfree
        cases hfree

/-- While no other replica gets the partition, a run dispatches the records of it in order from the
next one on. -/
theorem Held.run {trace : List (Dispatch R P)} {state : State R P} {replica : R} {partition : P}
    {next : ℕ} (hheld : Held state replica partition next) (hsound : Sound trace state)
    {inputs : List (Input R P)}
    (hinputs : ∀ other, .assign other partition ∈ inputs → other = replica) :
    ∃ count, Held (runFrom Group.step state inputs).1 replica partition (next + count) ∧
      ofPartition partition (runFrom Group.step state inputs).2 =
        (List.range' next count).map fun offset ↦ ⟨replica, partition, offset⟩ := by
  induction inputs generalizing state trace next with
  | nil => exact ⟨0, hheld, rfl⟩
  | cons input rest ih =>
    obtain ⟨first, hfirst, hdispatched⟩ := hheld.step hsound fun other hinput ↦
      hinputs other (hinput ▸ List.mem_cons_self)
    obtain ⟨second, hsecond, hlater⟩ := ih hfirst (hsound.step input) fun other hother ↦
      hinputs other (List.mem_cons_of_mem _ hother)
    refine ⟨first + second, ?_, ?_⟩
    · rw [runFrom_cons, ← Nat.add_assoc]
      exact hsecond
    · rw [runFrom_cons, ofPartition, List.filter_append, ← List.range'_append_1, List.map_append]
      exact congrArg₂ (· ++ ·) hdispatched hlater

/-- A replica that keeps or regains a partition which no other replica had in between skips none of
its records. -/
theorem noneSkipped (ends : P → ℕ) (before during : List (Input R P)) :
    NoneSkipped ends before during := by
  intro replica partition first second hfirst hduring hsecond
  obtain ⟨count, hheld, hdispatched⟩ :=
    Held.run (Or.inl ⟨hfirst, rfl⟩) (sound_run ends before) hduring
  rcases hheld with ⟨-, hposition⟩ | ⟨hfree, -⟩
  · change second.position replica partition = first.position replica partition + count at hposition
    rw [hposition, Nat.add_sub_cancel_left]
    exact ⟨Nat.le_add_right _ _, hdispatched⟩
  · exact (nomatch hfree.symm.trans hsecond)

/-! ### The group -/

/-- An owner may dispatch the log from its position on. -/
theorem deliver_many {state : State R P} {replica : R} {partition : P}
    (howner : state.owner partition = some replica) (count : ℕ)
    (hend : state.position replica partition + count ≤ state.ends partition) :
    (runFrom step state (List.replicate count (.deliver replica partition))).2 =
      (List.range' (state.position replica partition) count).map
        fun offset ↦ ⟨replica, partition, offset⟩ := by
  induction count generalizing state with
  | zero => rfl
  | succ count ih =>
    have hdeliver : ¬ (state.owner partition ≠ some replica ∨
        state.ends partition ≤ state.position replica partition) := by
      rw [not_or, not_not]
      exact ⟨howner, by omega⟩
    set moved : State R P := { state with
      position := Function.update state.position replica (Function.update
        (state.position replica) partition (state.position replica partition + 1))
      listener := Function.update state.listener replica
        ((state.listener replica).delivered partition (state.position replica partition)) }
      with hmoved
    have hstep : step state (.deliver replica partition) =
        (moved, [⟨replica, partition, state.position replica partition⟩]) := if_neg hdeliver
    have hposition : moved.position replica partition = state.position replica partition + 1 :=
      (update_update ..).trans (if_pos ⟨rfl, rfl⟩)
    have hends : moved.ends = state.ends := rfl
    rw [List.replicate_succ, runFrom_cons, hstep,
      @ih moved howner (by rw [hposition, hends]; omega), hposition, List.range'_succ,
      List.map_cons]
    rfl

/-- After a step that is not up to date a run can go on to dispatch a record twice. -/
theorem exists_twice {ends : P → ℕ} {inputs : List (Input R P)} {input : Input R P}
    (hstale : ¬ UpToDate (runFrom step (start ends) inputs).2 (runFrom step (start ends) inputs).1
      input) :
    ∃ more, ¬ Once (runFrom step (start ends) (inputs ++ input :: more)).2 := by
  cases input with
  | append partition => exact absurd trivial hstale
  | revoke replica partition known => exact absurd trivial hstale
  | deliver replica partition => exact absurd trivial hstale
  | assign replica partition =>
    unfold UpToDate at hstale
    simp only [not_forall, not_lt, exists_prop] at hstale
    obtain ⟨hfree, hseen, next, hnext, dispatch, hmem, rfl, hpast⟩ := hstale
    set state := (runFrom step (start ends) inputs).1 with hstate
    have hlogged := (sound_run ends inputs).logged dispatch hmem
    have hassign : step state (.assign replica dispatch.partition) =
        ({ state with
            owner := Function.update state.owner dispatch.partition (some replica)
            position := Function.update state.position replica
              (Function.update (state.position replica) dispatch.partition next) }, []) := by
      rw [step, if_neg (not_not.mpr hfree), SubscriptionReady.assigned_of_seen hseen]
      dsimp only
      rw [hnext, Function.update_eq_self]
      rfl
    set owned : State R P := { state with
      owner := Function.update state.owner dispatch.partition (some replica)
      position := Function.update state.position replica
        (Function.update (state.position replica) dispatch.partition next) } with howned
    have hposition : owned.position replica dispatch.partition = next :=
      (update_update ..).trans (if_pos ⟨rfl, rfl⟩)
    refine ⟨List.replicate (dispatch.offset + 1 - next) (.deliver replica dispatch.partition), ?_⟩
    have hend : owned.position replica dispatch.partition + (dispatch.offset + 1 - next) ≤
        owned.ends dispatch.partition := by
      rw [hposition, Nat.add_sub_cancel' (Nat.le_succ_of_le hpast)]
      exact hlogged
    have hdelivered := deliver_many (Function.update_self ..) (dispatch.offset + 1 - next) hend
    rw [runFrom_append, runFrom_cons, ← hstate, hassign, List.nil_append, hdelivered, hposition]
    -- The record is among the dispatches of the run and among the new ones.
    unfold Once
    rw [List.map_append, List.nodup_append]
    rintro ⟨-, -, hdisjoint⟩
    refine hdisjoint (dispatch.partition, dispatch.offset) (List.mem_map_of_mem hmem)
      (dispatch.partition, dispatch.offset) ?_ rfl
    refine List.mem_map.mpr ⟨⟨replica, dispatch.partition, dispatch.offset⟩, ?_, rfl⟩
    refine List.mem_map.mpr ⟨dispatch.offset, List.mem_range'_1.mpr ⟨hpast, ?_⟩, rfl⟩
    omega

/-- Over all replicas no record is dispatched twice in a run whose assignments are up to date, and
an assignment that is not lets the run go on to dispatch a record twice. No replica skips a record
of a partition that no other replica had in between. -/
theorem dispatch_once_iff :
    (∀ (ends : P → ℕ) (inputs : List (Input R P)), AllUpToDate ends inputs →
      Once (runFrom step (start ends) inputs).2) ∧
    (∀ (ends : P → ℕ) (inputs : List (Input R P)) (input : Input R P),
      ¬ UpToDate (runFrom step (start ends) inputs).2 (runFrom step (start ends) inputs).1 input →
        ∃ more, ¬ Once (runFrom step (start ends) (inputs ++ input :: more)).2) ∧
    ∀ (ends : P → ℕ) (before during : List (Input R P)), NoneSkipped ends before during :=
  ⟨fun _ _ hinputs ↦ once_of_allUpToDate hinputs, fun _ _ _ hstale ↦ exists_twice hstale,
    noneSkipped⟩

/-- A partition goes from one replica to another and back: the record that the other one dispatched
is dispatched again. -/
theorem dispatches_twice : ¬ Once (runFrom step (start (R := Bool) fun _ : Unit ↦ 0)
    [.assign true (), .append (), .deliver true (), .revoke true () true, .assign false (),
      .append (), .deliver false (), .revoke false () true, .assign true (), .deliver true ()]).2 := by
  decide

end Ads.ManagerKafka.Group
