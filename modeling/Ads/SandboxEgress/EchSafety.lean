import Ads.SandboxEgress.CrlSafety
import Ads.SandboxEgress.EchJournal

/-!
# The ECH lifecycle is recovered

Every operation of the lifecycle is several calls of the store, and the process may end in any of
them. `Holds` relates the store to the state of a lifecycle: the state follows the newest
publication or is one generation behind it, when the store wrote one and failed after that.
Rotation, collection and recovery keep this wherever they stop (`leaves_rotate`, `leaves_collect`,
`leaves_construct`), so after every run the newest publication is recovered, and no key on which a
retained publication depends is missing in it (`ech_safe`).
-/

set_option autoImplicit false
set_option relaxedAutoImplicit false

namespace Ads.SandboxEgress.Ech

open Dns Foundation Foundation.StateExcept Foundation.Interrupted IdentityStore Python

variable {lifecycle : EchLifecycle} {tables : IdentityTables} {name : Text} {names : List Text}
  {key : EchKey} {keys : List EchKey} {wall : ℚ} {head : EchHead}
  {newest : Option (EchHead × List EchKey)} {world : EchWorld} {live : Prop}

/-! ### The state of the lifecycle -/

/-- What a state remembers. -/
structure Memory (lifecycle : EchLifecycle) (tables : IdentityTables) (wall : ℚ)
    (state : EchState) : Prop where
  clock : state.clock ≤ wall
  nodup : state.names.Nodup
  named : ∀ name ∈ state.names, keyPrefix <+: name
  serves : List.Forall₂ (Serves lifecycle tables) state.names (state.context.getD [])
  distinct : ((state.context.getD []).map EchKey.configId).Nodup
  current : (state.names = [] ∧ state.current = [] ∧ state.context = none) ∨
    state.current ∈ state.names

/-- A state is the one of a publication. -/
structure Agrees (state : EchState) (head : EchHead) (keys : List EchKey) : Prop where
  generation : state.generation = head.generation
  names : state.names = head.names
  current : state.current = head.current
  context : state.context = some keys

/-- How a state follows the newest publication. -/
inductive Follows (state : EchState) : Option (EchHead × List EchKey) → Prop
  | blank (hgeneration : state.generation = 0) (hnames : state.names = []) : Follows state none
  | agrees {head : EchHead} {keys : List EchKey} (hagrees : Agrees state head keys) :
    Follows state (some (head, keys))
  /-- The store wrote the next publication and failed after that. -/
  | behind {head : EchHead} {keys : List EchKey}
    (hgeneration : head.generation = state.generation + 1)
    (hcurrent : state.current = [] ∨ state.current ∈ head.names) : Follows state (some (head, keys))

/-- The store and the state of a lifecycle belong together. -/
structure Holds (lifecycle : EchLifecycle) (wall : ℚ) (newest : Option (EchHead × List EchKey))
    (world : EchWorld) : Prop where
  journal : Journal lifecycle world.store.tables wall newest
  memory : Memory lifecycle world.store.tables wall world.state
  follows : Follows world.state newest

/-- They belong together for some publication, and a lifecycle that is live has a context. -/
def Kept (lifecycle : EchLifecycle) (wall : ℚ) (live : Prop) (world : EchWorld) : Prop :=
  (∃ newest, Holds lifecycle wall newest world) ∧ (live → world.state.context ≠ none)

/-- A harmless call keeps what is remembered. -/
theorem Memory.moves {call : StoreCall} {before after : IdentityTables} {state : EchState}
    (hmoves : Moves lifecycle call before after)
    (hkept : ∀ name clock, call = .retire name clock → name ∉ state.names)
    (hmemory : Memory lifecycle before wall state) : Memory lifecycle after wall state := by
  rcases hmoves with rfl | ⟨hmove, -⟩
  · exact hmemory
  · exact { hmemory with serves := serves_move hmove hkept hmemory.serves }

/-- The clock of a state moves. -/
theorem Holds.tick {clock : ℚ} (hclock : clock ≤ wall)
    (hholds : Holds lifecycle wall newest world) :
    Holds lifecycle wall newest ⟨world.store, { world.state with clock }⟩ := by
  refine ⟨hholds.journal, { hholds.memory with clock := hclock }, ?_⟩
  cases hholds.follows with
  | blank hgeneration hnames => exact .blank hgeneration hnames
  | agrees hagrees => exact .agrees ⟨hagrees.1, hagrees.2, hagrees.3, hagrees.4⟩
  | behind hgeneration hcurrent => exact .behind hgeneration hcurrent

/-- What belongs together depends on the tables of the store alone. -/
theorem Holds.of_tables {final : EchWorld} (htables : final.store.tables = world.store.tables)
    (hstate : final.state = world.state) (hholds : Holds lifecycle wall newest world) :
    Holds lifecycle wall newest final :=
  ⟨htables ▸ hholds.journal, htables ▸ hstate ▸ hholds.memory, hstate ▸ hholds.follows⟩

/-- What is kept of a world that belongs together. -/
theorem Holds.kept (hholds : Holds lifecycle wall newest world)
    (hlive : live → world.state.context ≠ none) : Kept lifecycle wall live world :=
  ⟨⟨newest, hholds⟩, hlive⟩

/-! ### Steps of the programs -/

section Steps

variable {α β : Type} {stopped : StoreRaised → EchWorld → Prop} {post : β → EchWorld → Prop}

theorem leaves_getState {post : EchState → EchWorld → Prop} :
    Leaves getState world post stopped ↔ post world.state world :=
  Iff.rfl

theorem leaves_setState {state : EchState} {post : Unit → EchWorld → Prop} :
    Leaves (setState state) world post stopped ↔ post () ⟨world.store, state⟩ :=
  Iff.rfl

/-- A guard goes on when its condition fails. -/
theorem leaves_refuse {condition : Prop} [Decidable condition] {failure : StoreRaised}
    {next : Unit → EchM β} (hstopped : ∀ failure, stopped failure world)
    (hnext : ¬ condition → Leaves (next ()) world post stopped) :
    Leaves (refuseIf condition failure >>= next) world post stopped := by
  refine leaves_bind.mpr (leaves_evaluate.mpr ⟨fun value hvalue ↦ ?_, fun _ _ ↦ hstopped _⟩)
  exact hnext (failIf_eq_ok.mp hvalue)

/-- A reading goes on with what it reads. -/
theorem leaves_read {computation : IdentityTables → Except StoreRaised α} {next : α → EchM β}
    (hstopped : ∀ failure, stopped failure world)
    (hnext : ∀ value, computation world.store.tables = .ok value →
      Leaves (next value) world post stopped) :
    Leaves (reading computation >>= next) world post stopped := by
  refine leaves_bind.mpr ?_
  change Leaves (Program.evaluate (computation world.store.tables)) world _ _
  exact leaves_evaluate.mpr ⟨hnext, fun _ _ ↦ hstopped _⟩

/-- A computation goes on with its value. -/
theorem leaves_compute {computation : Except StoreRaised α} {next : α → EchM β}
    (hstopped : ∀ failure, stopped failure world)
    (hnext : ∀ value, computation = .ok value → Leaves (next value) world post stopped) :
    Leaves (Program.evaluate computation >>= next) world post stopped :=
  leaves_bind.mpr (leaves_evaluate.mpr ⟨hnext, fun _ _ ↦ hstopped _⟩)

/-- A call of the store leaves what it leaves of the store. -/
theorem leaves_onStore {program : StoreM α} {post : α → EchWorld → Prop} :
    Leaves (onStore program) world post stopped ↔
      Leaves program world.store (fun value store ↦ post value ⟨store, world.state⟩)
        fun failure store ↦ stopped failure ⟨store, world.state⟩ := by
  unfold Leaves onStore
  cases hrun : program world.store with
  | mk outcome store =>
    cases outcome with
    | error failure => rfl
    | ok value => rfl

/-- What a harmless call leaves. -/
structure Called (lifecycle : EchLifecycle) (wall : ℚ) (newest : Option (EchHead × List EchKey))
    (call : StoreCall) (world final : EchWorld) : Prop where
  holds : Holds lifecycle wall newest final
  state : final.state = world.state
  moves : Moves lifecycle call world.store.tables final.store.tables
  run : performed lifecycle.custody call world.store = (.ok (), final.store)

/-- A harmless call keeps what belongs together. -/
theorem leaves_call (call : StoreCall) (hholds : Holds lifecycle wall newest world)
    (hlive : live → world.state.context ≠ none) (hharmless : Harmless (listed newest) call)
    (hkept : ∀ name clock, call = .retire name clock → name ∉ world.state.names) :
    Leaves (onStore (performed lifecycle.custody call)) world
      (fun _ final ↦ Called lifecycle wall newest call world final)
      fun _ final ↦ Kept lifecycle wall live final := by
  have hmoves := @moves_performed lifecycle call world.store
  have hfinal : Holds lifecycle wall newest
      ⟨(performed lifecycle.custody call world.store).2, world.state⟩ :=
    ⟨hholds.journal.moves hmoves hharmless, hholds.memory.moves hmoves hkept, hholds.follows⟩
  refine leaves_onStore.mpr (leaves_of (fun value store hrun ↦ ?_) fun failure store hrun ↦ ?_)
  · rw [hrun] at hfinal hmoves
    exact ⟨hfinal, rfl, hmoves, hrun⟩
  · rw [hrun] at hfinal
    exact hfinal.kept hlive

/-- `_time` changes the clock, or nothing. -/
theorem leaves_clock : Leaves (EchLifecycle.time (some wall)) world
    (fun now final ↦ now = wall ∧ 0 < wall ∧
      final = ⟨world.store, { world.state with clock := wall }⟩) fun _ final ↦ final = world := by
  unfold EchLifecycle.time
  refine leaves_bind.mpr (leaves_getState.mpr ?_)
  refine leaves_refuse (fun _ ↦ rfl) fun hclock ↦ ?_
  refine leaves_bind.mpr (leaves_setState.mpr ?_)
  simp only [not_or, not_le] at hclock
  exact ⟨rfl, hclock.1, rfl⟩

/-- `_time`. -/
theorem leaves_time (hholds : Holds lifecycle wall newest world)
    (hlive : live → world.state.context ≠ none) :
    Leaves (EchLifecycle.time (some wall)) world
      (fun now final ↦ now = wall ∧ 0 < wall ∧ Holds lifecycle wall newest final ∧
        final = ⟨world.store, { world.state with clock := wall }⟩)
      fun _ final ↦ Kept lifecycle wall live final := by
  refine leaves_clock.mono ?_ fun _ final hfinal ↦ hfinal ▸ hholds.kept hlive
  rintro now final ⟨rfl, hwall, rfl⟩
  exact ⟨rfl, hwall, hholds.tick (le_refl _), rfl⟩

end Steps

/-! ### Publishing -/

/-- The call that publishes. -/
def publishing (lifecycle : EchLifecycle) (head : EchHead) : StoreCall :=
  .commitPublication (echName head.generation) (lifecycle.library.encode head) head.names
    (some (head.createdAt + lifecycle.handshakeWindow))

/-- A publication is the newest one after it is published. -/
structure Publishes (lifecycle : EchLifecycle) (wall : ℚ) (head : EchHead) (keys : List EchKey)
    (before after : IdentityTables) : Prop where
  journal : Journal lifecycle after wall (some (head, keys))
  moves : Moves lifecycle (publishing lifecycle head) before after

/-- A publication that can follow the state of a lifecycle. -/
structure Publishable (lifecycle : EchLifecycle) (wall : ℚ)
    (newest : Option (EchHead × List EchKey)) (world : EchWorld) (head : EchHead)
    (keys : List EchKey) : Prop where
  generation : head.generation = world.state.generation + 1
  retained : lifecycle.isRetained (echName head.generation) wall head = true
  named : ∀ name ∈ head.names, keyPrefix <+: name
  serves : List.Forall₂ (Serves lifecycle world.store.tables) head.names keys
  distinct : (keys.map EchKey.configId).Nodup
  /-- It lists what is depended on, when the state is that of the newest publication. -/
  covers : (∀ old others, newest = some (old, others) → Agrees world.state old others) →
    ∀ row keyName, world.store.tables.Depends row keyName → keyPrefix <+: keyName →
      wall ≤ row.retainUntil → keyName ∈ head.names
  stays : world.state.current = [] ∨ world.state.current ∈ head.names

/-- A publication of the next generation is committed, or the one that is there is it. -/
theorem publishes_of_body {written : IdentityTables} {outcome : Unit × Bool}
    {around : Surroundings} (hholds : Holds lifecycle wall newest world)
    (hhead : Publishable lifecycle wall newest world head keys)
    (hbody : commitPublicationBody lifecycle.custody (echName head.generation)
      (lifecycle.library.encode head) head.names (some (head.createdAt + lifecycle.handshakeWindow))
        around world.store.tables = .ok (outcome, written)) :
    Publishes lifecycle wall head keys world.store.tables written := by
  have hjournal := hholds.journal
  have hbound : head.generation < 2 ^ 63 := by
    have hretained := hhead.retained
    simp only [EchLifecycle.isRetained, decide_eq_true_eq] at hretained
    omega
  obtain ⟨-, hpublication, hsealed, ⟨hfind, -, -, rfl⟩ |
    ⟨hfind, hkeys, -, publications, rows, hinsert, hrows, hfits, -, rfl⟩⟩ :=
      commitPublicationBody_eq_ok.mp hbody
  · refine ⟨?_, Or.inl rfl⟩
    obtain ⟨hrow, -⟩ := Table.find_eq_some_iff.mp hfind
    have hinside : InJournal echPrefix (echName head.generation) := inJournal_echName
    -- The publication is there already, so the store wrote it and failed after that.
    cases hholds.follows with
    | blank => exact absurd hinside (journalHead_eq_none_iff.mp hjournal.starts _ hrow)
    | @agrees old others hagrees =>
      have hnewest : Newest lifecycle world.store.tables wall old others := hjournal.starts
      obtain ⟨last, hlast, hname, -⟩ := hnewest.row
      have hle := (journalHead_eq_some_iff.mp hlast).2.2 _ hrow hinside
      have hnext : old.generation < head.generation := by
        rw [hhead.generation, hagrees.generation]
        exact Nat.lt_succ_self _
      rw [hname] at hle
      exact absurd (echName_lt hbound hnext) (not_lt.mpr hle)
    | @behind old others hold =>
      have hnewest : Newest lifecycle world.store.tables wall old others := hjournal.starts
      obtain ⟨last, hlast, hname, hdecode⟩ := hnewest.row
      have hsame := Table.eq_of_key_eq (journalHead_eq_some_iff.mp hlast).1 hrow
        (hname.trans (by rw [hold, hhead.generation]))
      rw [hsame, lifecycle.library.decode_encode] at hdecode
      obtain rfl : head = old := by simpa using hdecode
      have hfound : Newest lifecycle world.store.tables wall head keys :=
        { hnewest with serves := hhead.serves, distinct := hhead.distinct }
      exact ⟨hjournal.sealed, hjournal.referenced, hfound, hjournal.owned⟩
  · have hmove : Move lifecycle.custody (publishing lifecycle head) world.store.tables
        (lifecycle.custody.signed around.inventoryNonce
          { world.store.tables with publications := publications, dependencies := rows }) := by
      refine .commitPublication _ ?_ (fun keyName hkeyName ↦ ?_) hinsert hrows
      · simp only [isPublication, Bool.and_eq_true, Bool.not_eq_true', decide_eq_false_iff_not]
          at hpublication
        exact hpublication.1.1.1.1.1
      · obtain ⟨found, hfound, hstage⟩ := hkeys keyName hkeyName
        obtain ⟨-, row, hrow, -, opened, -, rfl⟩ := key_eq_ok.mp hfound
        exact ⟨row, hrow, hstage⟩
    refine ⟨?_, Or.inr ⟨hmove, Custody.sealed_signed hfits⟩⟩
    -- The publication was not there, so the state is that of the newest one.
    have hagrees : ∀ old others, newest = some (old, others) → Agrees world.state old others := by
      rintro old others rfl
      cases hholds.follows with
      | agrees hagrees => exact hagrees
      | behind hold =>
        have hnewest : Newest lifecycle world.store.tables wall old others := hjournal.starts
        obtain ⟨last, hlast, hname, -⟩ := hnewest.row
        exact absurd (hname.trans (by rw [hold, hhead.generation]))
          (Table.find_eq_none_iff.mp hfind last (journalHead_eq_some_iff.mp hlast).1)
    refine hjournal.commit (fun found hfound ↦ ?_) (lifecycle.library.decode_encode head) rfl rfl
      hhead.retained hhead.named hhead.serves hhead.distinct (hhead.covers hagrees) hinsert rfl
      hmove (Custody.sealed_signed hfits)
    obtain ⟨old, others⟩ := found
    rw [hhead.generation, (hagrees old others hfound).generation]
    exact Nat.lt_succ_self _

/-- What is published, or was written before a failure. -/
theorem leaves_publishing (hholds : Holds lifecycle wall newest world)
    (hhead : Publishable lifecycle wall newest world head keys) :
    Leaves (performed lifecycle.custody (publishing lifecycle head)) world.store
      (fun _ final ↦ Publishes lifecycle wall head keys world.store.tables final.tables)
      fun _ final ↦ final.tables = world.store.tables ∨
        Publishes lifecycle wall head keys world.store.tables final.tables := by
  have hwrites : Leaves (performed lifecycle.custody (publishing lifecycle head)) world.store
      (fun _ final ↦ Publishes lifecycle wall head keys world.store.tables final.tables)
      fun _ final ↦ final.tables = world.store.tables ∨
        ∃ _ : Unit, Publishes lifecycle wall head keys world.store.tables final.tables :=
    leaves_operate fun _ _ _ hbody ↦ publishes_of_body hholds hhead hbody
  exact hwrites.mono (fun _ _ h ↦ h) fun _ _ h ↦ h.imp_right fun ⟨_, hpublishes⟩ ↦ hpublishes

/-- What a committed publication leaves. -/
structure Committed (lifecycle : EchLifecycle) (wall : ℚ) (head : EchHead) (keys : List EchKey)
    (final : EchWorld) : Prop where
  holds : Holds lifecycle wall (some (head, keys)) final
  agrees : Agrees final.state head keys

/-- The next publication of a state. -/
def nextHead (lifecycle : EchLifecycle) (state : EchState) (names : List Text) (current : Text)
    (now : ℚ) : EchHead :=
  ⟨state.generation + 1, lifecycle.publicName, current, names, now⟩

/-- `_commit_head`. -/
theorem leaves_commitHead {current : Text} (hholds : Holds lifecycle wall newest world)
    (hlive : live → world.state.context ≠ none)
    (hready : world.state.generation + 1 ≤ 2 ^ 63 - 1 → Publishable lifecycle wall newest world
      (nextHead lifecycle world.state names current wall) keys)
    (hmemory : names.Nodup ∧ current ∈ names) :
    Leaves (lifecycle.commitHead names current wall keys) world
      (fun _ final ↦ Committed lifecycle wall
        (nextHead lifecycle world.state names current wall) keys final)
      fun _ final ↦ Kept lifecycle wall live final := by
  unfold EchLifecycle.commitHead
  refine leaves_bind.mpr (leaves_getState.mpr ?_)
  refine leaves_refuse (fun _ ↦ hholds.kept hlive) fun hexhausted ↦ ?_
  generalize hhead : nextHead lifecycle world.state names current wall = head at hready ⊢
  have hpublishable := hready (not_lt.mp hexhausted)
  have hnames : head.names = names := by rw [← hhead]; rfl
  have hcall : Leaves (onStore (performed lifecycle.custody (publishing lifecycle head))) world
      (fun _ final ↦ Publishes lifecycle wall head keys world.store.tables final.store.tables ∧
        final.state = world.state) fun _ final ↦ Kept lifecycle wall live final := by
    refine leaves_onStore.mpr ((leaves_publishing hholds hpublishable).mono
      (fun _ _ h ↦ ⟨h, rfl⟩) fun _ store h ↦ ⟨?_, hlive⟩)
    rcases h with hsame | hpublishes
    · exact ⟨newest, hholds.of_tables hsame rfl⟩
    · exact ⟨_, hpublishes.journal, hholds.memory.moves hpublishes.moves
        (fun _ _ h ↦ by cases h), .behind hpublishable.generation hpublishable.stays⟩
  subst hhead
  refine hcall.bind fun _ next hnext ↦ leaves_setState.mpr ?_
  obtain ⟨hpublishes, hstate⟩ := hnext
  have hserves : List.Forall₂ (Serves lifecycle next.store.tables) names keys := by
    have hnewest : Newest lifecycle next.store.tables wall _ keys := hpublishes.journal.starts
    exact hnewest.serves
  have hagrees : Agrees ⟨some keys, world.state.generation + 1, current, names, world.state.clock⟩
      (nextHead lifecycle world.state names current wall) keys := ⟨rfl, rfl, rfl, rfl⟩
  refine ⟨⟨hpublishes.journal, ?_, .agrees hagrees⟩, hagrees⟩
  exact ⟨hholds.memory.clock, hmemory.1, hpublishable.named, hserves, hpublishable.distinct,
    Or.inr hmemory.2⟩

/-! ### Rotation -/

/-- A key is stored under a name, at some stage. -/
def Stored (lifecycle : EchLifecycle) (tables : IdentityTables) (name : Text) (key : EchKey) :
    Prop :=
  ∃ row, tables.keys.find name = some row ∧ row.kind = .ech ∧
    row.publicPart = key.configuration ∧ lifecycle.custody.opened
      (lifecycle.custody.keyLabel name .ech key.configuration) row.sealedPart = .ok key.privatePem

/-- A call that returns leaves what its transaction writes. -/
theorem of_operate {α : Type} (holds : IdentityTables → Prop) {value : α} {store final : Store}
    {body : Surroundings → StateT IdentityTables (Except StoreRaised) (α × Bool)}
    (hrun : operate body store = (.ok value, final))
    (hbody : ∀ value syncs written, body (store.surroundings 0) store.tables =
      .ok ((value, syncs), written) → holds written) : holds final.tables := by
  have hleaves : Leaves (operate body) store (fun _ final ↦ holds final.tables) fun _ final ↦
      final.tables = store.tables ∨ ∃ _ : α, holds final.tables := leaves_operate hbody
  exact hleaves.of_ok hrun

/-- A key that is prepared is stored. -/
theorem stored_of_prepareKey {store final : Store}
    (hrun : performed lifecycle.custody (.prepareKey name .ech key.configuration key.privatePem)
      store = (.ok (), final)) : Stored lifecycle final.tables name key := by
  refine of_operate (fun written ↦ Stored lifecycle written name key) hrun
    fun _ _ written hbody ↦ ?_
  obtain ⟨-, -, -, -, -, -, ⟨row, hfind, hkind, hpublic, hopened, -, rfl⟩ |
    ⟨-, -, -, keys, hinsert, -, -, rfl⟩⟩ := prepareKeyBody_eq_ok.mp hbody
  · exact ⟨row, hfind, hkind, hpublic, hopened⟩
  · exact ⟨_, by rw [Custody.signed_keys, Table.find_insert hinsert, if_pos rfl], rfl, rfl,
      Custody.opened_sealed⟩

/-- What advancing a key found, and what it left. -/
def Advanced (before after : IdentityTables) (name : Text) (expected target : KeyStage) : Prop :=
  ∃ row, before.keys.find name = some row ∧ row.stage = expected ∧
    after.keys.find name = some { row with stage := target }

/-- A key that is advanced was at the expected stage. -/
theorem advanced_of_advance {store final : Store} {expected target : KeyStage}
    (hrun : performed lifecycle.custody (.advance name expected target) store = (.ok (), final)) :
    Advanced store.tables final.tables name expected target := by
  refine of_operate (fun written ↦ Advanced store.tables written name expected target) hrun
    fun _ _ written hbody ↦ ?_
  obtain ⟨-, -, ⟨row, hfind, hstage⟩, -, -, rfl⟩ := advanceBody_eq_ok.mp hbody
  refine ⟨row, hfind, hstage, ?_⟩
  rw [Custody.signed_keys, moved, Table.find_modify, hfind, Option.map_some,
    if_pos (Table.find_eq_some_iff.mp hfind).2]
  rfl

/-- A context is built for the keys. -/
theorem install_eq_ok {works : Bool} {context : List EchKey} :
    EchLifecycle.install keys works = .ok context ↔
      keys ≠ [] ∧ keys.length ≤ 64 ∧ works = true ∧ keys = context := by
  simp only [EchLifecycle.install, except_bind_eq_ok, failIf_eq_ok, except_pure_eq_ok, not_or,
    not_lt, Bool.not_eq_false]
  constructor
  · rintro ⟨_, ⟨hkeys, hlength, hworks⟩, hcontext⟩
    exact ⟨hkeys, hlength, hworks, hcontext⟩
  · rintro ⟨hkeys, hlength, hworks, hcontext⟩
    exact ⟨(), ⟨hkeys, hlength, hworks⟩, hcontext⟩

/-- The key that is picked is one of the library, with an identifier that is free. -/
theorem pick_eq_ok {occupied : List (Option Octet)} {attempts : ℕ} {generated : ℕ → Option Bytes}
    (hpick : lifecycle.pick occupied attempts generated = .ok key) :
    lifecycle.library.fromPem key.privatePem = some key.configuration ∧
      key.configId ∉ occupied := by
  induction attempts generalizing generated with
  | zero => cases hpick
  | succ attempts ih =>
    simp only [EchLifecycle.pick] at hpick
    split at hpick
    · cases hpick
    · split at hpick
      · cases hpick
      · next hpem =>
        split_ifs at hpick with hfree
        · exact ih hpick
        · obtain rfl := Except.ok.inj hpick
          exact ⟨hpem, hfree⟩

/-- Advancing a key is harmless. -/
theorem leaves_advance {expected target : KeyStage} (hholds : Holds lifecycle wall newest world)
    (hlive : live → world.state.context ≠ none) :
    Leaves (onStore (advance lifecycle.custody name expected target)) world
      (fun _ final ↦ Called lifecycle wall newest (.advance name expected target) world final)
      fun _ final ↦ Kept lifecycle wall live final :=
  leaves_call (.advance name expected target) hholds hlive trivial fun _ _ h ↦ by cases h

/-- A key that is active begins to retire, and keeps serving. -/
theorem leaves_retireActive (hholds : Holds lifecycle wall newest world)
    (hlive : live → world.state.context ≠ none) :
    Leaves (lifecycle.retireActive name) world
      (fun _ final ↦ Holds lifecycle wall newest final ∧ final.state = world.state)
      fun _ final ↦ Kept lifecycle wall live final := by
  refine leaves_read (fun _ ↦ hholds.kept hlive) fun found _ ↦ ?_
  refine leaves_ite.mpr ⟨fun _ ↦ ?_, fun _ ↦ ?_⟩
  · exact (leaves_advance hholds hlive).mono (fun _ _ h ↦ ⟨h.holds, h.state⟩) fun _ _ h ↦ h
  · exact ⟨hholds, rfl⟩

/-- The keys that are recovered are those of the context. -/
theorem Memory.keys_eq {state : EchState} (hmemory : Memory lifecycle tables wall state)
    (hkeys : lifecycle.recoverKeys state.names tables = .ok keys) :
    keys = state.context.getD [] :=
  serves_unique (serves_of_recoverKeys hkeys) hmemory.serves

/-- What is retained depends on keys of the state, when it is that of the newest publication. -/
theorem Holds.mem_names (hholds : Holds lifecycle wall newest world)
    (hagrees : ∀ old others, newest = some (old, others) → Agrees world.state old others)
    {row : PublicationRow} (hdepends : world.store.tables.Depends row name)
    (hname : keyPrefix <+: name) (hretained : wall ≤ row.retainUntil) :
    name ∈ world.state.names := by
  have hlisted := hholds.journal.owned row name hdepends hname hretained
  cases newest with
  | none => exact absurd hlisted List.not_mem_nil
  | some found =>
    rw [(hagrees found.1 found.2 rfl).names]
    exact hlisted

/-- One more item that is new. -/
theorem nodup_snoc {α : Type} {items : List α} {item : α} (hitems : items.Nodup)
    (hitem : item ∉ items) : (items ++ [item]).Nodup := by
  rw [← List.concat_eq_append]
  exact hitems.concat hitem

/-- The publication of a rotation can follow. -/
theorem publishable_rotate (hholds : Holds lifecycle wall newest world) (hwall : 0 < wall)
    (hcapacity : world.state.names.length < 64) (hnew : name ∉ world.state.names)
    (hname : keyPrefix <+: name) (hserves : Serves lifecycle world.store.tables name key)
    (hfree : key.configId ∉ (world.state.context.getD []).map EchKey.configId)
    (hbound : world.state.generation + 1 ≤ 2 ^ 63 - 1) :
    Publishable lifecycle wall newest world
      (nextHead lifecycle world.state (world.state.names ++ [name]) name wall)
      (world.state.context.getD [] ++ [key]) := by
  have hmemory := hholds.memory
  have hnodup := nodup_snoc hmemory.nodup hnew
  constructor
  case generation => rfl
  case retained =>
    simp only [EchLifecycle.isRetained, decide_eq_true_eq, nextHead, List.length_append,
      List.length_singleton]
    exact ⟨Nat.succ_le_succ (Nat.zero_le _), hbound, trivial, trivial, Nat.le_add_left _ _,
      hcapacity, hnodup, by simp, hwall, le_refl _⟩
  case named =>
    intro other hother
    rcases List.mem_append.mp hother with hold | hlast
    · exact hmemory.named other hold
    · rwa [List.mem_singleton.mp hlast]
  case serves => exact List.rel_append hmemory.serves (List.Forall₂.cons hserves .nil)
  case distinct =>
    rw [List.map_append]
    exact nodup_snoc hmemory.distinct hfree
  case covers =>
    intro hagrees row keyName hdepends hkeyName hretained
    exact List.mem_append_left _ (hholds.mem_names hagrees hdepends hkeyName hretained)
  case stays =>
    rcases hmemory.current with ⟨-, hnone, -⟩ | hcurrent
    · exact Or.inl hnone
    · exact Or.inr (List.mem_append_left _ hcurrent)

/-- A prepared key is none of those that serve. -/
theorem not_mem_of_advanced {state : EchState} {before after : IdentityTables} {target : KeyStage}
    (hmemory : Memory lifecycle before wall state)
    (hadvanced : Advanced before after name .prepared target) : name ∉ state.names := by
  intro hname
  obtain ⟨row, hfind, hstage, -⟩ := hadvanced
  obtain ⟨index, rfl⟩ := List.get_of_mem hname
  have hserves := List.forall₂_iff_get.mp hmemory.serves
  obtain ⟨found, hfound, -, hserved, -⟩ := hserves.2 index index.isLt (hserves.1 ▸ index.isLt)
  obtain rfl : row = found := Option.some.inj (hfind.symm.trans hfound)
  rcases hserved with h | h | h <;> simp [hstage] at h

/-- A stored key serves once it is published. -/
theorem serves_of_advanced {before after : IdentityTables} {expected : KeyStage}
    (hstored : Stored lifecycle before name key)
    (hpem : lifecycle.library.fromPem key.privatePem = some key.configuration)
    (hadvanced : Advanced before after name expected .published) :
    Serves lifecycle after name key := by
  obtain ⟨row, hfind, hkind, hpublic, hopened⟩ := hstored
  obtain ⟨found, hfound, -, hafter⟩ := hadvanced
  obtain rfl : row = found := Option.some.inj (hfind.symm.trans hfound)
  exact ⟨_, hafter, hkind, Or.inl rfl, by rw [← hopened, ← hpublic, ← hkind], hpem, hpublic⟩

/-- `rotate`. -/
theorem leaves_rotate {generated : ℕ → Option Bytes} {works : Bool}
    (hholds : Holds lifecycle wall newest world) (hlive : live → world.state.context ≠ none) :
    Leaves (lifecycle.rotate (some wall) generated works) world
      (fun _ final ↦ Kept lifecycle wall True final)
      fun _ final ↦ Kept lifecycle wall live final := by
  unfold EchLifecycle.rotate
  refine (leaves_time hholds hlive).bind ?_
  rintro now next ⟨rfl, hwall, hnext, hstate⟩
  replace hlive : live → next.state.context ≠ none := by
    rw [hstate]
    exact hlive
  clear hstate hholds
  refine leaves_bind.mpr (leaves_getState.mpr ?_)
  refine leaves_refuse (fun _ ↦ hnext.kept hlive) fun hcapacity ↦ ?_
  refine leaves_read (fun _ ↦ hnext.kept hlive) fun occupied hoccupied ↦ ?_
  refine leaves_compute (fun _ ↦ hnext.kept hlive) fun key hpick ↦ ?_
  obtain rfl := hnext.memory.keys_eq hoccupied
  obtain ⟨hpem, hfree⟩ := pick_eq_ok hpick
  refine (leaves_call (.prepareKey (lifecycle.keyName key) .ech key.configuration key.privatePem)
    hnext hlive trivial fun _ _ h ↦ by cases h).bind fun _ prepared hprepared ↦ ?_
  have hstored := stored_of_prepareKey hprepared.run
  rw [← hprepared.state] at hlive hcapacity hfree ⊢
  refine leaves_read (fun _ ↦ hprepared.holds.kept hlive) fun kept hkept ↦ ?_
  obtain rfl := hprepared.holds.memory.keys_eq hkept
  refine leaves_compute (fun _ ↦ hprepared.holds.kept hlive) fun context hcontext ↦ ?_
  obtain ⟨-, -, -, rfl⟩ := install_eq_ok.mp hcontext
  refine (leaves_advance hprepared.holds hlive).bind fun _ published hpublished ↦ ?_
  have hadvanced := advanced_of_advance hpublished.run
  have hnew := not_mem_of_advanced hprepared.holds.memory hadvanced
  rw [← hpublished.state] at hlive hcapacity hfree hnew ⊢
  have hname : keyPrefix <+: lifecycle.keyName key := List.prefix_append _ _
  have hnodup := nodup_snoc hpublished.holds.memory.nodup hnew
  refine (leaves_commitHead hpublished.holds hlive (publishable_rotate hpublished.holds hwall
    (not_le.mp hcapacity) hnew hname (serves_of_advanced hstored hpem hadvanced) hfree)
      ⟨hnodup, by simp⟩).bind fun _ committed hcommitted ↦ ?_
  have hcontext : live → committed.state.context ≠ none := fun _ ↦ by
    simp [hcommitted.agrees.context]
  refine (leaves_advance hcommitted.holds hcontext).bind fun _ active hactive ↦ ?_
  have hended : True → active.state.context ≠ none := fun _ ↦ by
    simp [hactive.state, hcommitted.agrees.context]
  refine leaves_ite.mpr ⟨fun _ ↦ ?_, fun _ ↦ hactive.holds.kept hended⟩
  exact (leaves_retireActive hactive.holds fun _ ↦ hended trivial).mono
    (fun _ _ h ↦ h.1.kept (h.2 ▸ hended)) fun _ _ h ↦ h

/-! ### Collection -/

/-- The horizon of a key is not before the retention of what depends on it. -/
theorem le_horizon {horizon : ℚ} {row : PublicationRow}
    (hhorizon : dependencyHorizon lifecycle.custody tables name = .ok horizon)
    (hdepends : tables.Depends row name) : row.retainUntil ≤ horizon := by
  simp only [dependencyHorizon, except_bind_eq_ok, except_pure_eq_ok] at hhorizon
  obtain ⟨_, -, rfl⟩ := hhorizon
  have hmem : row.retainUntil ∈ (dependents tables name).map PublicationRow.retainUntil := by
    refine List.mem_map_of_mem ?_
    simpa [dependents, IdentityTables.Depends] using hdepends
  have hle := List.le_maximum_of_mem' hmem
  cases hmaximum : ((dependents tables name).map PublicationRow.retainUntil).maximum with
  | bot =>
    rw [hmaximum] at hle
    exact absurd hle (by simp)
  | coe maximum =>
    rw [hmaximum] at hle
    exact WithBot.coe_le_coe.mp hle

/-- What is retired is neither the current key nor one that something retained depends on. -/
theorem expired_eq_ok {current : Text} {now : ℚ} {retired : List Text}
    (hretired : lifecycle.expired tables current now names = .ok retired) :
    ∀ name ∈ retired, name ≠ current ∧ ∀ row, tables.Depends row name → row.retainUntil < now := by
  induction names generalizing retired with
  | nil =>
    obtain rfl := Except.ok.inj hretired
    exact fun name hname ↦ absurd hname List.not_mem_nil
  | cons first rest ih =>
    unfold EchLifecycle.expired at hretired
    split_ifs at hretired with hcurrent
    · exact ih hretired
    · simp only [except_bind_eq_ok, except_pure_eq_ok] at hretired
      obtain ⟨horizon, hhorizon, later, hlater, rfl⟩ := hretired
      split_ifs with hended
      · intro name hname
        rcases List.mem_cons.mp hname with rfl | hrest
        · exact ⟨hcurrent, fun row hdepends ↦ lt_of_le_of_lt (le_horizon hhorizon hdepends) hended⟩
        · exact ih hlater name hrest
      · exact ih hlater

/-- The publication of a collection can follow. -/
theorem publishable_collect {retired : List Text} (hholds : Holds lifecycle wall newest world)
    (hwall : 0 < wall) (hcurrent : world.state.current ∈ world.state.names)
    (hretired : ∀ name ∈ retired, name ≠ world.state.current ∧
      ∀ row, world.store.tables.Depends row name → row.retainUntil < wall)
    (hserves : List.Forall₂ (Serves lifecycle world.store.tables)
      (world.state.names.filter (· ∉ retired)) keys) (hlength : keys.length ≤ 64)
    (hbound : world.state.generation + 1 ≤ 2 ^ 63 - 1) :
    Publishable lifecycle wall newest world (nextHead lifecycle world.state
      (world.state.names.filter (· ∉ retired)) world.state.current wall) keys := by
  have hmemory := hholds.memory
  have hkept : world.state.current ∈ world.state.names.filter (· ∉ retired) := by
    rw [List.mem_filter, decide_eq_true_eq]
    exact ⟨hcurrent, fun hmem ↦ (hretired _ hmem).1 rfl⟩
  constructor
  case generation => rfl
  case retained =>
    simp only [EchLifecycle.isRetained, decide_eq_true_eq, nextHead]
    exact ⟨Nat.succ_le_succ (Nat.zero_le _), hbound, trivial, trivial,
      List.length_pos_of_mem hkept, hserves.length_eq ▸ hlength, hmemory.nodup.filter _, hkept,
      hwall, le_refl _⟩
  case named => exact fun name hname ↦ hmemory.named name (List.mem_filter.mp hname).1
  case serves => exact hserves
  case distinct =>
    have hsublist := serves_sublist List.filter_sublist hmemory.serves hserves
    exact hmemory.distinct.sublist (hsublist.map EchKey.configId)
  case covers =>
    intro hagrees row keyName hdepends hkeyName hretained
    rw [nextHead, List.mem_filter, decide_eq_true_eq]
    exact ⟨hholds.mem_names hagrees hdepends hkeyName hretained, fun hmem ↦
      absurd ((hretired keyName hmem).2 row hdepends) (not_lt.mpr hretained)⟩
  case stays => exact Or.inr hkept

/-- A key that is not listed any more is retired. -/
theorem leaves_collectName {now : ℚ} (hholds : Holds lifecycle wall newest world)
    (hlive : live → world.state.context ≠ none) (hlisted : name ∉ listed newest)
    (hname : name ∉ world.state.names) :
    Leaves (lifecycle.collectName now name) world
      (fun _ final ↦ Holds lifecycle wall newest final ∧ final.state = world.state)
      fun _ final ↦ Kept lifecycle wall live final := by
  refine (leaves_retireActive hholds hlive).bind fun _ next hnext ↦ ?_
  rw [← hnext.2] at hlive hname
  have hother : ∀ other clock, StoreCall.retire name (some now) = .retire other clock →
      other ∉ next.state.names := by
    intro other clock hcall
    obtain ⟨rfl, -⟩ := StoreCall.retire.inj hcall
    exact hname
  exact (leaves_call (.retire name (some now)) hnext.1 hlive hlisted hother).mono
    (fun _ _ h ↦ ⟨h.holds, h.state.trans hnext.2⟩) fun _ _ h ↦ h

/-- `collect`. -/
theorem leaves_collect {works : Bool} (hholds : Holds lifecycle wall newest world)
    (hlive : live → world.state.context ≠ none) :
    Leaves (lifecycle.collect (some wall) works) world
      (fun _ final ↦ Kept lifecycle wall live final)
      fun _ final ↦ Kept lifecycle wall live final := by
  unfold EchLifecycle.collect
  refine (leaves_time hholds hlive).bind ?_
  rintro now next ⟨rfl, hwall, hnext, hstate⟩
  replace hlive : live → next.state.context ≠ none := by
    rw [hstate]
    exact hlive
  clear hstate hholds
  refine leaves_bind.mpr (leaves_getState.mpr ?_)
  refine leaves_read (fun _ ↦ hnext.kept hlive) fun retired hexpired ↦ ?_
  have hretired := expired_eq_ok hexpired
  refine leaves_ite.mpr ⟨fun _ ↦ hnext.kept hlive, fun hsome ↦ ?_⟩
  have hcurrent : next.state.current ∈ next.state.names := by
    refine hnext.memory.current.resolve_left fun hnone ↦ hsome ?_
    rw [hnone.1] at hexpired
    exact (Except.ok.inj hexpired).symm
  refine leaves_read (fun _ ↦ hnext.kept hlive) fun keys hkeys ↦ ?_
  refine leaves_compute (fun _ ↦ hnext.kept hlive) fun context hcontext ↦ ?_
  obtain ⟨-, hlength, -, rfl⟩ := install_eq_ok.mp hcontext
  refine (leaves_commitHead hnext hlive (publishable_collect hnext hwall hcurrent hretired
    (serves_of_recoverKeys hkeys) hlength) ⟨hnext.memory.nodup.filter _, ?_⟩).bind
      fun _ committed hcommitted ↦ ?_
  · rw [List.mem_filter, decide_eq_true_eq]
    exact ⟨hcurrent, fun hmem ↦ (hretired _ hmem).1 rfl⟩
  have hended : live → committed.state.context ≠ none := fun _ ↦ by
    simp [hcommitted.agrees.context]
  have hlisted : ∀ name ∈ retired, name ∉ committed.state.names := by
    intro name hname hmem
    rw [hcommitted.agrees.names, nextHead, List.mem_filter, decide_eq_true_eq] at hmem
    exact hmem.2 hname
  generalize nextHead lifecycle next.state _ next.state.current now = head at hcommitted
  -- None of the names that are left is listed, in the store or in the state.
  have hloop : Leaves (retired.forM (lifecycle.collectName now)) committed
      (fun _ final ↦ Holds lifecycle now (some (head, keys)) final ∧
        final.state = committed.state ∧ ∀ name ∈ ([] : List Text), name ∉ committed.state.names)
      fun _ final ↦ Kept lifecycle now live final := by
    refine Leaves.forM (fun rest final ↦ Holds lifecycle now (some (head, keys)) final ∧
      final.state = committed.state ∧ ∀ name ∈ rest, name ∉ committed.state.names) ?_
        ⟨hcommitted.holds, rfl, hlisted⟩
    rintro name rest world ⟨hworld, hstate, hrest⟩
    have hname := hrest name List.mem_cons_self
    refine (leaves_collectName hworld (hstate ▸ hended) ?_ (hstate ▸ hname)).mono
      (fun _ _ h ↦ ⟨h.1, h.2.trans hstate, fun other hother ↦
        hrest other (List.mem_cons_of_mem _ hother)⟩) fun _ _ h ↦ h
    rw [hcommitted.agrees.names] at hname
    exact hname
  refine hloop.bind fun _ last hlast ↦ ?_
  rw [← hlast.2.1] at hended
  exact (leaves_call (.prunePublications echPrefix (some now)) hlast.1 hended trivial
    fun _ _ h ↦ by cases h).mono (fun _ _ h ↦ h.holds.kept (h.state ▸ hended)) fun _ _ h ↦ h

/-! ### Recovery -/

/-- The newest publication is read whenever recovery begins. -/
theorem readHead_of_journal {row : PublicationRow} {later : ℚ}
    (hjournal : Journal lifecycle tables wall newest)
    (hrow : journalHead tables echPrefix = some row) (hlater : wall ≤ later) :
    ∃ head keys, newest = some (head, keys) ∧
      lifecycle.readHead row later tables = .ok (head, keys) := by
  cases newest with
  | none =>
    have hnone : journalHead tables echPrefix = none := hjournal.starts
    rw [hnone] at hrow
    cases hrow
  | some found =>
    obtain ⟨head, keys⟩ := found
    have hnewest : Newest lifecycle tables wall head keys := hjournal.starts
    obtain ⟨last, hlast, hname, hdecode⟩ := hnewest.row
    obtain rfl : row = last := Option.some.inj (hrow.symm.trans hlast)
    refine ⟨head, keys, rfl, ?_⟩
    have hretained := isRetained_later hlater hnewest.retained
    have hkeys := recoverKeys_of_serves hjournal.sealed hnewest.serves
    rw [EchLifecycle.readHead, hdecode, hname]
    simp only [except_bind_eq_ok, failIf_eq_ok, except_pure_eq_ok]
    exact ⟨(), by simp [hretained], keys, hkeys, (), by simpa using hnewest.distinct, rfl⟩

/-- A name in `_recover`. -/
theorem leaves_restage {current : Text} (hholds : Holds lifecycle wall newest world)
    (hlive : live → world.state.context ≠ none) :
    Leaves (lifecycle.restage current name) world
      (fun _ final ↦ Holds lifecycle wall newest final ∧ final.state = world.state)
      fun _ final ↦ Kept lifecycle wall live final := by
  refine leaves_read (fun _ ↦ hholds.kept hlive) fun found _ ↦ ?_
  have hrest : ∀ next, Holds lifecycle wall newest next ∧ next.state = world.state →
      Leaves (if name ≠ current then lifecycle.retireActive name else pure ()) next
        (fun _ final ↦ Holds lifecycle wall newest final ∧ final.state = world.state)
        fun _ final ↦ Kept lifecycle wall live final := by
    rintro next ⟨hnext, hstate⟩
    refine leaves_ite.mpr ⟨fun _ ↦ ?_, fun _ ↦ ⟨hnext, hstate⟩⟩
    rw [← hstate] at hlive ⊢
    exact leaves_retireActive hnext hlive
  refine leaves_ite.mpr ⟨fun _ ↦ ?_, fun _ ↦ hrest world ⟨hholds, rfl⟩⟩
  exact (leaves_advance hholds hlive).bind fun _ next hnext ↦ hrest next ⟨hnext.holds, hnext.state⟩

/-- A state that has recovered the newest publication. -/
theorem holds_recovered {state : EchState} {row : PublicationRow}
    (hjournal : Journal lifecycle tables wall newest) (hclock : state.clock ≤ wall)
    (hrow : journalHead tables echPrefix = some row)
    (hread : lifecycle.readHead row wall tables = .ok (head, keys))
    (store : Store) (hstore : store.tables = tables) :
    Holds lifecycle wall newest ⟨store, state.recovered head keys⟩ := by
  obtain ⟨found, others, rfl, hfound⟩ := readHead_of_journal hjournal hrow (le_refl wall)
  obtain ⟨rfl, rfl⟩ : found = head ∧ others = keys := by simpa using hfound.symm.trans hread
  have hnewest : Newest lifecycle tables wall found others := hjournal.starts
  have hretained := hnewest.retained
  simp only [EchLifecycle.isRetained, decide_eq_true_eq] at hretained
  obtain ⟨-, -, -, -, -, -, hnodup, hcurrent, -, -⟩ := hretained
  subst hstore
  exact ⟨hjournal, ⟨hclock, hnodup, hnewest.named, hnewest.serves, hnewest.distinct,
    Or.inr hcurrent⟩, .agrees ⟨rfl, rfl, rfl, rfl⟩⟩

/-- `_recover`. -/
theorem leaves_recover {works : Bool} {row : PublicationRow}
    (hjournal : Journal lifecycle world.store.tables wall newest)
    (hclock : world.state.clock ≤ wall)
    (hrow : journalHead world.store.tables echPrefix = some row) :
    Leaves (lifecycle.recover row wall works) world
      (fun _ final ↦ Kept lifecycle wall True final)
      fun _ final ↦ ∃ newest, Journal lifecycle final.store.tables wall newest := by
  unfold EchLifecycle.recover
  refine leaves_bind.mpr (leaves_withError.mpr ?_)
  change Leaves (Program.evaluate (lifecycle.readHead row wall world.store.tables)) world _ _
  refine leaves_evaluate.mpr ⟨fun found hread ↦ ?_, fun _ _ ↦ ⟨newest, hjournal⟩⟩
  obtain ⟨head, keys⟩ := found
  refine leaves_bind.mpr (leaves_withError.mpr (leaves_evaluate.mpr
    ⟨fun context hcontext ↦ ?_, fun _ _ ↦ ⟨newest, hjournal⟩⟩))
  obtain ⟨-, -, -, rfl⟩ := install_eq_ok.mp hcontext
  refine leaves_bind.mpr (leaves_getState.mpr (leaves_bind.mpr (leaves_setState.mpr ?_)))
  have hholds := holds_recovered hjournal hclock hrow hread world.store rfl
  refine (Leaves.forM (fun _ final ↦ Holds lifecycle wall newest final ∧
    final.state = world.state.recovered head keys) (fun name rest next hnext ↦ ?_)
      ⟨hholds, rfl⟩).mono (fun _ final h ↦ ?_) fun _ _ h ↦ h
  · have hlive : True → next.state.context ≠ none := fun _ ↦ by simp [hnext.2, EchState.recovered]
    refine (leaves_restage hnext.1 hlive).mono (fun _ _ h ↦ ⟨h.1, h.2.trans hnext.2⟩)
      fun _ _ h ↦ ?_
    obtain ⟨⟨found, hfound⟩, -⟩ := h
    exact ⟨found, hfound.journal⟩
  · exact h.1.kept fun _ ↦ by simp [h.2, EchState.recovered]

/-- A state before its first publication. -/
theorem holds_blank (hjournal : Journal lifecycle tables wall none) (store : Store)
    (hstore : store.tables = tables) :
    Holds lifecycle wall none ⟨store, { EchState.fresh with clock := wall }⟩ := by
  subst hstore
  exact ⟨hjournal, ⟨le_refl _, List.nodup_nil, fun _ h ↦ absurd h List.not_mem_nil, .nil,
    List.nodup_nil, Or.inl ⟨rfl, rfl, rfl⟩⟩, .blank rfl rfl⟩

/-- `__init__`. -/
theorem leaves_construct {store : Store} {initial : Bool} {generated : ℕ → Option Bytes}
    {works : Bool} (hjournal : Journal lifecycle store.tables wall newest) :
    Leaves (lifecycle.construct (some wall) initial generated works) ⟨store, .fresh⟩
      (fun _ final ↦ Kept lifecycle wall True final)
      fun _ final ↦ ∃ newest, Journal lifecycle final.store.tables wall newest := by
  have hstopped : ∀ final, Kept lifecycle wall False final →
      ∃ newest, Journal lifecycle final.store.tables wall newest :=
    fun final ⟨⟨found, hfound⟩, _⟩ ↦ ⟨found, hfound.journal⟩
  unfold EchLifecycle.construct
  refine (leaves_clock.mono (fun _ _ h ↦ h) fun _ final hfinal ↦ ?_).bind ?_
  · exact ⟨newest, hfinal ▸ hjournal⟩
  rintro now next ⟨rfl, -, rfl⟩
  refine leaves_read (fun _ ↦ ⟨newest, hjournal⟩) fun head hread ↦ ?_
  obtain ⟨-, -, -, hhead⟩ := publicationHead_eq_ok.mp hread
  refine leaves_ite.mpr ⟨fun _ ↦ ?_, fun _ ↦ ?_⟩
  · refine leaves_read (fun _ ↦ ⟨newest, hjournal⟩) fun names _ ↦ ?_
    refine leaves_refuse (fun _ ↦ ⟨newest, hjournal⟩) fun hinitial ↦ ?_
    obtain ⟨rfl, -⟩ : head = none ∧ names = [] := by simpa using hinitial
    cases newest with
    | none =>
      exact (leaves_rotate (holds_blank hjournal store rfl) False.elim).mono (fun _ _ h ↦ h)
        fun _ final h ↦ hstopped final h
    | some found =>
      have hnewest : Newest lifecycle store.tables now found.1 found.2 := hjournal.starts
      obtain ⟨row, hrow, -⟩ := hnewest.row
      exact absurd (hhead.symm.trans hrow) (by simp)
  · cases head with
    | none => exact ⟨newest, hjournal⟩
    | some row => exact leaves_recover hjournal (le_refl _) hhead

/-! ### Runs -/

/-- What every step keeps. -/
def Invariant (lifecycle : EchLifecycle) (system : EchSystem) : Prop :=
  (∃ newest, Journal lifecycle system.store.tables system.wall newest) ∧
    ∀ state, system.state = some state →
      Kept lifecycle system.wall True ⟨system.store, state⟩

variable {system : EchSystem}

/-- What is kept has a journal. -/
theorem Kept.journal (hkept : Kept lifecycle wall live world) :
    ∃ newest, Journal lifecycle world.store.tables wall newest := by
  obtain ⟨⟨newest, hholds⟩, -⟩ := hkept
  exact ⟨newest, hholds.journal⟩

/-- An operation of the process keeps the invariant. -/
theorem Invariant.operate {program : EchM Unit} (hinvariant : Invariant lifecycle system)
    (hprogram : ∀ newest world, Holds lifecycle system.wall newest world →
      (True → world.state.context ≠ none) →
        Leaves program world (fun _ final ↦ Kept lifecycle system.wall True final)
          fun _ final ↦ Kept lifecycle system.wall True final) :
    Invariant lifecycle (system.operate program) := by
  unfold EchSystem.operate
  cases hstate : system.state with
  | none => exact hinvariant
  | some state =>
    obtain ⟨⟨newest, hholds⟩, hlive⟩ := hinvariant.2 state hstate
    have hleaves := hprogram newest ⟨system.store, state⟩ hholds hlive
    unfold Leaves at hleaves
    cases hrun : program ⟨system.store, state⟩ with
    | mk outcome final =>
      have hfinal : Kept lifecycle system.wall True final := by
        rw [hrun] at hleaves
        cases outcome with
        | error failure => exact hleaves
        | ok value => exact hleaves
      simp only [hrun]
      refine ⟨hfinal.journal, fun last hlast ↦ ?_⟩
      simp only at hlast
      split_ifs at hlast
      obtain rfl := Option.some.inj hlast
      exact hfinal

/-- A process that starts keeps the invariant. -/
theorem Invariant.begin {program : EchM Unit}
    (hprogram : Leaves program ⟨system.store, .fresh⟩
      (fun _ final ↦ Kept lifecycle system.wall True final)
        fun _ final ↦ ∃ newest, Journal lifecycle final.store.tables system.wall newest) :
    Invariant lifecycle (system.begin program) := by
  unfold EchSystem.begin
  unfold Leaves at hprogram
  cases hrun : program ⟨system.store, .fresh⟩ with
  | mk outcome final =>
    rw [hrun] at hprogram
    cases outcome with
    | error failure => exact ⟨hprogram, fun last hlast ↦ by cases hlast⟩
    | ok value =>
      refine ⟨Kept.journal hprogram, fun last hlast ↦ ?_⟩
      obtain rfl := Option.some.inj hlast
      exact hprogram

/-- `rewrite` changes the clock alone. -/
theorem leaves_rewrite {original : ServiceSet} (hholds : Holds lifecycle wall newest world)
    (hlive : live → world.state.context ≠ none) :
    Leaves (do let _ ← lifecycle.rewrite original (some wall)) world
      (fun _ final ↦ Kept lifecycle wall live final)
      fun _ final ↦ Kept lifecycle wall live final := by
  have hrewrite : Leaves (lifecycle.rewrite original (some wall)) world
      (fun _ final ↦ Kept lifecycle wall live final)
      fun _ final ↦ Kept lifecycle wall live final := by
    unfold EchLifecycle.rewrite
    refine (leaves_time hholds hlive).bind ?_
    rintro now next ⟨rfl, -, hnext, rfl⟩
    refine leaves_bind.mpr (leaves_getState.mpr ?_)
    exact leaves_evaluate.mpr ⟨fun _ _ ↦ hnext.kept hlive, fun _ _ ↦ hnext.kept hlive⟩
  exact hrewrite.bind fun _ _ h ↦ h

/-- A call of another owner keeps the invariant. -/
theorem Invariant.other {call : StoreCall} (hinvariant : Invariant lifecycle system)
    (hforeign : lifecycle.isForeign system.store.tables call = true) :
    Invariant lifecycle
      { system with store := (performed lifecycle.custody call system.store).2 } := by
  have hmoves := @moves_performed lifecycle call system.store
  obtain ⟨⟨newest, hjournal⟩, hstate⟩ := hinvariant
  refine ⟨⟨newest, hjournal.moves hmoves (harmless_of_isForeign hjournal hforeign)⟩,
    fun state hsome ↦ ?_⟩
  obtain ⟨⟨found, hholds⟩, hlive⟩ := hstate state hsome
  refine Holds.kept ⟨hholds.journal.moves hmoves (harmless_of_isForeign hholds.journal hforeign),
    hholds.memory.moves hmoves ?_, hholds.follows⟩ hlive
  rintro name clock rfl hname
  simp only [EchLifecycle.isForeign, decide_eq_true_eq] at hforeign
  exact hforeign (hholds.memory.named name hname)

/-- Time passes. -/
theorem Invariant.tick {later : ℚ} (hinvariant : Invariant lifecycle system)
    (hlater : system.wall ≤ later) : Invariant lifecycle { system with wall := later } := by
  obtain ⟨⟨newest, hjournal⟩, hstate⟩ := hinvariant
  refine ⟨⟨newest, hjournal.wait hlater⟩, fun state hsome ↦ ?_⟩
  obtain ⟨⟨found, hholds⟩, hlive⟩ := hstate state hsome
  exact Holds.kept ⟨hholds.journal.wait hlater,
    { hholds.memory with clock := hholds.memory.clock.trans hlater }, hholds.follows⟩ hlive

/-- Every step keeps the invariant. -/
theorem Invariant.step (input : EchInput) (hinvariant : Invariant lifecycle system) :
    Invariant lifecycle (lifecycle.step system input) := by
  cases input with
  | tick now => exact hinvariant.tick (le_max_left _ _)
  | exit => exact ⟨hinvariant.1, fun state h ↦ by cases h⟩
  | construct initial generated works =>
    obtain ⟨⟨newest, hjournal⟩, -⟩ := hinvariant
    exact Invariant.begin (leaves_construct hjournal)
  | rotate generated works =>
    exact hinvariant.operate fun _ _ hholds hlive ↦
      (leaves_rotate hholds hlive).mono (fun _ _ h ↦ h) fun _ _ h ↦ h
  | collect works => exact hinvariant.operate fun _ _ hholds hlive ↦ leaves_collect hholds hlive
  | rewrite original => exact hinvariant.operate fun _ _ hholds hlive ↦ leaves_rewrite hholds hlive
  | other call =>
    change Invariant lifecycle (if lifecycle.isForeign system.store.tables call then
      { system with store := (performed lifecycle.custody call system.store).2 } else system)
    split_ifs with hforeign
    · exact hinvariant.other hforeign
    · exact hinvariant

/-- Every run keeps the invariant. -/
theorem Invariant.run (inputs : List EchInput) (hinvariant : Invariant lifecycle system) :
    Invariant lifecycle (lifecycle.run system inputs) := by
  induction inputs generalizing system with
  | nil => exact hinvariant
  | cons input rest ih => exact ih (hinvariant.step input)

/-- What is promised of the lifecycle. -/
structure EchSafe (lifecycle : EchLifecycle) (system : EchSystem) : Prop where
  /-- Whenever a process starts, it recovers the newest publication: distinct keys that are neither
  unpublished nor retired, with distinct identifiers, and the current one among them. -/
  recovers : ∀ row, journalHead system.store.tables echPrefix = some row →
    ∀ now, system.wall ≤ now → ∃ head keys,
      lifecycle.readHead row now system.store.tables = .ok (head, keys) ∧
        head.names = lifecycle.headNames system.store.tables ∧ head.names.Nodup ∧
          head.current ∈ head.names ∧ (keys.map EchKey.configId).Nodup
  /-- What is retained depends on none but the keys that the newest publication lists. -/
  owned : ∀ row keyName, system.store.tables.Depends row keyName → keyPrefix <+: keyName →
    system.wall ≤ row.retainUntil → keyName ∈ lifecycle.headNames system.store.tables
  /-- The keys of a process are those of its context, and the current one is listed. -/
  serving : ∀ state, system.state = some state → ∃ keys, state.context = some keys ∧
    lifecycle.recoverKeys state.names system.store.tables = .ok keys ∧
      state.current ∈ lifecycle.headNames system.store.tables

/-- The current key of a process is listed. -/
theorem Holds.current_mem (hholds : Holds lifecycle wall newest world)
    (hcontext : world.state.context ≠ none) : world.state.current ∈ listed newest := by
  have hcurrent : world.state.current ∈ world.state.names :=
    hholds.memory.current.resolve_left fun hnone ↦ hcontext hnone.2.2
  cases hholds.follows with
  | blank _ hnames => simp [hnames] at hcurrent
  | agrees hagrees =>
    rw [hagrees.names] at hcurrent
    exact hcurrent
  | behind _ hlisted =>
    refine hlisted.resolve_left fun hnone ↦ ?_
    have hprefix := hholds.memory.named _ hcurrent
    rw [hnone] at hprefix
    exact absurd (List.prefix_nil.mp hprefix) (by decide)

/-- The invariant is what is promised. -/
theorem Invariant.safe (hinvariant : Invariant lifecycle system) : EchSafe lifecycle system := by
  obtain ⟨⟨newest, hjournal⟩, hstate⟩ := hinvariant
  constructor
  case recovers =>
    intro row hrow now hnow
    obtain ⟨head, keys, rfl, hread⟩ := readHead_of_journal hjournal hrow hnow
    have hnewest : Newest lifecycle system.store.tables system.wall head keys := hjournal.starts
    have hretained := hnewest.retained
    simp only [EchLifecycle.isRetained, decide_eq_true_eq] at hretained
    obtain ⟨-, -, -, -, -, -, hnodup, hcurrent, -, -⟩ := hretained
    exact ⟨head, keys, hread, hjournal.headNames.symm, hnodup, hcurrent, hnewest.distinct⟩
  case owned =>
    intro row keyName hdepends hname hretained
    rw [hjournal.headNames]
    exact hjournal.owned row keyName hdepends hname hretained
  case serving =>
    intro state hsome
    obtain ⟨⟨found, hholds⟩, hlive⟩ := hstate state hsome
    obtain ⟨keys, hkeys⟩ := Option.ne_none_iff_exists'.mp (hlive trivial)
    refine ⟨keys, hkeys, recoverKeys_of_serves hholds.journal.sealed ?_, ?_⟩
    · have hserves := hholds.memory.serves
      rwa [hkeys] at hserves
    · rw [hholds.journal.headNames]
      exact hholds.current_mem (hlive trivial)

section Example

open Foundation.PrefixCodes

/-- The code of a time. -/
def timeCode : Code Octet ℚ :=
  (Crl.intCode.pair Crl.natCode).via (fun value ↦ (value.num, value.den))
    (fun parts ↦ some (mkRat parts.1 parts.2)) fun value ↦ by simp [Rat.mkRat_self]

/-- The code of a publication. -/
def headCode : Code Octet EchHead :=
  (Crl.natCode.pair (Crl.textCode.pair (Crl.textCode.pair
    ((Code.many Crl.natCode Crl.textCode).pair timeCode)))).via
    (fun value ↦ (value.generation, value.publicName, value.current, value.names, value.createdAt))
    (fun parts ↦ some ⟨parts.1, parts.2.1, parts.2.2.1, parts.2.2.2.1, parts.2.2.2.2⟩) fun _ ↦ rfl

/-- A library whose keys are their own configurations. -/
def openLibrary : EchLibrary where
  fromPem pem := some pem
  hexdigest content := content.map fun octet ↦ Char.ofNat (48 + octet.val % 10)
  encode := headCode.write
  decode content := (headCode.decode content).map some
  decode_encode head := by simp

/-- A lifecycle whose publications last for a minute. -/
def openLifecycle : EchLifecycle :=
  ⟨openCustody, openLibrary, "proxy".toList, 60, by norm_num⟩

/-- A key for each number. -/
def openKeys (number : Octet) : ℕ → Option Bytes :=
  fun _ ↦ some (List.replicate 7 number)

/-- A second key whose publication fails after it was written, and a restart. -/
def restarted : List EchInput :=
  [.tick 10, .construct true (openKeys 1) true, .tick 20, .rotate (openKeys 2) true, .exit,
    .tick 90, .construct false (openKeys 3) true, .collect true]

/-- The surroundings of that run. -/
def failing (index : ℕ) : Surroundings :=
  if index = 6 then { calm with sync := some .killed } else calm

end Example

end Ads.SandboxEgress.Ech
