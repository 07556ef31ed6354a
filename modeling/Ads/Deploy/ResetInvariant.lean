import Mathlib.Data.List.Perm.Basic
import Mathlib.Data.List.Nodup
import Ads.Deploy.Reset

/-!
# What a reset keeps

The invariant of the schema reset: what the stored checkpoint says of the databases, the workloads
and the backup, in each phase. In the phase `preserved` nothing runs, so nobody but the coordinator
changes anything, and the models are still those of the backup or are gone; in the phases `restore`
and `restored` nothing but the service of the models runs, and the models are those that the
coordinator has created from the backup.
-/

set_option autoImplicit false
set_option relaxedAutoImplicit false

namespace Ads.Deploy.Reset

open Python Foundation Foundation.StateExcept Foundation.Interrupted Foundation.Disturbed

variable {coordinator : ResetCoordinator} {state : ResetState} {checkpoint : Checkpoint}

/-! ### What others change -/

/-- Nothing runs but some services. -/
def ResetState.QuietExcept (state : ResetState) (services : List Text) : Prop :=
  ∀ workload ∈ state.workloads, workload.definition.service ∈ services ∨ workload.isQuiet = true

/-- The live models. -/
def ResetState.live (state : ResetState) : List ModelRow :=
  (state.databases preferencesService).models

@[simp] theorem Workload.settled_definition (workload : Workload) :
    workload.settled.definition = workload.definition := by
  unfold Workload.settled
  split <;> rfl

@[simp] theorem Workload.scaled_definition (workload : Workload) (replicas : ℕ) :
    (workload.scaled replicas).definition = workload.definition :=
  rfl

/-- A workload of which nothing runs has no pods to lose. -/
theorem Workload.settled_of_isQuiet {workload : Workload} (hquiet : workload.isQuiet = true) :
    workload.settled = workload := by
  unfold Workload.isQuiet at hquiet
  unfold Workload.settled
  obtain ⟨definition, uid, selector, replicas, running⟩ := workload
  simp_all

section Change

variable (disturbance : Disturbance)

@[simp] theorem change_checkpoint : (state.change disturbance).checkpoint = state.checkpoint := by
  cases disturbance <;> simp only [ResetState.change, ResetState.put] <;> split <;> rfl

@[simp] theorem change_models : (state.change disturbance).models = state.models := by
  cases disturbance <;> simp only [ResetState.change, ResetState.put] <;> split <;> rfl

@[simp] theorem change_cycles : (state.change disturbance).cycles = state.cycles := by
  cases disturbance <;> simp only [ResetState.change, ResetState.put] <;> split <;> rfl

@[simp] theorem change_drops : (state.change disturbance).drops = state.drops := by
  cases disturbance <;> simp only [ResetState.change, ResetState.put] <;> split <;> rfl

/-- The workloads stay, and what is quiet stays quiet. -/
theorem change_workloads (state : ResetState) (disturbance : Disturbance) :
    ∃ next : Workload → Workload, (state.change disturbance).workloads = state.workloads.map next ∧
      ∀ workload, (next workload).definition = workload.definition ∧
        (workload.isQuiet = true → next workload = workload) := by
  cases disturbance with
  | settle definition =>
    refine ⟨_, rfl, fun workload ↦ ?_⟩
    split
    · exact ⟨workload.settled_definition, Workload.settled_of_isQuiet⟩
    · exact ⟨rfl, fun _ ↦ rfl⟩
  | write models =>
    refine ⟨id, ?_, fun workload ↦ ⟨rfl, fun _ ↦ rfl⟩⟩
    simp only [ResetState.change, ResetState.put, List.map_id]
    split <;> rfl
  | use service rows =>
    refine ⟨id, ?_, fun workload ↦ ⟨rfl, fun _ ↦ rfl⟩⟩
    simp only [ResetState.change, ResetState.put, List.map_id]
    split <;> rfl

@[simp] theorem change_definitions : (state.change disturbance).workloads.map Workload.definition =
    state.workloads.map Workload.definition := by
  obtain ⟨next, hworkloads, hnext⟩ := change_workloads state disturbance
  rw [hworkloads, List.map_map]
  exact List.map_congr_left fun workload _ ↦ (hnext workload).1

/-- What is fenced stays fenced. -/
theorem quietExcept_change {services : List Text} (hquiet : state.QuietExcept services) :
    (state.change disturbance).QuietExcept services := by
  obtain ⟨next, hworkloads, hnext⟩ := change_workloads state disturbance
  intro workload hworkload
  rw [hworkloads] at hworkload
  obtain ⟨earlier, hearlier, rfl⟩ := List.mem_map.mp hworkload
  rw [(hnext earlier).1]
  refine (hquiet earlier hearlier).imp_right fun hearlierQuiet ↦ ?_
  rw [(hnext earlier).2 hearlierQuiet, hearlierQuiet]

/-- Nobody but the coordinator creates or drops tables. -/
@[simp] theorem change_tables (service : Text) :
    ((state.change disturbance).databases service).tables = (state.databases service).tables := by
  cases disturbance with
  | settle definition => rfl
  | write models =>
    simp only [ResetState.change, ResetState.put]
    split
    · by_cases hservice : service = preferencesService
      · subst hservice
        simp
      · simp [Function.update_of_ne hservice]
    · rfl
  | use other rows =>
    simp only [ResetState.change, ResetState.put]
    split
    · by_cases hservice : service = other
      · subst hservice
        simp
      · simp [Function.update_of_ne hservice]
    · rfl

/-- The models stay as they are when nobody may write them. -/
theorem change_live (hwritable : state.writable = false) :
    (state.change disturbance).live = state.live := by
  cases disturbance with
  | settle definition => rfl
  | write models => simp [ResetState.change, hwritable]
  | use service rows =>
    simp only [ResetState.change, ResetState.put]
    split
    · unfold ResetState.live
      by_cases hservice : preferencesService = service
      · subst hservice
        simp
      · simp [Function.update_of_ne hservice]
    · rfl

end Change

/-- Nobody writes models when nothing runs. -/
theorem not_writable_of_quiet (hquiet : state.QuietExcept []) : state.writable = false := by
  unfold ResetState.writable
  rw [List.any_eq_false]
  intro workload hworkload
  obtain hnone | hworkloadQuiet := hquiet workload hworkload
  · cases hnone
  · simp [hworkloadQuiet]

/-- Nobody writes models while they are restored and nothing but their service runs. -/
theorem not_writable_of_restoring (hrestoring : state.restoring = true)
    (hquiet : state.QuietExcept [preferencesService]) : state.writable = false := by
  unfold ResetState.writable
  rw [List.any_eq_false]
  intro workload hworkload
  obtain hservice | hworkloadQuiet := hquiet workload hworkload
  · simp [List.mem_singleton.mp hservice, hrestoring]
  · simp [hworkloadQuiet]

/-! ### The invariant -/

/-- What a model is, whatever its identifier. -/
def ModelRow.content (row : ModelRow) : Text × Payload :=
  (row.userId, row.payload)

/-- Rows that the validators accept. -/
def ResetCoordinator.Valid (coordinator : ResetCoordinator) (rows : List ModelRow) : Prop :=
  coordinator.validators.validateModels rows = .ok rows

/-- A drop is one of a cycle. -/
def Drop.IsOf (drop : Drop) (cycle : ℕ) : Prop :=
  ∃ checkpoint ∈ drop.checkpoint, checkpoint.cycle = cycle

/-- **Nothing is lost by a drop.** It comes after the backup, which holds every model that is
dropped, and no workload runs. -/
structure Drop.Covered (coordinator : ResetCoordinator) (drop : Drop) : Prop where
  preserved : ∃ checkpoint ∈ drop.checkpoint, checkpoint.phase = .preserved
  backup : ∃ backup ∈ drop.backup, coordinator.Valid backup ∧ drop.models ⊆ backup
  quiet : ∀ workload ∈ drop.workloads, workload.isQuiet = true

/-- The backup of the cycle of a checkpoint is there: what its drops have found. -/
def Kept (coordinator : ResetCoordinator) (state : ResetState) (checkpoint : Checkpoint)
    (backup : List ModelRow) : Prop :=
  state.models = some backup ∧ coordinator.Valid backup ∧
    ∀ drop ∈ state.drops, drop.IsOf checkpoint.cycle → drop.backup = some backup

/-- Models that were created from a backup, each row once at most. -/
structure CreatedFrom (backup live : List ModelRow) : Prop where
  content : live.map ModelRow.content ⊆ backup.map ModelRow.content
  identities : (live.map ModelRow.identity).Nodup
  ids : (live.map ModelRow.id).Nodup

/-- A row of a backup and what it was restored as. -/
def Restores (live : List ModelRow) (row : ModelRow) (restored : Text × Text) : Prop :=
  restored.1 = row.id ∧ ∃ found ∈ live, found.id = restored.2 ∧ found.content = row.content

/-- Nothing runs, and the models are those of the backup or gone. A database that was dropped in
this cycle is recorded or has no tables. -/
def IsPreserved (coordinator : ResetCoordinator) (state : ResetState) (checkpoint : Checkpoint) :
    Prop :=
  ∃ backup, Kept coordinator state checkpoint backup ∧ state.QuietExcept [] ∧
    state.live ⊆ backup ∧
    ((state.databases preferencesService).tables = [] ∨ preferencesService ∈ checkpoint.reset →
      state.live = []) ∧
    ∀ drop ∈ state.drops, drop.IsOf checkpoint.cycle →
      drop.service ∈ checkpoint.reset ∨ (state.databases drop.service).tables = []

/-- Nothing runs but the service of the models, and the models are created from the backup. -/
def IsRestoring (coordinator : ResetCoordinator) (state : ResetState) (checkpoint : Checkpoint) :
    Prop :=
  ∃ backup, Kept coordinator state checkpoint backup ∧ state.QuietExcept [preferencesService] ∧
    CreatedFrom backup state.live

/-- The same when all of the backup is restored, as the mapping says. -/
def IsRestored (coordinator : ResetCoordinator) (state : ResetState) (checkpoint : Checkpoint) :
    Prop :=
  ∃ backup, Kept coordinator state checkpoint backup ∧ state.QuietExcept [preferencesService] ∧
    CreatedFrom backup state.live ∧ List.Forall₂ (Restores state.live) backup checkpoint.mapping

/-- The mapping has each row of the backup, as a model of its own. -/
def IsMapped (coordinator : ResetCoordinator) (state : ResetState) (checkpoint : Checkpoint) :
    Prop :=
  ∃ backup, Kept coordinator state checkpoint backup ∧
    checkpoint.mapping.map Prod.fst = backup.map ModelRow.id ∧
    (checkpoint.mapping.map Prod.snd).Nodup

/-- What the checkpoint of a reset says. -/
def Fits (coordinator : ResetCoordinator) (state : ResetState) (checkpoint : Checkpoint) : Prop :=
  match checkpoint.phase with
  | .discovered => checkpoint.reset = [] ∧ ∀ drop ∈ state.drops, ¬ drop.IsOf checkpoint.cycle
  | .preserved => IsPreserved coordinator state checkpoint
  | .restore => IsRestoring coordinator state checkpoint
  | .restored => IsRestored coordinator state checkpoint
  | .resuming => IsMapped coordinator state checkpoint
  | .complete => IsMapped coordinator state checkpoint

theorem fits_discovered (hphase : checkpoint.phase = .discovered) :
    Fits coordinator state checkpoint ↔
      checkpoint.reset = [] ∧ ∀ drop ∈ state.drops, ¬ drop.IsOf checkpoint.cycle := by
  unfold Fits
  rw [hphase]

theorem fits_preserved (hphase : checkpoint.phase = .preserved) :
    Fits coordinator state checkpoint ↔ IsPreserved coordinator state checkpoint := by
  unfold Fits
  rw [hphase]

theorem fits_restore (hphase : checkpoint.phase = .restore) :
    Fits coordinator state checkpoint ↔ IsRestoring coordinator state checkpoint := by
  unfold Fits
  rw [hphase]

theorem fits_restored (hphase : checkpoint.phase = .restored) :
    Fits coordinator state checkpoint ↔ IsRestored coordinator state checkpoint := by
  unfold Fits
  rw [hphase]

theorem fits_mapped (hphase : checkpoint.phase = .resuming ∨ checkpoint.phase = .complete) :
    Fits coordinator state checkpoint ↔ IsMapped coordinator state checkpoint := by
  unfold Fits
  obtain hresuming | hcomplete := hphase
  · rw [hresuming]
  · rw [hcomplete]

/-- What holds after every operation. -/
structure Invariant (coordinator : ResetCoordinator) (state : ResetState) : Prop where
  definitions : state.workloads.map Workload.definition = coordinator.definitions
  covered : ∀ drop ∈ state.drops, drop.Covered coordinator
  numbered : ∀ drop ∈ state.drops, ∃ cycle < state.cycles, drop.IsOf cycle
  once : state.drops.Pairwise fun first second ↦
    ∀ cycle, first.IsOf cycle → second.IsOf cycle → first.service ≠ second.service
  stored : ∀ checkpoint ∈ state.checkpoint, checkpoint.cycle < state.cycles
  fits : ∀ checkpoint ∈ state.checkpoint, Fits coordinator state checkpoint

/-- The invariant, with the checkpoint that is stored. -/
def At (coordinator : ResetCoordinator) (checkpoint : Checkpoint) (state : ResetState) : Prop :=
  Invariant coordinator state ∧ state.checkpoint = some checkpoint

/-- What was restored stays so as long as the models do. -/
theorem Restores.mono {live more : List ModelRow} {row : ModelRow} {restored : Text × Text}
    (hrestores : Restores live row restored) (hmore : live ⊆ more) : Restores more row restored :=
  ⟨hrestores.1, hrestores.2.imp fun _ hfound ↦ ⟨hmore hfound.1, hfound.2⟩⟩

/-- The databases and the fence that a phase relies on stay. -/
theorem Fits.change (hfits : Fits coordinator state checkpoint)
    (hstored : state.checkpoint = some checkpoint) (disturbance : Disturbance) :
    Fits coordinator (state.change disturbance) checkpoint := by
  have hkept : ∀ backup, Kept coordinator state checkpoint backup →
      Kept coordinator (state.change disturbance) checkpoint backup := by
    intro backup hbackup
    simpa [Kept] using hbackup
  have hrestoring : checkpoint.phase = .restore ∨ checkpoint.phase = .restored →
      state.restoring = true := by
    intro hphase
    simpa [ResetState.restoring, hstored] using hphase
  cases hphase : checkpoint.phase with
  | discovered =>
    rw [fits_discovered hphase] at hfits ⊢
    simpa using hfits
  | preserved =>
    rw [fits_preserved hphase] at hfits ⊢
    obtain ⟨backup, hbackup, hquiet, hlive, hgone, hdrops⟩ := hfits
    refine ⟨backup, hkept _ hbackup, quietExcept_change _ hquiet, ?_, ?_, ?_⟩
    · rwa [change_live _ (not_writable_of_quiet hquiet)]
    · rwa [change_live _ (not_writable_of_quiet hquiet), change_tables]
    · simpa using hdrops
  | restore =>
    rw [fits_restore hphase] at hfits ⊢
    obtain ⟨backup, hbackup, hquiet, hcreated⟩ := hfits
    refine ⟨backup, hkept _ hbackup, quietExcept_change _ hquiet, ?_⟩
    rwa [change_live _ (not_writable_of_restoring (hrestoring (.inl hphase)) hquiet)]
  | restored =>
    rw [fits_restored hphase] at hfits ⊢
    obtain ⟨backup, hbackup, hquiet, hcreated, hmapping⟩ := hfits
    refine ⟨backup, hkept _ hbackup, quietExcept_change _ hquiet, ?_⟩
    rw [change_live _ (not_writable_of_restoring (hrestoring (.inr hphase)) hquiet)]
    exact ⟨hcreated, hmapping⟩
  | resuming =>
    rw [fits_mapped (.inl hphase)] at hfits ⊢
    exact hfits.imp fun backup hbackup ↦ hbackup.imp_left (hkept _)
  | complete =>
    rw [fits_mapped (.inr hphase)] at hfits ⊢
    exact hfits.imp fun backup hbackup ↦ hbackup.imp_left (hkept _)

/-- Others keep the invariant. -/
theorem Invariant.change (hinvariant : Invariant coordinator state) (disturbance : Disturbance) :
    Invariant coordinator (state.change disturbance) where
  definitions := by rw [change_definitions, hinvariant.definitions]
  covered := by simpa using hinvariant.covered
  numbered := by simpa using hinvariant.numbered
  once := by simpa using hinvariant.once
  stored := by simpa using hinvariant.stored
  fits := by
    intro checkpoint hcheckpoint
    rw [change_checkpoint] at hcheckpoint
    exact (hinvariant.fits checkpoint hcheckpoint).change hcheckpoint disturbance

end Ads.Deploy.Reset
