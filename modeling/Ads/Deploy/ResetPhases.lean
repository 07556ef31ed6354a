import Ads.Deploy.ResetOperations

/-!
# The phases of a reset

Each phase of the schema reset takes the stored checkpoint to the next one: before the databases are
dropped the backup is written and compared with what is live, a database is dropped once and made
anew, and a restoration creates each model of the backup once, however often it is begun.
-/

set_option autoImplicit false
set_option relaxedAutoImplicit false

namespace Ads.Deploy.Reset

open Python Foundation Foundation.StateExcept Foundation.Interrupted Foundation.Disturbed

variable {coordinator : ResetCoordinator} {state : ResetState} {checkpoint next : Checkpoint}
  {captured : WorkloadSnapshot} {holds : ResetState → Prop} {backup live : List ModelRow}

/-! ### What the coordinator changes -/

/-- A change that a phase allows keeps the invariant. -/
theorem At.replace {final : ResetState} (hat : At coordinator checkpoint state)
    (hdefinitions : final.workloads.map Workload.definition =
      state.workloads.map Workload.definition)
    (hdrops : final.drops = state.drops) (hcycles : final.cycles = state.cycles)
    (hcheckpoint : final.checkpoint = state.checkpoint)
    (hfits : Fits coordinator state checkpoint → Fits coordinator final checkpoint) :
    At coordinator checkpoint final := by
  obtain ⟨hinvariant, hstored⟩ := hat
  refine ⟨⟨?_, ?_, ?_, ?_, ?_, ?_⟩, hcheckpoint.trans hstored⟩
  · rw [hdefinitions, hinvariant.definitions]
  · rw [hdrops]
    exact hinvariant.covered
  · rw [hdrops, hcycles]
    exact hinvariant.numbered
  · rw [hdrops]
    exact hinvariant.once
  · rw [hcheckpoint, hcycles]
    exact hinvariant.stored
  · rw [hcheckpoint, hstored]
    rintro found ⟨⟩
    exact hfits (hinvariant.fits checkpoint hstored)

/-- What the stored checkpoint says. -/
theorem At.fits (hat : At coordinator checkpoint state) : Fits coordinator state checkpoint :=
  hat.1.fits checkpoint hat.2

@[simp] theorem scale_definitions (definition : Definition) (replicas : ℕ) :
    (state.scale definition replicas).workloads.map Workload.definition =
      state.workloads.map Workload.definition := by
  unfold ResetState.scale
  rw [List.map_map]
  refine List.map_congr_left fun workload _ ↦ ?_
  simp only [Function.comp_apply]
  split <;> rfl

/-- Scaling a workload of an excepted service leaves the others fenced. -/
theorem quietExcept_scale {services : List Text} {definition : Definition} (replicas : ℕ)
    (hservice : definition.service ∈ services) (hquiet : state.QuietExcept services) :
    (state.scale definition replicas).QuietExcept services := by
  intro workload hworkload
  obtain ⟨earlier, hearlier, rfl⟩ := List.mem_map.mp hworkload
  by_cases hsame : earlier.definition = definition
  · rw [if_pos hsame]
    left
    rwa [Workload.scaled_definition, hsame]
  · rw [if_neg hsame]
    exact hquiet earlier hearlier

/-- Workloads are scaled before the databases are touched and after the restoration, and while the
models are restored those of their service. -/
theorem At.scale {definition : Definition} (replicas : ℕ)
    (hphase : checkpoint.phase = .discovered ∨ checkpoint.phase = .resuming ∨
      checkpoint.phase = .restore ∧ definition.service = preferencesService)
    (hat : At coordinator checkpoint state) :
    At coordinator checkpoint (state.scale definition replicas) := by
  refine hat.replace (scale_definitions _ _) rfl rfl rfl fun hfits ↦ ?_
  obtain hdiscovered | hresuming | ⟨hrestore, hservice⟩ := hphase
  · rw [fits_discovered hdiscovered] at hfits ⊢
    exact hfits
  · rw [fits_mapped (.inl hresuming)] at hfits ⊢
    exact hfits
  · rw [fits_restore hrestore] at hfits ⊢
    obtain ⟨backup, hkept, hquiet, hcreated⟩ := hfits
    exact ⟨backup, hkept, quietExcept_scale replicas (by simp [hservice]) hquiet, hcreated⟩

/-- A database that was dropped is made anew, without models. -/
theorem At.put {service : Text} {database : DatabaseState} (hphase : checkpoint.phase = .preserved)
    (hreset : service ∈ checkpoint.reset)
    (hmodels : database.models = (state.databases service).models)
    (hat : At coordinator checkpoint state) :
    At coordinator checkpoint (state.put service database) := by
  have hlive : (state.put service database).live = state.live := by
    unfold ResetState.live ResetState.put
    by_cases hservice : preferencesService = service
    · subst hservice
      simp [hmodels]
    · simp [Function.update_of_ne hservice]
  refine hat.replace rfl rfl rfl rfl fun hfits ↦ ?_
  rw [fits_preserved hphase] at hfits ⊢
  unfold IsPreserved
  rw [hlive]
  obtain ⟨backup, hkept, hquiet, hincluded, hgone, hdrops⟩ := hfits
  refine ⟨backup, hkept, hquiet, hincluded, fun hempty ↦ hgone ?_, fun drop hdrop hcycle ↦ ?_⟩
  · by_cases hservice : preferencesService = service
    · exact .inr (hservice ▸ hreset)
    · simpa [ResetState.put, Function.update_of_ne hservice] using hempty
  · by_cases hservice : drop.service = service
    · exact .inl (hservice ▸ hreset)
    · simpa [ResetState.put, Function.update_of_ne hservice] using hdrops drop hdrop hcycle

/-! ### The backup -/

/-- The checkpoint, with a backup that is written. -/
def Saved (coordinator : ResetCoordinator) (checkpoint : Checkpoint) (backup : List ModelRow)
    (state : ResetState) : Prop :=
  At coordinator checkpoint state ∧ state.models = some backup

theorem steady_saved : Steady coordinator (Saved coordinator checkpoint backup) :=
  steady_at.and fun _ disturbance _ hmodels ↦ (change_models disturbance).trans hmodels

/-- A backup is read back after it is written, or an earlier one is there. -/
theorem assures_refreshBackup (rows : List ModelRow) (hphase : checkpoint.phase = .discovered) :
    Assures coordinator (At coordinator checkpoint) (coordinator.refreshBackup rows)
      fun backup state ↦ coordinator.Valid backup ∧ Saved coordinator checkpoint backup state := by
  have hreads : Assures coordinator (At coordinator checkpoint) (do
      let stored ← ResetCoordinator.readModels
      Program.evaluate (coordinator.validators.validateModels stored)) fun backup state ↦
        coordinator.Valid backup ∧ Saved coordinator checkpoint backup state := by
    refine (assures_readModels steady_at).bind fun stored ↦ ?_
    refine Relies.evaluate (fun value state hvalue hstate ↦ ?_) fun _ state _ hstate ↦ hstate.1.1
    obtain ⟨rfl, hvalid⟩ := validateModels_eq_ok hvalue
    exact ⟨hvalid, hstate⟩
  unfold ResetCoordinator.refreshBackup
  split
  · exact hreads.withError
  · refine Relies.bindAt (fun _ ↦ At coordinator checkpoint)
      (Relies.evaluate (fun _ _ _ h ↦ h) fun _ _ _ h ↦ h.1) fun checked ↦ ?_
    refine Relies.bindAt (fun _ ↦ At coordinator checkpoint) ?_ fun _ ↦ hreads
    refine assures_perform steady_at fun state value final hstate hrun ↦ ?_
    simp only [bind_eq_ok, get_eq_ok, set_eq_ok] at hrun
    obtain ⟨_, _, ⟨rfl, rfl⟩, -, rfl⟩ := hrun
    have hafter : At coordinator checkpoint { state with models := some checked } := by
      refine hstate.replace rfl rfl rfl rfl fun hfits ↦ ?_
      rw [fits_discovered hphase] at hfits ⊢
      exact hfits
    exact ⟨hafter, hafter.1⟩

/-- The models of an owner are compared. -/
theorem assures_verifyOwner (hsteady : Steady coordinator holds) (owner : Text) :
    Assures coordinator holds (ResetCoordinator.verifyOwner backup owner) fun _ ↦ holds :=
  (assures_ownerModels hsteady).bind fun _ ↦ (assures_refuseIf hsteady).weaken fun _ _ h ↦ h.2

/-- The associations are written. -/
theorem assures_writeAssociations {associations : List (Text × List (Text × List Text))}
    (hsteady : Steady coordinator holds)
    (hwrite : ∀ state, holds state → holds { state with associations := some associations }) :
    Assures coordinator holds (ResetCoordinator.writeAssociations associations) fun _ ↦ holds := by
  refine assures_perform hsteady fun state value final hstate hrun ↦ ?_
  simp only [bind_eq_ok, get_eq_ok, set_eq_ok] at hrun
  obtain ⟨_, _, ⟨rfl, rfl⟩, -, rfl⟩ := hrun
  exact ⟨hwrite _ hstate, hsteady.invariant _ (hwrite _ hstate)⟩

/-- The backup is written, nothing runs, and the live models are these. -/
def Compared (coordinator : ResetCoordinator) (checkpoint : Checkpoint)
    (backup current : List ModelRow) (state : ResetState) : Prop :=
  (Saved coordinator checkpoint backup state ∧ state.QuietExcept []) ∧
    List.Perm current state.live ∧ (state.databases preferencesService).tables ≠ []

theorem steady_compared {current : List ModelRow} :
    Steady coordinator (Compared coordinator checkpoint backup current) := by
  refine (steady_saved.and fun _ disturbance _ ↦ quietExcept_change disturbance).and
    fun state disturbance hstate hlive ↦ ?_
  rwa [change_live _ (not_writable_of_quiet hstate.2), change_tables]

/-- The databases hold the models of the backup when the phase ends, or none. -/
theorem Compared.fits {current : List ModelRow}
    (hstate : Compared coordinator checkpoint backup current state)
    (hphase : checkpoint.phase = .discovered) (hvalid : coordinator.Valid backup)
    (hcurrent : ¬ (current ≠ [] ∧ current ≠ backup)) :
    Fits coordinator state { checkpoint with phase := .preserved } := by
  obtain ⟨⟨⟨hat, hmodels⟩, hquiet⟩, hperm, htables⟩ := hstate
  obtain ⟨hreset, hdrops⟩ := (fits_discovered hphase).mp hat.fits
  have hnone : ∀ drop ∈ state.drops, ∀ fact : Prop, drop.IsOf checkpoint.cycle → fact :=
    fun drop hdrop fact hcycle ↦ absurd hcycle (hdrops drop hdrop)
  refine (fits_preserved rfl).mpr ⟨backup, ⟨hmodels, hvalid, fun drop hdrop ↦ hnone drop hdrop _⟩,
    hquiet, ?_, ?_, fun drop hdrop ↦ hnone drop hdrop _⟩
  · intro row hrow
    have hmem : row ∈ current := hperm.mem_iff.mpr hrow
    by_cases hempty : current = []
    · simp [hempty] at hmem
    · rwa [← not_not.mp fun hother ↦ hcurrent ⟨hempty, hother⟩]
  · rintro (hempty | hmem)
    · exact absurd hempty htables
    · simp [hreset] at hmem

/-- What is compared with the backup is what the databases hold until they are dropped. -/
theorem assures_preserve (hphase : checkpoint.phase = .discovered) :
    Assures coordinator (At coordinator checkpoint) (coordinator.preserve checkpoint)
      fun next ↦ At coordinator next := by
  have hscale : ∀ state definition replicas, At coordinator checkpoint state →
      At coordinator checkpoint (state.scale definition replicas) :=
    fun state definition replicas hat ↦ hat.scale replicas (.inl hphase)
  have hscaleSaved : ∀ backup state definition replicas,
      Saved coordinator checkpoint backup state →
        Saved coordinator checkpoint backup (state.scale definition replicas) :=
    fun backup state definition replicas hstate ↦ ⟨hscale _ _ _ hstate.1, hstate.2⟩
  unfold ResetCoordinator.preserve
  refine Relies.bindAt (fun _ ↦ At coordinator checkpoint)
    ((assures_pause steady_at hscale).weaken fun _ _ h ↦ h.1) fun _ ↦ ?_
  refine Relies.bindAt (fun _ ↦ At coordinator checkpoint)
    ((assures_liveModels steady_at).weaken fun _ _ h ↦ h.1) fun rows ↦ ?_
  refine (assures_refreshBackup rows hphase).bind fun backup ↦ Relies.of_fact fun hvalid ↦ ?_
  refine (assures_startPreferences steady_saved fun state definition replicas _ ↦
    hscaleSaved backup state definition replicas).bind fun _ ↦ ?_
  refine (Relies.forM fun owner ↦ assures_verifyOwner steady_saved owner).bind fun _ ↦ ?_
  refine (assures_pause steady_saved (hscaleSaved backup)).bind fun _ ↦ ?_
  refine (assures_liveModels (steady_saved.and fun _ disturbance _ ↦
    quietExcept_change disturbance)).bind fun current ↦ ?_
  refine Relies.bind (assures_refuseIf steady_compared) fun _ ↦ Relies.of_fact fun hcurrent ↦ ?_
  refine (assures_allAssociations steady_compared _).bind fun associations ↦ ?_
  refine (assures_writeAssociations steady_compared fun state hstate ↦ ?_).bind fun _ ↦ ?_
  · exact ⟨⟨⟨hstate.1.1.1.replace rfl rfl rfl rfl fun hfits ↦ hfits, hstate.1.1.2⟩, hstate.1.2⟩,
      hstate.2⟩
  · refine (assures_save steady_compared fun state hstate ↦ ?_).bind fun _ ↦
      Relies.pure fun _ h ↦ h
    have hat := hstate.1.1.1
    exact ⟨hstate.fits hphase hvalid hcurrent, hat.1.stored checkpoint hat.2⟩

/-! ### The databases -/

/-- A database without tables, in the phase `preserved`. -/
def Dropped (coordinator : ResetCoordinator) (checkpoint : Checkpoint) (service : Text)
    (state : ResetState) : Prop :=
  At coordinator checkpoint state ∧ (state.databases service).tables = [] ∧
    (service = preferencesService → state.live = [])

/-- Nobody writes models while a database is dropped. -/
theorem At.not_writable (hat : At coordinator checkpoint state)
    (hphase : checkpoint.phase = .preserved) : state.writable = false := by
  obtain ⟨backup, -, hquiet, -⟩ := (fits_preserved hphase).mp hat.fits
  exact not_writable_of_quiet hquiet

theorem steady_dropped {service : Text} (hphase : checkpoint.phase = .preserved) :
    Steady coordinator (Dropped coordinator checkpoint service) := by
  refine steady_at.and fun state disturbance hat hdropped ↦ ?_
  rwa [change_tables, change_live _ (hat.not_writable hphase)]

/-- A drop of the phase `preserved` keeps the invariant. -/
theorem dropped_of_drop {service : Text} {database : DatabaseState} {drop : Drop}
    (hat : At coordinator checkpoint state) (hphase : checkpoint.phase = .preserved)
    (hreset : service ∉ checkpoint.reset) (htables : (state.databases service).tables ≠ [])
    (hdatabase : database.tables = [] ∧ database.models = [])
    (hservice : drop.service = service) (hcheckpoint : drop.checkpoint = state.checkpoint)
    (hmodels : drop.models ⊆ if service = preferencesService then state.live else [])
    (hbackup : drop.backup = state.models) (hworkloads : drop.workloads = state.workloads) :
    Dropped coordinator checkpoint service
      { state.put service database with drops := state.drops ++ [drop] } := by
  obtain ⟨backup, hkept, hquiet, hincluded, hgone, hdrops⟩ := (fits_preserved hphase).mp hat.fits
  have hcycle : ∀ cycle, drop.IsOf cycle ↔ checkpoint.cycle = cycle := by
    intro cycle
    simp [Drop.IsOf, hcheckpoint, hat.2]
  have hlive : (state.put service database).live ⊆ state.live := by
    unfold ResetState.live ResetState.put
    by_cases hsame : preferencesService = service
    · subst hsame
      simp [hdatabase.2]
    · simp [Function.update_of_ne hsame]
  have hstill : ∀ other, (state.databases other).tables = [] →
      ((state.put service database).databases other).tables = [] := by
    intro other hother
    unfold ResetState.put
    by_cases hsame : other = service
    · subst hsame
      simp [hdatabase.1]
    · simpa [Function.update_of_ne hsame] using hother
  have hinvariant : Invariant coordinator
      { state.put service database with drops := state.drops ++ [drop] } := by
    refine ⟨hat.1.definitions, ?_, ?_, ?_, hat.1.stored, ?_⟩
    · intro other hother
      obtain hearlier | hnew := List.mem_append.mp hother
      · exact hat.1.covered other hearlier
      · obtain rfl := List.mem_singleton.mp hnew
        refine ⟨⟨checkpoint, by rw [hcheckpoint, hat.2]; rfl, hphase⟩,
          ⟨backup, by rw [hbackup, hkept.1]; rfl, hkept.2.1, fun row hrow ↦ ?_⟩, ?_⟩
        · have hmem := hmodels hrow
          split at hmem
          · exact hincluded hmem
          · cases hmem
        · intro workload hworkload
          rw [hworkloads] at hworkload
          exact (hquiet workload hworkload).resolve_left List.not_mem_nil
    · intro other hother
      obtain hearlier | hnew := List.mem_append.mp hother
      · exact hat.1.numbered other hearlier
      · obtain rfl := List.mem_singleton.mp hnew
        exact ⟨checkpoint.cycle, hat.1.stored checkpoint hat.2, (hcycle _).mpr rfl⟩
    · refine List.pairwise_append.mpr ⟨hat.1.once, List.pairwise_singleton _ _, ?_⟩
      intro earlier hearlier other hother cycle hearlierCycle hotherCycle hsame
      obtain rfl := List.mem_singleton.mp hother
      obtain rfl := (hcycle cycle).mp hotherCycle
      rw [hservice] at hsame
      obtain hmem | hempty := hdrops earlier hearlier hearlierCycle
      · exact hreset (hsame ▸ hmem)
      · exact htables (hsame ▸ hempty)
    · intro found hfound
      obtain rfl := Option.some.inj (hat.2.symm.trans hfound)
      refine (fits_preserved hphase).mpr ⟨backup, ⟨hkept.1, hkept.2.1, ?_⟩, hquiet,
        fun row hrow ↦ hincluded (hlive hrow), ?_, ?_⟩
      · intro other hother hotherCycle
        obtain hearlier | hnew := List.mem_append.mp hother
        · exact hkept.2.2 other hearlier hotherCycle
        · obtain rfl := List.mem_singleton.mp hnew
          rw [hbackup, hkept.1]
      · intro hempty
        by_cases hsame : preferencesService = service
        · subst hsame
          simpa [ResetState.live, ResetState.put] using hdatabase.2
        · have hbefore := hgone
            (by simpa [ResetState.put, Function.update_of_ne hsame] using hempty)
          exact List.eq_nil_of_subset_nil (hbefore ▸ hlive)
      · intro other hother hotherCycle
        obtain hearlier | hnew := List.mem_append.mp hother
        · exact (hdrops other hearlier hotherCycle).imp_right (hstill _)
        · obtain rfl := List.mem_singleton.mp hnew
          right
          simp [ResetState.put, hservice, hdatabase.1]
  refine ⟨⟨hinvariant, hat.2⟩, by simp [ResetState.put, hdatabase.1], ?_⟩
  rintro rfl
  simpa [ResetState.live, ResetState.put] using hdatabase.2

/-- A database is dropped, or it had no tables. -/
theorem assures_resetDatabase {service : Text} {inventory : Inventory}
    (hphase : checkpoint.phase = .preserved) (hreset : service ∉ checkpoint.reset) :
    Assures coordinator (At coordinator checkpoint)
      (ResetCoordinator.resetDatabase service inventory)
      fun _ ↦ Dropped coordinator checkpoint service := by
  refine assures_perform steady_at fun state value final hat hrun ↦ ?_
  simp only [bind_eq_ok, get_eq_ok, raiseIf_eq_ok] at hrun
  obtain ⟨_, _, ⟨rfl, rfl⟩, _, _, ⟨-, rfl⟩, _, _, ⟨-, rfl⟩, hdone⟩ := hrun
  have hdropped : Dropped coordinator checkpoint service final := by
    by_cases htables : (state.databases service).tables = []
    · rw [if_pos htables] at hdone
      obtain ⟨-, rfl⟩ := pure_eq_ok.mp hdone
      refine ⟨hat, htables, ?_⟩
      rintro rfl
      obtain ⟨backup, -, -, -, hgone, -⟩ := (fits_preserved hphase).mp hat.fits
      exact hgone (.inl htables)
    · rw [if_neg htables] at hdone
      obtain ⟨-, rfl⟩ := set_eq_ok.mp hdone
      exact dropped_of_drop hat hphase hreset htables ⟨rfl, rfl⟩ rfl rfl
        (by split <;> simp [ResetState.live, *]) rfl rfl
  exact ⟨hdropped, hdropped.1.1⟩

/-- What a reset of one database reaches. -/
def Advances (checkpoint next : Checkpoint) (services : List Text) : Prop :=
  next.phase = .preserved ∧ checkpoint.reset ⊆ next.reset ∧ services ⊆ next.reset

/-- The drop of a database is recorded. -/
theorem assures_recordDrop {service : Text} (hphase : checkpoint.phase = .preserved) :
    Assures coordinator (Dropped coordinator checkpoint service)
      (ResetCoordinator.save { checkpoint with reset := checkpoint.reset ++ [service] }) fun _ ↦
        At coordinator { checkpoint with reset := checkpoint.reset ++ [service] } := by
  refine assures_save (steady_dropped hphase) fun state hstate ↦ ?_
  obtain ⟨hat, -, hlive⟩ := hstate
  obtain ⟨backup, hkept, hquiet, hincluded, hgone, hdrops⟩ := (fits_preserved hphase).mp hat.fits
  refine ⟨(fits_preserved ?_).mpr ⟨backup, hkept, hquiet, hincluded, ?_,
    fun drop hdrop hcycle ↦ ?_⟩, hat.1.stored checkpoint hat.2⟩
  · exact hphase
  · rintro (hempty | hmem)
    · exact hgone (.inl hempty)
    · obtain hearlier | hnew := List.mem_append.mp hmem
      · exact hgone (.inr hearlier)
      · exact hlive (List.mem_singleton.mp hnew).symm
  · exact (hdrops drop hdrop hcycle).imp_left fun hmem ↦ List.mem_append_left _ hmem

/-- A database is made anew after its drop was recorded. -/
theorem assures_initializeDatabase {service : Text} {inventory : Inventory}
    (hphase : checkpoint.phase = .preserved) (hreset : service ∈ checkpoint.reset) :
    Assures coordinator (At coordinator checkpoint)
      (coordinator.initializeDatabase service inventory) fun _ ↦ At coordinator checkpoint := by
  refine Relies.bindAt (fun _ ↦ At coordinator checkpoint) ?_ fun _ ↦ ?_
  · refine assures_perform steady_at fun state value final hat hrun ↦ ?_
    simp only [bind_eq_ok, get_eq_ok] at hrun
    obtain ⟨_, _, ⟨rfl, rfl⟩, hdone⟩ := hrun
    have hafter : At coordinator checkpoint final := by
      by_cases htables : (state.databases service).tables = []
      · rw [if_pos htables] at hdone
        obtain ⟨-, rfl⟩ := set_eq_ok.mp hdone
        exact hat.put hphase hreset rfl
      · rw [if_neg htables] at hdone
        obtain ⟨-, rfl⟩ := pure_eq_ok.mp hdone
        exact hat
    exact ⟨hafter, hafter.1⟩
  · refine assures_perform steady_at fun state value final hat hrun ↦ ?_
    simp only [bind_eq_ok, get_eq_ok, raiseIf_eq_ok, set_eq_ok] at hrun
    obtain ⟨_, _, ⟨rfl, rfl⟩, _, _, ⟨-, rfl⟩, _, _, ⟨-, rfl⟩, _, _, ⟨-, rfl⟩, -, rfl⟩ := hrun
    have hafter : At coordinator checkpoint (state.put service
        { state.databases service with grants := inventory.grants }) := hat.put hphase hreset rfl
    exact ⟨hafter, hafter.1⟩

/-- The initialization of a database is recorded. -/
theorem assures_recordInitialized {service : Text} :
    Assures coordinator (At coordinator checkpoint)
      (ResetCoordinator.save { checkpoint with
        initialized := checkpoint.initialized ++ [service] }) fun _ ↦
        At coordinator { checkpoint with initialized := checkpoint.initialized ++ [service] } :=
  assures_save steady_at fun _ hat ↦ ⟨hat.fits, hat.1.stored checkpoint hat.2⟩

/-- A database is dropped and made anew, if it was not before. -/
theorem assures_resetTarget {target : Target} {inventory : Inventory}
    (hphase : checkpoint.phase = .preserved) :
    Assures coordinator (At coordinator checkpoint)
      (coordinator.resetTarget checkpoint target inventory) fun next state ↦
        Advances checkpoint next [target.service] ∧ At coordinator next state := by
  unfold ResetCoordinator.resetTarget
  refine assures_fencedOrRefuse steady_at (Relies.relyingOn (At coordinator checkpoint) ?_
    fun state hstate ↦ hstate.1)
  refine Relies.bindAt (fun dropped state ↦ Advances checkpoint dropped [target.service] ∧
    At coordinator dropped state) ?_ fun dropped ↦ Relies.of_fact fun hdropped ↦ ?_
  · unfold ResetCoordinator.dropTarget
    split
    · rename_i hmem
      exact Relies.pure fun _ hat ↦ ⟨⟨hphase, fun _ h ↦ h, by simpa using hmem⟩, hat⟩
    · rename_i hmem
      refine (assures_resetDatabase hphase hmem).bind fun _ ↦ ?_
      refine (assures_recordDrop hphase).bind fun _ ↦
        Relies.pure fun _ hat ↦ ⟨⟨hphase, ?_, ?_⟩, hat⟩
      · exact List.subset_append_left _ _
      · exact List.subset_append_right _ _
  · unfold ResetCoordinator.initializeTarget
    split
    · exact Relies.pure fun _ hat ↦ ⟨hdropped, hat⟩
    · refine (assures_initializeDatabase hdropped.1
        (hdropped.2.2 (List.mem_singleton.mpr rfl))).bind fun _ ↦ ?_
      exact assures_recordInitialized.bind fun _ ↦ Relies.pure fun _ hat ↦ ⟨hdropped, hat⟩

/-- All databases are dropped and made anew. -/
theorem assures_resetTargets (targets : List Target) :
    ∀ (checkpoint : Checkpoint) (inventories : List Inventory), checkpoint.phase = .preserved →
      Assures coordinator (At coordinator checkpoint)
        (coordinator.resetTargets checkpoint targets inventories) fun next state ↦
          Advances checkpoint next (targets.map Target.service) ∧ At coordinator next state := by
  induction targets with
  | nil =>
    intro checkpoint inventories hphase
    cases inventories with
    | nil => exact Relies.pure fun _ hat ↦ ⟨⟨hphase, fun _ h ↦ h, List.nil_subset _⟩, hat⟩
    | cons inventory rest => exact Relies.throw fun _ hat ↦ hat.1
  | cons target rest ih =>
    intro checkpoint inventories hphase
    cases inventories with
    | nil => exact Relies.throw fun _ hat ↦ hat.1
    | cons inventory others =>
      refine (assures_resetTarget hphase).bind fun next ↦ Relies.of_fact fun hnext ↦ ?_
      refine (ih next others hnext.1).weaken fun last state hlast ↦ ⟨?_, hlast.2⟩
      refine ⟨hlast.1.1, fun _ h ↦ hlast.1.2.1 (hnext.2.1 h), ?_⟩
      rw [List.map_cons]
      exact List.cons_subset.mpr
        ⟨hlast.1.2.1 (hnext.2.2 (List.mem_singleton.mpr rfl)), hlast.1.2.2⟩

/-- When all databases are dropped, no models are left. -/
theorem fits_of_advances {dropped : Checkpoint} (hat : At coordinator dropped state)
    (hdropped : Advances checkpoint dropped (coordinator.targets.map Target.service)) :
    Fits coordinator state { dropped with phase := .restore } := by
  obtain ⟨backup, hkept, hquiet, -, hgone, -⟩ := (fits_preserved hdropped.1).mp hat.fits
  refine (fits_restore rfl).mpr ⟨backup, hkept, fun workload hworkload ↦ ?_, ?_⟩
  · exact .inr ((hquiet workload hworkload).resolve_left List.not_mem_nil)
  · rw [hgone (.inr (hdropped.2.2 coordinator.preferences_mem))]
    exact ⟨List.nil_subset _, List.nodup_nil, List.nodup_nil⟩

/-- The restoration begins without models. -/
theorem assures_resetAll (hphase : checkpoint.phase = .preserved) :
    Assures coordinator (At coordinator checkpoint) (coordinator.resetAll checkpoint)
      fun next ↦ At coordinator next := by
  refine (assures_resetTargets _ _ _ hphase).bind fun dropped ↦ Relies.of_fact fun hdropped ↦ ?_
  refine (assures_save steady_at fun state hat ↦ ⟨?_, ?_⟩).bind fun _ ↦ Relies.pure fun _ h ↦ h
  · exact fits_of_advances hat hdropped
  · exact hat.1.stored dropped hat.2

/-! ### The restoration -/

/-- The models are these while they are restored from the backup. -/
def Restoring (coordinator : ResetCoordinator) (checkpoint : Checkpoint)
    (backup live : List ModelRow) (state : ResetState) : Prop :=
  Saved coordinator checkpoint backup state ∧ state.live = live ∧ CreatedFrom backup live

theorem steady_restoring (hphase : checkpoint.phase = .restore) :
    Steady coordinator (Restoring coordinator checkpoint backup live) := by
  refine steady_saved.and fun state disturbance hsaved hlive ↦ ⟨?_, hlive.2⟩
  obtain ⟨kept, -, hquiet, -⟩ := (fits_restore hphase).mp hsaved.1.fits
  have hrestoring : state.restoring = true := by
    simp [ResetState.restoring, hsaved.1.2, hphase]
  rw [change_live _ (not_writable_of_restoring hrestoring hquiet), hlive.1]

/-- A row without a match is created, with an identity that no model has. -/
theorem CreatedFrom.append {row created : ModelRow} (hcreated : CreatedFrom backup live)
    (hrow : row ∈ backup) (hcontent : created.content = row.content)
    (hid : created.id ∉ live.map ModelRow.id)
    (hnone : ∀ found ∈ live, found.userId = row.userId →
      ResetCoordinator.isMatch row found = false) : CreatedFrom backup (live ++ [created]) where
  content := by
    rw [List.map_append, List.map_singleton, hcontent]
    exact List.append_subset.mpr ⟨hcreated.content,
      List.cons_subset.mpr ⟨List.mem_map_of_mem hrow, List.nil_subset _⟩⟩
  identities := by
    rw [List.map_append, List.map_singleton, List.nodup_append]
    refine ⟨hcreated.identities, List.nodup_singleton _, ?_⟩
    intro identity hidentity other hother hsame
    obtain rfl := List.mem_singleton.mp hother
    obtain ⟨found, hfound, rfl⟩ := List.mem_map.mp hidentity
    have hmatch := hnone found hfound
    obtain ⟨huser, hpayload⟩ := Prod.mk.inj hcontent
    unfold ModelRow.identity at hsame
    simp only [Prod.mk.injEq, huser, hpayload] at hsame
    obtain ⟨hfoundUser, htype, hurl, hname⟩ := hsame
    have := hmatch hfoundUser
    simp [ResetCoordinator.isMatch, htype, hurl, hname] at this
  ids := by
    rw [List.map_append, List.map_singleton, List.nodup_append]
    refine ⟨hcreated.ids, List.nodup_singleton _, fun id hmem other hother hsame ↦ ?_⟩
    obtain rfl := List.mem_singleton.mp hother
    exact hid (hsame ▸ hmem)

/-- The models may have grown. -/
def Grown (coordinator : ResetCoordinator) (checkpoint : Checkpoint) (backup live : List ModelRow)
    (fact : List ModelRow → Prop) (state : ResetState) : Prop :=
  ∃ grown, (live ⊆ grown ∧ fact grown) ∧ Restoring coordinator checkpoint backup grown state

/-- A created model keeps the invariant. -/
theorem At.of_created {created : ModelRow} (hat : At coordinator checkpoint state)
    (hphase : checkpoint.phase = .restore) (hmodels : state.models = some backup)
    (hgrown : CreatedFrom backup (state.live ++ [created])) (drawn : ℕ) :
    At coordinator checkpoint
      { state.put preferencesService
          { state.databases preferencesService with
            models := (state.databases preferencesService).models ++ [created] } with
        minted := drawn } := by
  refine hat.replace rfl rfl rfl rfl fun hfits ↦ ?_
  rw [fits_restore hphase] at hfits ⊢
  obtain ⟨kept, hkept, hquiet, -⟩ := hfits
  obtain rfl := Option.some.inj (hmodels.symm.trans hkept.1)
  refine ⟨backup, hkept, hquiet, ?_⟩
  simpa [ResetState.live, ResetState.put] using hgrown

/-- The match of a row is taken, or a new model is created. -/
theorem assures_choose {row : ModelRow} {found : List ModelRow}
    (hphase : checkpoint.phase = .restore) (hrow : row ∈ backup)
    (hfound : found = (live.filter fun model ↦ model.userId = row.userId).filter
      (ResetCoordinator.isMatch row)) :
    Assures coordinator (Restoring coordinator checkpoint backup live)
      (coordinator.choose row found) fun _ ↦
        Grown coordinator checkpoint backup live fun _ ↦ True := by
  cases found with
  | cons first rest =>
    exact Relies.pure fun state hstate ↦ ⟨live, ⟨fun _ h ↦ h, trivial⟩, hstate⟩
  | nil =>
    have hnone : ∀ model ∈ live, model.userId = row.userId →
        ResetCoordinator.isMatch row model = false := by
      intro model hmodel huser
      by_contra hmatch
      have hmem : model ∈ (live.filter fun model ↦ model.userId = row.userId).filter
          (ResetCoordinator.isMatch row) := by
        simpa [List.mem_filter, hmodel, huser] using hmatch
      simp [← hfound] at hmem
    refine assures_perform (steady_restoring hphase) fun state value final hstate hrun ↦ ?_
    obtain ⟨⟨hat, hmodels⟩, hlive, hcreated⟩ := hstate
    simp only [bind_eq_ok, get_eq_ok, lift_eq_ok, raiseIf_eq_ok, set_eq_ok, pure_eq_ok] at hrun
    obtain ⟨_, _, ⟨rfl, rfl⟩, _, _, ⟨-, rfl⟩, _, _, ⟨hid, rfl⟩, _, _, ⟨-, rfl⟩, -, rfl⟩ := hrun
    subst hlive
    have hgrown : CreatedFrom backup (state.live ++ [⟨(coordinator.minted state.minted).1,
        row.userId, row.payload, (coordinator.minted state.minted).2,
        (coordinator.minted state.minted).2⟩]) :=
      hcreated.append hrow rfl hid hnone
    have hafter := hat.of_created hphase hmodels hgrown (state.minted + 1)
    exact ⟨⟨_, ⟨List.subset_append_left _ _, trivial⟩, ⟨hafter, hmodels⟩,
      by simp [ResetState.live, ResetState.put], hgrown⟩, hafter.1⟩

/-- A row is restored. -/
theorem assures_restoreRow {row : ModelRow} (hphase : checkpoint.phase = .restore)
    (hrow : row ∈ backup) :
    Assures coordinator (Restoring coordinator checkpoint backup live)
      (coordinator.restoreRow row) fun restored ↦
        Grown coordinator checkpoint backup live fun grown ↦ Restores grown row restored := by
  unfold ResetCoordinator.restoreRow
  refine Relies.bindAt (fun existing state ↦
    (existing = (live.filter fun model ↦ model.userId = row.userId) ∧
      (live.map ModelRow.id).Nodup) ∧ Restoring coordinator checkpoint backup live state) ?_
    fun existing ↦ Relies.of_fact fun hexisting ↦ ?_
  · intro amid hamid
    have hids := hamid.state.2.2.ids
    exact (assures_ownerModels_live (steady_restoring hphase) (fun _ h ↦ h.2.1) hids).weaken
      (fun existing state h ↦ ⟨⟨h.1, hids⟩, h.2⟩) amid hamid
  refine (assures_refuseIf (steady_restoring hphase)).bind fun _ ↦ Relies.of_fact fun _ ↦ ?_
  refine (assures_choose hphase hrow (by rw [hexisting.1])).bind fun chosen ↦
    Relies.of_exists fun grown ↦ Relies.of_fact fun hgrown ↦ ?_
  refine (assures_model (steady_restoring hphase)).bind fun actual ↦ ?_
  refine Relies.bindAt (fun _ state ↦ actual.payload = row.payload ∧
    (actual ∈ grown ∧ actual.userId = row.userId) ∧
      Restoring coordinator checkpoint backup grown state) ?_ fun _ ↦
    Relies.of_fact fun hpayload ↦ Relies.of_fact fun hactual ↦ ?_
  · refine Relies.evaluate (fun _ state hvalue hstate ↦ ?_) fun _ state _ hstate ↦ hstate.1.1.1.1
    obtain ⟨hrestoring, hmem, huser, -⟩ := hstate
    rw [hrestoring.2.1] at hmem
    exact ⟨not_not.mp (failIf_eq_ok.mp hvalue), ⟨hmem, huser⟩, hrestoring⟩
  · refine Relies.pure fun state hstate ↦
      ⟨grown, ⟨hgrown.1, rfl, actual, hactual.1, rfl, ?_⟩, hstate⟩
    exact Prod.ext hactual.2 hpayload

/-- What was restored once stays restored. -/
theorem Grown.mono {fact other : List ModelRow → Prop} {grown : List ModelRow}
    (hgrown : live ⊆ grown) (hfact : ∀ more, grown ⊆ more → fact more → other more)
    (hstate : Grown coordinator checkpoint backup grown fact state) :
    Grown coordinator checkpoint backup live other state := by
  obtain ⟨more, ⟨hmore, hknown⟩, hrestoring⟩ := hstate
  exact ⟨more, ⟨fun _ h ↦ hmore (hgrown h), hfact more hmore hknown⟩, hrestoring⟩

/-- All rows are restored. -/
theorem assures_restoreRows (hphase : checkpoint.phase = .restore) (rows : List ModelRow) :
    ∀ live, rows ⊆ backup →
      Assures coordinator (Restoring coordinator checkpoint backup live)
        (coordinator.restoreRows rows) fun mapping ↦
          Grown coordinator checkpoint backup live fun grown ↦
            List.Forall₂ (Restores grown) rows mapping := by
  induction rows with
  | nil =>
    intro live _
    exact Relies.pure fun state hstate ↦ ⟨live, ⟨fun _ h ↦ h, List.Forall₂.nil⟩, hstate⟩
  | cons row rest ih =>
    intro live hrows
    obtain ⟨hrow, hrest⟩ := List.cons_subset.mp hrows
    refine (assures_restoreRow hphase hrow).bind fun restored ↦
      Relies.of_exists fun grown ↦ Relies.of_fact fun hgrown ↦ ?_
    refine Relies.bind (ih grown hrest) fun others ↦ Relies.pure fun state hstate ↦ ?_
    exact hstate.mono hgrown.1 fun more hmore hothers ↦
      List.Forall₂.cons (hgrown.2.mono hmore) hothers

/-- Validating the providers changes nothing. -/
theorem assures_invokeAll (hsteady : Steady coordinator holds) {rows : List ModelRow}
    {mapping : List (Text × Text)} {invokes : Bool} :
    Assures coordinator holds (ResetCoordinator.invokeAll rows mapping invokes) fun _ ↦ holds := by
  unfold ResetCoordinator.invokeAll
  split
  · refine Relies.forM fun row ↦ ?_
    refine Relies.bindAt (fun _ ↦ holds) ((assures_model hsteady).weaken fun _ _ h ↦ h.1) fun _ ↦ ?_
    refine assures_perform hsteady fun state value final hstate hrun ↦ ?_
    obtain ⟨-, rfl⟩ := pure_eq_ok.mp hrun
    exact ⟨hstate, hsteady.invariant _ hstate⟩
  · exact Relies.pure fun _ h ↦ h

/-- `restore_models` restores each row of the backup. -/
theorem assures_restoreModels (hphase : checkpoint.phase = .restore) {invokes : Bool} :
    Assures coordinator (Restoring coordinator checkpoint backup live)
      (coordinator.restoreModels backup invokes) fun mapping ↦
        Grown coordinator checkpoint backup live fun grown ↦
          List.Forall₂ (Restores grown) backup mapping := by
  refine Relies.bindAt (fun rows state ↦ rows = backup ∧
    Restoring coordinator checkpoint backup live state) ?_ fun rows ↦ Relies.of_fact fun hrows ↦ ?_
  · refine Relies.evaluate (fun rows state hrows hstate ↦ ?_) fun _ state _ hstate ↦ hstate.1.1.1
    exact ⟨(validateModels_eq_ok hrows).1, hstate⟩
  · subst hrows
    refine Relies.withError ?_
    refine (assures_restoreRows hphase rows live fun _ h ↦ h).bind fun mapping ↦
      Relies.of_exists fun grown ↦ Relies.of_fact fun hgrown ↦ ?_
    refine (assures_invokeAll (steady_restoring hphase)).bind fun _ ↦ ?_
    exact Relies.pure fun state hstate ↦ ⟨grown, hgrown, hstate⟩

/-- The models are restored when the checkpoint says so. -/
theorem Restoring.fits {mapping : List (Text × Text)} (hphase : checkpoint.phase = .restore)
    (hstate : Restoring coordinator checkpoint backup live state)
    (hmapping : List.Forall₂ (Restores live) backup mapping) :
    Fits coordinator state { checkpoint with mapping, phase := .restored } := by
  obtain ⟨⟨hat, hmodels⟩, hlive, hcreated⟩ := hstate
  obtain ⟨kept, hkept, hquiet, -⟩ := (fits_restore hphase).mp hat.fits
  obtain rfl := Option.some.inj (hmodels.symm.trans hkept.1)
  subst hlive
  exact (fits_restored rfl).mpr ⟨backup, hkept, hquiet, hcreated, hmapping⟩

/-- The models of the backup are restored. -/
theorem assures_restore (hphase : checkpoint.phase = .restore) :
    Assures coordinator (At coordinator checkpoint) (coordinator.restore checkpoint)
      fun next ↦ At coordinator next := by
  unfold ResetCoordinator.restore
  refine assures_fencedOrRefuse steady_at (Relies.relyingOn (At coordinator checkpoint) ?_
    fun state hstate ↦ hstate.1)
  refine (assures_startPreferences steady_at fun state definition replicas hservice hat ↦
    hat.scale replicas (.inr (.inr ⟨hphase, hservice⟩))).bind fun _ ↦ ?_
  refine (assures_readModels steady_at).bind fun stored ↦ ?_
  refine Relies.bindAt (fun backup state ↦
    ∃ live, Restoring coordinator checkpoint backup live state) ?_ fun backup ↦
      Relies.of_exists fun live ↦ ?_
  · refine Relies.evaluate (fun rows state hrows hstate ↦ ?_) fun _ state _ hstate ↦ hstate.1.1
    obtain ⟨rfl, -⟩ := validateModels_eq_ok hrows
    obtain ⟨kept, hkept, -, hcreated⟩ := (fits_restore hphase).mp hstate.1.fits
    obtain rfl := Option.some.inj (hstate.2.symm.trans hkept.1)
    exact ⟨state.live, hstate, rfl, hcreated⟩
  · refine (assures_restoreModels hphase).bind fun mapping ↦
      Relies.of_exists fun grown ↦ Relies.of_fact fun hmapping ↦ ?_
    refine (assures_restoreModels hphase).bind fun again ↦
      Relies.of_exists fun more ↦ Relies.of_fact fun hmore ↦ ?_
    refine (assures_refuseIf (steady_restoring hphase)).bind fun _ ↦ Relies.of_fact fun _ ↦ ?_
    refine (assures_save (steady_restoring hphase) fun state hstate ↦
      ⟨hstate.fits hphase ?_, ?_⟩).bind fun _ ↦ Relies.pure fun _ h ↦ h
    · exact hmapping.2.imp fun _ _ hrestored ↦ hrestored.mono hmore.1
    · exact hstate.1.1.1.stored checkpoint hstate.1.1.2

end Ads.Deploy.Reset
