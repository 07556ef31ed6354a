import Ads.Deploy.ResetPhases

/-!
# A reset loses no model

Every run of the schema reset keeps its invariant, whatever others do around it, whichever
operations fail and wherever the process ends: a database is dropped only when its models are in the
backup and no workload runs, no cycle drops a database twice, the backup of a cycle stays until the
next one, and the models that were restored are those of the backup, each once (`reset_safe`).
-/

set_option autoImplicit false
set_option relaxedAutoImplicit false

namespace Ads.Deploy.Reset

open Python Foundation Foundation.StateExcept Foundation.Interrupted Foundation.Disturbed

variable {coordinator : ResetCoordinator} {state : ResetState} {checkpoint next : Checkpoint}
  {holds : ResetState → Prop} {backup live : List ModelRow}

/-! ### The last phases -/

/-- The identifiers of what is restored are those of the backup. -/
theorem map_fst_of_restores {mapping : List (Text × Text)}
    (hmapping : List.Forall₂ (Restores live) backup mapping) :
    mapping.map Prod.fst = backup.map ModelRow.id := by
  induction hmapping with
  | nil => rfl
  | cons hfirst _ ih => rw [List.map_cons, List.map_cons, hfirst.1, ih]

/-- The identity of a row is part of its content. -/
theorem nodup_content {rows : List ModelRow} (hidentities : (rows.map ModelRow.identity).Nodup) :
    (rows.map ModelRow.content).Nodup := by
  refine List.Nodup.of_map (fun content : Text × Payload ↦
    (content.1, content.2.type, content.2.url, content.2.name)) ?_
  rwa [List.map_map]

/-- What is in the mapping restores a row of the backup. -/
theorem exists_of_restores {mapping : List (Text × Text)} {restored : Text × Text}
    (hmapping : List.Forall₂ (Restores live) backup mapping) (hrestored : restored ∈ mapping) :
    ∃ row ∈ backup, Restores live row restored := by
  induction hmapping with
  | nil => cases hrestored
  | cons hfirst _ ih =>
    obtain rfl | hrest := List.mem_cons.mp hrestored
    · exact ⟨_, List.mem_cons_self, hfirst⟩
    · exact (ih hrest).imp fun _ hrow ↦ ⟨List.mem_cons_of_mem _ hrow.1, hrow.2⟩

/-- No two rows are restored as the same model. -/
theorem nodup_snd_of_restores {mapping : List (Text × Text)} (hids : (live.map ModelRow.id).Nodup)
    (hcontents : (backup.map ModelRow.content).Nodup)
    (hmapping : List.Forall₂ (Restores live) backup mapping) :
    (mapping.map Prod.snd).Nodup := by
  induction hmapping with
  | nil => exact List.nodup_nil
  | cons hfirst hrest ih =>
    obtain ⟨hnew, hothers⟩ := List.nodup_cons.mp hcontents
    refine List.nodup_cons.mpr ⟨fun hmem ↦ ?_, ih hothers⟩
    obtain ⟨restored, hrestored, hsame⟩ := List.mem_map.mp hmem
    obtain ⟨row, hrow, -, other, hother, hotherId, hotherContent⟩ :=
      exists_of_restores hrest hrestored
    obtain ⟨-, found, hfound, hid, hcontent⟩ := hfirst
    obtain rfl := List.inj_on_of_nodup_map hids hother hfound
      (hotherId.trans (hsame.trans hid.symm))
    exact hnew (hcontent ▸ hotherContent ▸ List.mem_map_of_mem hrow)

/-- The restoration ends behind the fence. -/
theorem assures_beginResuming (hphase : checkpoint.phase = .restored) :
    Assures coordinator (At coordinator checkpoint) (coordinator.beginResuming checkpoint)
      fun next ↦ At coordinator next := by
  unfold ResetCoordinator.beginResuming
  refine assures_fencedOrRefuse steady_at (Relies.relyingOn (At coordinator checkpoint) ?_
    fun state hstate ↦ hstate.1)
  refine (assures_save steady_at fun state hat ↦ ⟨?_, ?_⟩).bind fun _ ↦ Relies.pure fun _ h ↦ h
  · obtain ⟨backup, hkept, -, hcreated, hmapping⟩ := (fits_restored hphase).mp hat.fits
    exact (fits_mapped (.inl rfl)).mpr ⟨backup, hkept, map_fst_of_restores hmapping,
      nodup_snd_of_restores hcreated.ids (nodup_content (nodup_of_valid hkept.2.1)) hmapping⟩
  · exact hat.1.stored checkpoint hat.2

/-- The workloads run again, but for the controllers. -/
theorem assures_finish (hphase : checkpoint.phase = .resuming) :
    Assures coordinator (At coordinator checkpoint) (coordinator.finish checkpoint)
      fun next ↦ At coordinator next := by
  unfold ResetCoordinator.finish
  refine Relies.bindAt (fun _ ↦ At coordinator checkpoint) (Relies.forM fun item ↦ ?_) fun _ ↦ ?_
  · split
    · exact Relies.pure fun _ h ↦ h
    · exact assures_setReplicas steady_at fun state hat ↦ hat.scale _ (.inr (.inl hphase))
  · refine assures_fencedOrRefuse steady_at (Relies.relyingOn (At coordinator checkpoint) ?_
      fun state hstate ↦ hstate.1)
    refine (assures_save steady_at fun state hat ↦ ⟨?_, ?_⟩).bind fun _ ↦ Relies.pure fun _ h ↦ h
    · exact (fits_mapped (.inr rfl)).mpr ((fits_mapped (.inl hphase)).mp hat.fits)
    · exact hat.1.stored checkpoint hat.2

/-! ### Runs -/

/-- A cycle with a number of its own. -/
def Numbered (coordinator : ResetCoordinator) (cycle : ℕ) (state : ResetState) : Prop :=
  Invariant coordinator state ∧ cycle < state.cycles ∧ ∀ drop ∈ state.drops, ¬ drop.IsOf cycle

theorem steady_numbered {cycle : ℕ} : Steady coordinator (Numbered coordinator cycle) := by
  refine steady_invariant.and fun state disturbance _ hnumbered ↦ ?_
  rwa [change_cycles, change_drops]

/-- A new cycle has no drops. -/
theorem assures_newCycleNumber (hsteady : Steady coordinator holds) :
    Assures coordinator holds ResetCoordinator.newCycleNumber (Numbered coordinator) := by
  refine assures_perform hsteady fun state cycle final hstate hrun ↦ ?_
  simp only [bind_eq_ok, get_eq_ok, set_eq_ok, pure_eq_ok] at hrun
  obtain ⟨_, _, ⟨rfl, rfl⟩, _, _, ⟨-, rfl⟩, rfl, rfl⟩ := hrun
  have hbefore := hsteady.invariant _ hstate
  have hafter : Invariant coordinator { state with cycles := state.cycles + 1 } :=
    { definitions := hbefore.definitions
      covered := hbefore.covered
      numbered := fun drop hdrop ↦ (hbefore.numbered drop hdrop).imp fun _ hcycle ↦
        ⟨Nat.lt_succ_of_lt hcycle.1, hcycle.2⟩
      once := hbefore.once
      stored := fun checkpoint hcheckpoint ↦
        Nat.lt_succ_of_lt (hbefore.stored checkpoint hcheckpoint)
      fits := hbefore.fits }
  refine ⟨⟨hafter, Nat.lt_succ_self _, fun drop hdrop hcycle ↦ ?_⟩, hafter⟩
  obtain ⟨cycle, hless, found, hfound, rfl⟩ := hbefore.numbered drop hdrop
  obtain ⟨other, hother, hsame⟩ := hcycle
  obtain rfl := Option.some.inj (hfound.symm.trans hother)
  exact absurd hsame hless.ne

/-- A run begins with the checkpoint that is stored. -/
theorem assures_begin {newCycle : Bool} :
    Assures coordinator (Invariant coordinator) (coordinator.begin newCycle)
      fun next ↦ At coordinator next := by
  unfold ResetCoordinator.begin
  refine (assures_readCheckpoint steady_invariant).bind fun found ↦ ?_
  have hsteady : Steady coordinator fun state ↦
      Invariant coordinator state ∧ state.checkpoint = found :=
    steady_invariant.and fun _ disturbance _ hfound ↦ (change_checkpoint disturbance).trans hfound
  refine (assures_refuseIf hsteady).bind fun _ ↦ Relies.of_fact fun _ ↦ ?_
  refine (assures_refuseIf hsteady).bind fun _ ↦ Relies.of_fact fun _ ↦ ?_
  split
  · exact Relies.pure fun _ h ↦ h
  · refine (assures_newCycleNumber hsteady).bind fun cycle ↦ ?_
    refine (assures_snapshot steady_numbered).bind fun workloads ↦ ?_
    refine (assures_inventories steady_numbered _).bind fun databases ↦ ?_
    refine (assures_save steady_numbered fun state hstate ↦ ⟨?_, ?_⟩).bind
      fun _ ↦ Relies.pure fun _ h ↦ h
    · exact ⟨rfl, hstate.2.2⟩
    · exact hstate.2.1

/-- A phase is gone through, or it is over. -/
theorem assures_during {phase : ResetPhase} {action : Checkpoint → ResetM Checkpoint}
    (haction : checkpoint.phase = phase → Assures coordinator (At coordinator checkpoint)
      (action checkpoint) fun next ↦ At coordinator next) :
    Assures coordinator (At coordinator checkpoint)
      (ResetCoordinator.during phase action checkpoint) fun next ↦ At coordinator next := by
  unfold ResetCoordinator.during
  split
  · rename_i hphase
    exact haction hphase
  · exact Relies.pure fun _ h ↦ h

/-- A run keeps the invariant wherever it ends. -/
theorem assures_run (newCycle : Bool) :
    Assures coordinator (Invariant coordinator) (coordinator.run newCycle)
      fun _ ↦ Invariant coordinator := by
  unfold ResetCoordinator.run
  refine assures_begin.bind fun begun ↦ ?_
  split
  · exact Relies.pure fun _ h ↦ h.1
  · refine (assures_during assures_preserve).bind fun preserved ↦ ?_
    refine Relies.bindAt (fun _ ↦ At coordinator preserved)
      ((assures_readModels steady_at).weaken fun _ _ h ↦ h.1) fun stored ↦ ?_
    refine Relies.bindAt (fun _ ↦ At coordinator preserved)
      (Relies.evaluate (fun _ _ _ h ↦ h) fun _ _ _ h ↦ h.1) fun _ ↦ ?_
    refine (assures_readAssociations steady_at).bind fun _ ↦ ?_
    refine (assures_during assures_resetAll).bind fun dropped ↦ ?_
    refine (assures_during assures_restore).bind fun restored ↦ ?_
    refine (assures_during assures_beginResuming).bind fun resuming ↦ ?_
    exact (assures_during assures_finish).bind fun finished ↦ Relies.pure fun _ h ↦ h.1

/-- Each input keeps the invariant. -/
theorem Invariant.step (hinvariant : Invariant coordinator state) (input : ResetInput) :
    Invariant coordinator (coordinator.step state input) := by
  cases input with
  | disturb disturbance => exact hinvariant.change disturbance
  | run newCycle future =>
    have hleaves := assures_run newCycle ⟨state, future⟩ ⟨fun _ ↦ trivial, hinvariant⟩
    unfold Leaves at hleaves
    unfold ResetCoordinator.step
    split at hleaves
    · rename_i hrun
      simpa only [hrun] using hleaves.state
    · rename_i hrun
      simpa only [hrun] using hleaves.state

/-- The invariant holds after every run. -/
theorem Invariant.after (inputs : List ResetInput) (hinvariant : Invariant coordinator state) :
    Invariant coordinator (coordinator.after state inputs) := by
  induction inputs generalizing state with
  | nil => exact hinvariant
  | cons input rest ih => exact ih (hinvariant.step input)

/-! ### What is promised -/

/-- What a reset promises: nothing is lost by a drop, no cycle drops a database twice, the backup of
a cycle stays, and the models that were restored are those of the backup, each once. -/
structure ResetSafe (coordinator : ResetCoordinator) (state : ResetState) : Prop where
  covered : ∀ drop ∈ state.drops, drop.Covered coordinator
  once : state.drops.Pairwise fun first second ↦
    ∀ cycle, first.IsOf cycle → second.IsOf cycle → first.service ≠ second.service
  kept : ∀ checkpoint ∈ state.checkpoint, checkpoint.phase ≠ .discovered →
    ∃ backup, Kept coordinator state checkpoint backup
  restored : ∀ checkpoint ∈ state.checkpoint, checkpoint.phase = .restored →
    ∃ backup ∈ state.models, List.Forall₂ (Restores state.live) backup checkpoint.mapping ∧
      (state.live.map ModelRow.content).Perm (backup.map ModelRow.content)
  reported : ∀ checkpoint ∈ state.checkpoint, checkpoint.phase = .complete →
    ∃ backup ∈ state.models, checkpoint.mapping.map Prod.fst = backup.map ModelRow.id ∧
      (checkpoint.mapping.map Prod.snd).Nodup

/-- Each row of the backup was restored. -/
theorem exists_restored {mapping : List (Text × Text)} {row : ModelRow}
    (hmapping : List.Forall₂ (Restores live) backup mapping) (hrow : row ∈ backup) :
    ∃ found ∈ live, found.content = row.content := by
  induction hmapping with
  | nil => cases hrow
  | cons hfirst _ ih =>
    obtain rfl | hrest := List.mem_cons.mp hrow
    · exact hfirst.2.imp fun _ hfound ↦ ⟨hfound.1, hfound.2.2⟩
    · exact ih hrest

/-- What was created from the backup is all of it when each row was restored. -/
theorem perm_of_restores {mapping : List (Text × Text)} (hvalid : coordinator.Valid backup)
    (hcreated : CreatedFrom backup live) (hmapping : List.Forall₂ (Restores live) backup mapping) :
    (live.map ModelRow.content).Perm (backup.map ModelRow.content) := by
  refine (List.perm_ext_iff_of_nodup (nodup_content hcreated.identities)
    (nodup_content (nodup_of_valid hvalid))).mpr fun content ↦
      ⟨fun hmem ↦ hcreated.content hmem, fun hmem ↦ ?_⟩
  obtain ⟨row, hrow, rfl⟩ := List.mem_map.mp hmem
  obtain ⟨found, hfound, hcontent⟩ := exists_restored hmapping hrow
  exact hcontent ▸ List.mem_map_of_mem hfound

/-- The invariant says what is promised. -/
theorem Invariant.safe (hinvariant : Invariant coordinator state) :
    ResetSafe coordinator state where
  covered := hinvariant.covered
  once := hinvariant.once
  kept := by
    intro checkpoint hcheckpoint hphase
    have hfits := hinvariant.fits checkpoint hcheckpoint
    cases hcase : checkpoint.phase with
    | discovered => exact absurd hcase hphase
    | preserved => exact ((fits_preserved hcase).mp hfits).imp fun _ hkept ↦ hkept.1
    | restore => exact ((fits_restore hcase).mp hfits).imp fun _ hkept ↦ hkept.1
    | restored => exact ((fits_restored hcase).mp hfits).imp fun _ hkept ↦ hkept.1
    | resuming => exact ((fits_mapped (.inl hcase)).mp hfits).imp fun _ hkept ↦ hkept.1
    | complete => exact ((fits_mapped (.inr hcase)).mp hfits).imp fun _ hkept ↦ hkept.1
  restored := by
    intro checkpoint hcheckpoint hphase
    obtain ⟨backup, hkept, -, hcreated, hmapping⟩ :=
      (fits_restored hphase).mp (hinvariant.fits checkpoint hcheckpoint)
    exact ⟨backup, hkept.1, hmapping, perm_of_restores hkept.2.1 hcreated hmapping⟩
  reported := by
    intro checkpoint hcheckpoint hphase
    obtain ⟨backup, hkept, hmapping⟩ :=
      (fits_mapped (.inr hphase)).mp (hinvariant.fits checkpoint hcheckpoint)
    exact ⟨backup, hkept.1, hmapping⟩

/-- **A reset loses no model.** In every run of the coordinator over databases that were never
reset, whatever others do, whichever operations fail and wherever the process ends. -/
theorem reset_safe (coordinator : ResetCoordinator) (state : ResetState)
    (hdefinitions : state.workloads.map Workload.definition = coordinator.definitions)
    (hcheckpoint : state.checkpoint = none) (hdrops : state.drops = []) (inputs : List ResetInput) :
    ResetSafe coordinator (coordinator.after state inputs) := by
  refine (Invariant.after inputs ⟨hdefinitions, ?_, ?_, ?_, ?_, ?_⟩).safe
  · simp [hdrops]
  · simp [hdrops]
  · simp [hdrops]
  · simp [hcheckpoint]
  · simp [hcheckpoint]

/-! ### A run -/

section Example

/-- A workload for each service of the configuration. -/
def plainDefinitions : List Definition :=
  ("ads".toList :: "ads-engine".toList :: preferencesService :: controllers).map fun service ↦
    ⟨service, "Deployment".toList, service⟩

/-- The table of the models. -/
def modelTable : TableEntry :=
  ⟨"user_model".toList, "ads".toList, []⟩

/-- A coordinator that resets the database of the models. -/
def plainCoordinator : ResetCoordinator where
  targets := [⟨preferencesService, "ads".toList, "ads".toList, [], "public".toList⟩]
  definitions := plainDefinitions
  validators := ⟨fun _ ↦ true, fun _ ↦ true, fun _ ↦ true⟩
  schema _ := [modelTable]
  minted number := (List.replicate (number + 1) 'x', "now".toList)
  patience := 1
  services_nodup := by decide
  preferences_mem := by decide
  covered := by decide
  definitions_nodup := by decide
  writers := by decide

/-- A model of a user. -/
def plainModel : ModelRow :=
  ⟨"old".toList, "user".toList, ⟨[], "name".toList, "type".toList, "url".toList, [], []⟩,
    "then".toList, "then".toList⟩

/-- A cluster in which everything runs. -/
def plainState : ResetState where
  checkpoint := none
  models := none
  associations := none
  databases _ := {
    identity := ⟨preferencesService, "ads".toList, 1, "ads".toList, "public".toList, 2, [], []⟩
    tables := [modelTable]
    grants := []
    models := [plainModel]
    rows := [] }
  namespaceUid := []
  workloads := plainDefinitions.map fun definition ↦ ⟨definition, definition.name, [], 1, true⟩
  cycles := 0
  minted := 0
  drops := []

/-- The pods of what is scaled down go away at once. -/
def settling (fate : Fate ResetRaised) : Moment Disturbance ResetRaised :=
  ⟨plainDefinitions.map .settle, fate⟩

/-- A run that is killed after it has dropped the database, before that is recorded, and the run
that resumes it. -/
def resumed : List ResetInput :=
  [.run false fun moment ↦ settling (if moment = 30 then .failed true .killed else .done),
    .run false fun _ ↦ settling .done]

/-- What is promised holds of that run, and it ends with the model of the user under a new
identifier, after one drop. -/
theorem reset_safe_resumed :
    ResetSafe plainCoordinator (plainCoordinator.after plainState resumed) ∧
      ((plainCoordinator.after plainState resumed).checkpoint.map fun checkpoint ↦
        (checkpoint.phase, checkpoint.mapping)) =
          some (.complete, [("old".toList, "x".toList)]) ∧
      (plainCoordinator.after plainState resumed).live.map ModelRow.content =
        [plainModel.content] ∧
      (plainCoordinator.after plainState resumed).drops.length = 1 :=
  ⟨reset_safe plainCoordinator plainState rfl rfl rfl resumed, by decide +kernel, by decide +kernel,
    by decide +kernel⟩

end Example

end Ads.Deploy.Reset
