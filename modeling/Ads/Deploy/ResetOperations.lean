import Mathlib.Tactic.Tauto
import Ads.Deploy.ResetInvariant

/-!
# The operations of a reset

What each operation of the schema reset guarantees, whatever others do around it and however it
ends. An assertion about the state is steady when others keep it and it includes the invariant; an
operation that only looks adds what it sees. What the fence sees of the captured items is so of all
workloads of the cluster.
-/

set_option autoImplicit false
set_option relaxedAutoImplicit false

namespace Ads.Deploy.Reset

open Python Foundation Foundation.StateExcept Foundation.Interrupted Foundation.Disturbed

variable {coordinator : ResetCoordinator} {state : ResetState} {checkpoint next : Checkpoint}
  {captured : WorkloadSnapshot} {holds : ResetState → Prop} {backup live : List ModelRow}

/-! ### Operations -/

/-- Anything may happen around an operation. -/
def Whatever (_ : Moment Disturbance ResetRaised) : Prop :=
  True

/-- An assertion that others keep and that includes the invariant. -/
structure Steady (coordinator : ResetCoordinator) (holds : ResetState → Prop) : Prop where
  change : ∀ state disturbance, holds state → holds (state.change disturbance)
  invariant : ∀ state, holds state → Invariant coordinator state

/-- What a program guarantees, with the invariant wherever it stops. -/
abbrev Assures (coordinator : ResetCoordinator) {α : Type} (before : ResetState → Prop)
    (program : ResetM α) (post : α → ResetState → Prop) : Prop :=
  Relies Whatever before program post (Invariant coordinator)

/-- The checkpoint and the invariant are steady. -/
theorem steady_at : Steady coordinator (At coordinator checkpoint) where
  change _ disturbance hat := ⟨hat.1.change disturbance, by rw [change_checkpoint, hat.2]⟩
  invariant _ hat := hat.1

/-- The invariant is steady. -/
theorem steady_invariant : Steady coordinator (Invariant coordinator) where
  change _ disturbance hinvariant := hinvariant.change disturbance
  invariant _ hinvariant := hinvariant

/-- A steady assertion with another fact that others keep. -/
theorem Steady.and {fact : ResetState → Prop} (hsteady : Steady coordinator holds)
    (hfact : ∀ state disturbance, holds state → fact state → fact (state.change disturbance)) :
    Steady coordinator fun state ↦ holds state ∧ fact state where
  change _ disturbance hstate :=
    ⟨hsteady.change _ disturbance hstate.1, hfact _ disturbance hstate.1 hstate.2⟩
  invariant _ hstate := hsteady.invariant _ hstate.1

section Operations

variable (hsteady : Steady coordinator holds)

include hsteady

/-- One operation from a steady assertion. -/
theorem assures_perform {α : Type} {effect : StateT ResetState (Except ResetRaised) α}
    {post : α → ResetState → Prop}
    (heffect : ∀ state value next, holds state → effect state = .ok (value, next) →
      post value next ∧ Invariant coordinator next) :
    Assures coordinator holds (perform effect) post :=
  Relies.operate (stable_of_change (fun _ ↦ True) (fun _ _ _ _ ↦ trivial)
    fun state disturbance _ ↦ hsteady.change state disturbance) hsteady.invariant heffect

/-- An operation that changes nothing. -/
theorem assures_read {α : Type} {effect : StateT ResetState (Except ResetRaised) α}
    (fact : α → ResetState → Prop)
    (heffect : ∀ state value next, holds state → effect state = .ok (value, next) →
      next = state ∧ fact value state) :
    Assures coordinator holds (perform effect) fun value state ↦ holds state ∧ fact value state :=
  assures_perform hsteady fun state value next hstate hrun ↦ by
    obtain ⟨rfl, hvalue⟩ := heffect state value next hstate hrun
    exact ⟨⟨hstate, hvalue⟩, hsteady.invariant _ hstate⟩

/-- A refusal. -/
theorem assures_refuseIf {condition : Prop} [Decidable condition] {reason : String} :
    Assures coordinator holds (refuseIf condition reason) fun _ state ↦ ¬ condition ∧ holds state :=
  Relies.evaluate (fun _ _ hvalue hstate ↦ ⟨failIf_eq_ok.mp hvalue, hstate⟩)
    fun _ state _ hstate ↦ hsteady.invariant state hstate

/-- An operation that changes nothing, whatever it sees. -/
theorem assures_look {α : Type} {effect : StateT ResetState (Except ResetRaised) α}
    (heffect : ∀ state value next, effect state = .ok (value, next) → next = state) :
    Assures coordinator holds (perform effect) fun _ ↦ holds :=
  (assures_read hsteady (fun _ _ ↦ True) fun state value next _ hrun ↦
    ⟨heffect state value next hrun, trivial⟩).weaken fun _ _ h ↦ h.1

theorem assures_readModels : Assures coordinator holds ResetCoordinator.readModels
    fun rows state ↦ holds state ∧ state.models = some rows := by
  refine assures_read hsteady (fun rows state ↦ state.models = some rows)
    fun state rows next hstate hrun ↦ ?_
  simp only [bind_eq_ok, get_eq_ok] at hrun
  obtain ⟨_, _, ⟨rfl, rfl⟩, hfound⟩ := hrun
  cases hmodels : state.models with
  | none => simp [hmodels] at hfound
  | some stored =>
    rw [hmodels] at hfound
    obtain ⟨rfl, rfl⟩ := pure_eq_ok.mp hfound
    exact ⟨rfl, rfl⟩

theorem assures_readCheckpoint : Assures coordinator holds ResetCoordinator.readCheckpoint
    fun found state ↦ holds state ∧ state.checkpoint = found := by
  refine assures_read hsteady (fun found state ↦ state.checkpoint = found)
    fun state rows next hstate hrun ↦ ?_
  simp only [bind_eq_ok, get_eq_ok, pure_eq_ok] at hrun
  obtain ⟨_, _, ⟨rfl, rfl⟩, rfl, rfl⟩ := hrun
  exact ⟨rfl, rfl⟩

theorem assures_readAssociations : Assures coordinator holds ResetCoordinator.readAssociations
    fun _ ↦ holds := by
  refine assures_look hsteady fun state rows next hrun ↦ ?_
  simp only [bind_eq_ok, get_eq_ok, raiseIf_eq_ok] at hrun
  obtain ⟨_, _, ⟨rfl, rfl⟩, -, rfl⟩ := hrun
  rfl

theorem assures_snapshot : Assures coordinator holds coordinator.snapshot fun _ ↦ holds := by
  refine assures_look hsteady fun state rows next hrun ↦ ?_
  simp only [bind_eq_ok, get_eq_ok, lift_eq_ok, pure_eq_ok] at hrun
  obtain ⟨_, _, ⟨rfl, rfl⟩, _, _, ⟨-, rfl⟩, -, rfl⟩ := hrun
  rfl

theorem assures_inventories (targets : List Target) :
    Assures coordinator holds (ResetCoordinator.inventories targets) fun _ ↦ holds := by
  induction targets with
  | nil => exact Relies.pure fun _ h ↦ h
  | cons target rest ih =>
    refine Relies.bindAt (fun _ ↦ holds) ?_ fun captured ↦ ih.bindAt (fun _ ↦ holds)
      fun others ↦ Relies.pure fun _ h ↦ h
    refine assures_look hsteady fun state value next hrun ↦ ?_
    simp only [bind_eq_ok, get_eq_ok, pure_eq_ok] at hrun
    obtain ⟨_, _, ⟨rfl, rfl⟩, -, rfl⟩ := hrun
    rfl

theorem assures_allAssociations (targets : List Target) :
    Assures coordinator holds (ResetCoordinator.allAssociations targets) fun _ ↦ holds := by
  induction targets with
  | nil => exact Relies.pure fun _ h ↦ h
  | cons target rest ih =>
    unfold ResetCoordinator.allAssociations
    split
    · refine Relies.bindAt (fun _ ↦ holds) ?_ fun captured ↦ ih.bindAt (fun _ ↦ holds)
        fun others ↦ Relies.pure fun _ h ↦ h
      refine assures_look hsteady fun state value next hrun ↦ ?_
      simp only [bind_eq_ok, get_eq_ok, pure_eq_ok] at hrun
      obtain ⟨_, _, ⟨rfl, rfl⟩, -, rfl⟩ := hrun
      rfl
    · exact ih

/-- The live models, in the order of their identifiers. -/
theorem assures_liveModels : Assures coordinator holds ResetCoordinator.liveModels
    fun rows state ↦ holds state ∧ List.Perm rows state.live ∧
      (state.databases preferencesService).tables ≠ [] := by
  refine assures_read hsteady (fun rows state ↦ List.Perm rows state.live ∧
    (state.databases preferencesService).tables ≠ []) fun state rows next hstate hrun ↦ ?_
  simp only [bind_eq_ok, get_eq_ok, raiseIf_eq_ok, pure_eq_ok] at hrun
  obtain ⟨_, _, ⟨rfl, rfl⟩, _, _, ⟨htables, rfl⟩, rfl, rfl⟩ := hrun
  exact ⟨rfl, List.mergeSort_perm _ _, htables⟩

/-- The checkpoint is stored. -/
theorem assures_save (hnext : ∀ state, holds state →
      Fits coordinator state next ∧ next.cycle < state.cycles) :
    Assures coordinator holds (ResetCoordinator.save next) fun _ ↦ At coordinator next := by
  refine assures_perform hsteady fun state value final hstate hrun ↦ ?_
  simp only [bind_eq_ok, get_eq_ok, set_eq_ok] at hrun
  obtain ⟨_, _, ⟨rfl, rfl⟩, -, rfl⟩ := hrun
  have hbefore := hsteady.invariant _ hstate
  have hafter : Invariant coordinator { state with checkpoint := some next } :=
    { definitions := hbefore.definitions
      covered := hbefore.covered
      numbered := hbefore.numbered
      once := hbefore.once
      stored := by
        rintro checkpoint ⟨⟩
        exact (hnext _ hstate).2
      fits := by
        rintro checkpoint ⟨⟩
        exact (hnext _ hstate).1 }
  exact ⟨⟨hafter, rfl⟩, hafter⟩

end Operations

/-! ### The fence -/

/-- The definitions of the workloads are distinct. -/
theorem ResetCoordinator.nodup_definitions (coordinator : ResetCoordinator) :
    coordinator.definitions.Nodup :=
  coordinator.definitions_nodup.of_map _

/-- What is found is there. -/
theorem findWorkload_eq_ok {workloads : List Workload} {definition : Definition}
    {failure : ResetRaised} {found : Workload}
    (hfound : ResetCoordinator.findWorkload workloads definition failure = .ok found) :
    found ∈ workloads ∧ found.definition = definition := by
  unfold ResetCoordinator.findWorkload at hfound
  split at hfound
  · simp at hfound
  · rename_i workload hworkload
    obtain rfl := except_pure_eq_ok.mp hfound
    exact ⟨List.mem_of_find?_eq_some hworkload, by simpa using List.find?_some hworkload⟩

/-- A fence is one around each item. -/
theorem areFenced_eq_true {workloads : List Workload} {exceptServices : List Text}
    {items : List Item}
    (hfenced : ResetCoordinator.areFenced workloads exceptServices items = .ok true) :
    ∀ item ∈ items, item.definition.service ∈ exceptServices ∨
      ∃ found ∈ workloads, found.definition = item.definition ∧ found.isQuiet = true := by
  induction items with
  | nil => simp
  | cons first rest ih =>
    unfold ResetCoordinator.areFenced at hfenced
    split at hfenced
    · rename_i hexcept
      rintro item (_ | ⟨_, hitem⟩)
      · exact .inl hexcept
      · exact ih hfenced item hitem
    · obtain ⟨quiet, hquiet, hrest⟩ := except_bind_eq_ok.mp hfenced
      cases quiet with
      | false => simp at hrest
      | true =>
        unfold ResetCoordinator.isFenced at hquiet
        obtain ⟨found, hfound, hreturned⟩ := except_bind_eq_ok.mp hquiet
        obtain ⟨hmem, hdefinition⟩ := findWorkload_eq_ok hfound
        have hall := except_pure_eq_ok.mp hreturned
        rintro item (_ | ⟨_, hitem⟩)
        · exact .inr ⟨found, hmem, hdefinition, by simp_all⟩
        · exact ih (by simpa using hrest) item hitem

/-- The workloads of the cluster are those of the configuration, and each is one of them. -/
theorem quietExcept_of_fenced {exceptServices : List Text}
    (hinvariant : Invariant coordinator state)
    (hcaptured : captured.items.map Item.definition = coordinator.definitions)
    (hfenced : ResetCoordinator.areFenced state.workloads exceptServices captured.items =
      .ok true) :
    state.QuietExcept exceptServices := by
  intro workload hworkload
  have hdefinition : workload.definition ∈ captured.items.map Item.definition := by
    rw [hcaptured, ← hinvariant.definitions]
    exact List.mem_map_of_mem hworkload
  obtain ⟨item, hitem, hsame⟩ := List.mem_map.mp hdefinition
  rw [← hsame]
  refine (areFenced_eq_true hfenced item hitem).imp_right fun hfound ↦ ?_
  obtain ⟨found, hfound, hitemOf, hquiet⟩ := hfound
  have hnodup : (state.workloads.map Workload.definition).Nodup := by
    rw [hinvariant.definitions]
    exact coordinator.nodup_definitions
  rwa [← List.inj_on_of_nodup_map hnodup hfound hworkload (hitemOf.trans hsame)]

section Fence

variable (hsteady : Steady coordinator holds)

include hsteady

theorem assures_fenced {exceptServices : List Text} :
    Assures coordinator holds (coordinator.fenced captured exceptServices) fun quiet state ↦
      holds state ∧ (quiet = true → state.QuietExcept exceptServices) := by
  refine assures_read hsteady (fun quiet state ↦ quiet = true → state.QuietExcept exceptServices)
    fun state quiet next hstate hrun ↦ ?_
  simp only [bind_eq_ok, get_eq_ok, lift_eq_ok, ResetCoordinator.checkIdentity, failIf_eq_ok,
    not_or, not_not] at hrun
  obtain ⟨_, _, ⟨rfl, rfl⟩, _, _, ⟨⟨-, hcaptured⟩, rfl⟩, hfenced, rfl⟩ := hrun
  refine ⟨rfl, fun hquiet ↦ ?_⟩
  subst hquiet
  exact quietExcept_of_fenced (hsteady.invariant _ hstate) hcaptured hfenced

/-- The coordinator goes on behind the fence only. -/
theorem assures_fencedOrRefuse {α : Type} {exceptServices : List Text} {reason : String}
    {rest : ResetM α} {post : α → ResetState → Prop}
    (hrest : Assures coordinator (fun state ↦ holds state ∧ state.QuietExcept exceptServices) rest
      post) :
    Assures coordinator holds (do
      let quiet ← coordinator.fenced captured exceptServices
      refuseIf (quiet = false) reason
      rest) post := by
  refine (assures_fenced hsteady).bind fun quiet ↦ ?_
  have hfenced : Steady coordinator fun state ↦
      holds state ∧ (quiet = true → state.QuietExcept exceptServices) :=
    hsteady.and fun _ disturbance _ hquiet htrue ↦ quietExcept_change disturbance (hquiet htrue)
  refine (assures_refuseIf hfenced).bind fun _ ↦ Relies.of_fact fun hquiet ↦ ?_
  exact hrest.relyingOn _ fun state hstate ↦ ⟨hstate.1, hstate.2 (by simpa using hquiet)⟩

/-- A workload is scaled. -/
theorem assures_setReplicas {item : Item} {replicas : ℕ}
    (hscale : ∀ state, holds state → holds (state.scale item.definition replicas)) :
    Assures coordinator holds (coordinator.setReplicas captured item replicas) fun _ ↦ holds := by
  refine assures_perform hsteady fun state value next hstate hrun ↦ ?_
  simp only [bind_eq_ok, get_eq_ok, lift_eq_ok, raiseIf_eq_ok, set_eq_ok] at hrun
  obtain ⟨_, _, ⟨rfl, rfl⟩, _, _, ⟨-, rfl⟩, _, _, ⟨-, rfl⟩, _, _, ⟨-, rfl⟩, -, rfl⟩ := hrun
  exact ⟨hscale _ hstate, hsteady.invariant _ (hscale _ hstate)⟩

theorem assures_awaitFenced (patience : ℕ) :
    Assures coordinator holds (coordinator.awaitFenced captured patience) fun _ state ↦
      holds state ∧ state.QuietExcept [] := by
  induction patience with
  | zero => exact Relies.throw hsteady.invariant
  | succ patience ih =>
    refine (assures_fenced hsteady).bind fun quiet ↦ ?_
    cases quiet with
    | true => exact Relies.pure fun state hstate ↦ ⟨hstate.1, hstate.2 rfl⟩
    | false => exact ih.relyingOn _ fun state hstate ↦ hstate.1

theorem assures_pause
    (hscale : ∀ state definition replicas, holds state → holds (state.scale definition replicas)) :
    Assures coordinator holds (coordinator.pause captured) fun _ state ↦
      holds state ∧ state.QuietExcept [] :=
  (Relies.forM fun _ ↦ assures_setReplicas hsteady fun state ↦ hscale state _ _).bind
    fun _ ↦ assures_awaitFenced hsteady _

theorem assures_awaitReady {item : Item} (patience : ℕ) :
    Assures coordinator holds (ResetCoordinator.awaitReady item patience) fun _ ↦ holds := by
  induction patience with
  | zero => exact Relies.throw hsteady.invariant
  | succ patience ih =>
    refine Relies.bindAt (fun _ ↦ holds) ?_ fun ready ↦ ?_
    · refine assures_look hsteady fun state value next hrun ↦ ?_
      simp only [bind_eq_ok, get_eq_ok, lift_eq_ok, raiseIf_eq_ok, pure_eq_ok] at hrun
      obtain ⟨_, _, ⟨rfl, rfl⟩, _, _, ⟨-, rfl⟩, _, _, ⟨-, rfl⟩, -, rfl⟩ := hrun
      rfl
    · cases ready with
      | true => exact Relies.pure fun _ h ↦ h
      | false => exact ih

/-- The service of the models is started. -/
theorem assures_startPreferences
    (hscale : ∀ state definition replicas, definition.service = preferencesService → holds state →
      holds (state.scale definition replicas)) :
    Assures coordinator holds (coordinator.startPreferences captured) fun _ ↦ holds := by
  unfold ResetCoordinator.startPreferences
  split
  · rename_i item hitems
    have hservice : item.definition.service = preferencesService := by
      have hitem : item ∈ captured.items.filter fun item ↦
          item.definition.service = preferencesService := by simp [hitems]
      simpa using (List.mem_filter.mp hitem).2
    exact (assures_setReplicas hsteady fun state ↦ hscale state _ _ hservice).bind
      fun _ ↦ assures_awaitReady hsteady _
  · exact Relies.throw hsteady.invariant

end Fence

/-! ### The preferences API -/

/-- The rows that the validators accept are returned. -/
theorem validateModels_eq_ok {rows checked : List ModelRow}
    (hchecked : coordinator.validators.validateModels rows = .ok checked) :
    checked = rows ∧ coordinator.Valid rows := by
  have hsame : checked = rows := by
    unfold Validators.validateModels at hchecked
    obtain ⟨_, -, hreturned⟩ := except_bind_eq_ok.mp hchecked
    exact (except_pure_eq_ok.mp hreturned).symm
  exact ⟨hsame, hsame ▸ hchecked⟩

/-- Accepted rows have distinct identities. -/
theorem nodup_of_valid (hvalid : coordinator.Valid backup) :
    (backup.map ModelRow.identity).Nodup := by
  unfold ResetCoordinator.Valid Validators.validateModels at hvalid
  obtain ⟨_, haccepted, -⟩ := except_bind_eq_ok.mp hvalid
  have hnot := failIf_eq_ok.mp haccepted
  tauto

section Api

variable (hsteady : Steady coordinator holds)

include hsteady

/-- A model that is read is one of the owner. -/
theorem assures_model {owner id : Text} :
    Assures coordinator holds (ResetCoordinator.model owner id) fun row state ↦
      holds state ∧ row ∈ state.live ∧ row.userId = owner ∧ row.id = id := by
  refine assures_read hsteady (fun row state ↦ row ∈ state.live ∧ row.userId = owner ∧ row.id = id)
    fun state row next hstate hrun ↦ ?_
  simp only [bind_eq_ok, get_eq_ok, lift_eq_ok] at hrun
  obtain ⟨_, _, ⟨rfl, rfl⟩, _, _, ⟨-, rfl⟩, hfound⟩ := hrun
  cases hfind : (state.databases preferencesService).models.find? fun row : ModelRow ↦
      row.userId = owner && row.id = id with
  | none => simp [hfind] at hfound
  | some found =>
    rw [hfind] at hfound
    obtain ⟨rfl, rfl⟩ := pure_eq_ok.mp hfound
    have htest := List.find?_some hfind
    simp only [Bool.and_eq_true, decide_eq_true_eq] at htest
    exact ⟨rfl, List.mem_of_find?_eq_some hfind, htest⟩

theorem assures_ownerIds {owner : Text} :
    Assures coordinator holds (ResetCoordinator.ownerIds owner) fun ids state ↦
      holds state ∧ ids = (state.live.filter fun row ↦ row.userId = owner).map ModelRow.id := by
  refine assures_read hsteady (fun ids state ↦
    ids = (state.live.filter fun row ↦ row.userId = owner).map ModelRow.id)
    fun state ids next hstate hrun ↦ ?_
  simp only [bind_eq_ok, get_eq_ok, lift_eq_ok, pure_eq_ok] at hrun
  obtain ⟨_, _, ⟨rfl, rfl⟩, _, _, ⟨-, rfl⟩, rfl, rfl⟩ := hrun
  exact ⟨rfl, rfl⟩

/-- Reading models changes nothing. -/
theorem assures_ownerModels {owner : Text} :
    Assures coordinator holds (ResetCoordinator.ownerModels owner) fun _ ↦ holds := by
  refine Relies.bindAt (fun _ ↦ holds)
    ((assures_ownerIds hsteady).weaken fun _ _ h ↦ h.1) fun ids ↦ ?_
  induction ids with
  | nil => exact Relies.pure fun _ h ↦ h
  | cons id rest ih =>
    refine Relies.bindAt (fun _ ↦ holds)
      ((assures_model hsteady).weaken fun _ _ h ↦ h.1) fun row ↦ ?_
    exact ih.bindAt (fun _ ↦ holds) fun others ↦ Relies.pure fun _ h ↦ h

/-- While nobody writes models, every model of the owner is read. -/
theorem assures_ownerModels_live {owner : Text} (hlive : ∀ state, holds state → state.live = live)
    (hids : (live.map ModelRow.id).Nodup) :
    Assures coordinator holds (ResetCoordinator.ownerModels owner) fun rows state ↦
      rows = (live.filter fun row ↦ row.userId = owner) ∧ holds state := by
  have hreads : ∀ rows ⊆ live.filter fun row ↦ row.userId = owner,
      Assures coordinator holds (ResetCoordinator.modelsOf owner (rows.map ModelRow.id))
        fun found state ↦ found = rows ∧ holds state := by
    intro rows hrows
    induction rows with
    | nil => exact Relies.pure fun _ h ↦ ⟨rfl, h⟩
    | cons row rest ih =>
      refine Relies.bindAt (fun found state ↦ found = row ∧ holds state)
        ((assures_model hsteady).weaken fun found state hfound ↦ ?_)
        fun found ↦ Relies.of_fact fun hfound ↦ ?_
      · rw [hlive state hfound.1] at hfound
        have hrow := List.mem_filter.mp (hrows List.mem_cons_self)
        exact ⟨List.inj_on_of_nodup_map hids hfound.2.1 hrow.1 hfound.2.2.2, hfound.1⟩
      · refine (ih fun other hother ↦ hrows (List.mem_cons_of_mem _ hother)).bind
          fun others ↦ Relies.of_fact fun hothers ↦ ?_
        exact Relies.pure fun _ h ↦ ⟨by rw [hfound, hothers], h⟩
  refine Relies.bindAt (fun ids state ↦
      ids = (live.filter fun row ↦ row.userId = owner).map ModelRow.id ∧ holds state)
    ((assures_ownerIds hsteady).weaken fun ids state hids ↦ ?_)
    fun ids ↦ Relies.of_fact fun hidsEq ↦ ?_
  · exact ⟨by rw [hids.2, hlive state hids.1], hids.1⟩
  · rw [hidsEq]
    exact hreads _ fun _ h ↦ h

end Api

end Ads.Deploy.Reset
