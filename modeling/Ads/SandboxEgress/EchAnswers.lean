import Ads.SandboxEgress.EchSafety

/-!
# What is answered can be decrypted

Rewriting a set of service records changes nothing but the ECH configurations of its ServiceMode
records, and puts that of the current key there (`rewritten_of_rewriteSet`). The configuration that
is stored under a name never changes (`hasKey_run`). So whatever a process answered, the keys that
are recovered at any later time contain the one for its configuration, for as long as a publication
that depends on it is retained (`ech_answered`).
-/

set_option autoImplicit false
set_option relaxedAutoImplicit false

namespace Ads.SandboxEgress.Ech

open Dns Foundation Foundation.StateExcept Foundation.Interrupted IdentityStore Python

variable {lifecycle : EchLifecycle} {tables : IdentityTables} {name : Text} {state : EchState}
  {now : ℚ} {record changed : ServiceRecord} {original : ServiceSet} {publication : EchPublication}

/-! ### Rewriting -/

/-- Parameters are the same but for ECH configurations. -/
def SameButEch (params others : List (ℕ × Bytes)) : Prop :=
  List.Forall₂ (fun param other ↦ param.1 = other.1 ∧ (param.1 ≠ echParam → param = other))
    params others

/-- A record is the same but for the ECH configurations of ServiceMode. -/
inductive Preserves : ServiceRecord → ServiceRecord → Prop
  | alias (target : List Text) (params : List (ℕ × Bytes)) :
    Preserves (.service 0 target params) (.service 0 target params)
  | service {priority : ℕ} (hpriority : priority ≠ 0) (target : List Text)
    {params others : List (ℕ × Bytes)} (hsame : SameButEch params others) :
    Preserves (.service priority target params) (.service priority target others)

/-- The ECH configurations that a record offers in ServiceMode. -/
def ServiceRecord.offers : ServiceRecord → List Bytes
  | .service priority _ params =>
    if priority ≠ 0 then (params.filter fun param ↦ param.1 = echParam).map Prod.snd else []
  | .other _ => []

/-- What a record offers. -/
theorem mem_offers {priority : ℕ} {target : List Text} {params : List (ℕ × Bytes)} {value : Bytes} :
    value ∈ (ServiceRecord.service priority target params).offers ↔
      priority ≠ 0 ∧ (echParam, value) ∈ params := by
  simp only [ServiceRecord.offers]
  split_ifs with hpriority
  · simp [hpriority]
  · simp [not_not.mp hpriority]

theorem sameButEch_refl (params : List (ℕ × Bytes)) : SameButEch params params :=
  List.forall₂_same.mpr fun _ _ ↦ ⟨rfl, fun _ ↦ rfl⟩

/-- Setting the ECH configuration changes nothing else. -/
theorem sameButEch_set (params : List (ℕ × Bytes)) (configuration : Bytes) :
    SameButEch params (params.map (setEch configuration)) := by
  rw [SameButEch, List.forall₂_map_right_iff, List.forall₂_same]
  intro param _
  unfold setEch
  split_ifs with hech
  · exact ⟨hech, fun hother ↦ absurd hech hother⟩
  · exact ⟨rfl, fun _ ↦ rfl⟩

/-- The only ECH configuration is the one that is set. -/
theorem mem_map_setEch {params : List (ℕ × Bytes)} {configuration value : Bytes} :
    (echParam, value) ∈ params.map (setEch configuration) ↔
      value = configuration ∧ echParam ∈ params.map Prod.fst := by
  rw [List.mem_map, List.mem_map]
  constructor
  · rintro ⟨param, hparam, hset⟩
    unfold setEch at hset
    split_ifs at hset with hech
    · exact ⟨(congrArg Prod.snd hset).symm, param, hparam, hech⟩
    · exact absurd (congrArg Prod.fst hset) hech
  · rintro ⟨rfl, param, hparam, hech⟩
    exact ⟨param, hparam, by rw [setEch, if_pos hech]⟩

/-- The configuration is that of the current key. -/
theorem configuration_eq_ok {configuration : Bytes} :
    lifecycle.configuration state tables = .ok configuration ↔ state.context ≠ none ∧
      ∃ key, lifecycle.recoverKey tables state.current = .ok key ∧
        key.configuration = configuration := by
  simp only [EchLifecycle.configuration, except_bind_eq_ok, failIf_eq_ok, except_pure_eq_ok]
  constructor
  · rintro ⟨_, hcontext, key, hkey, hconfiguration⟩
    exact ⟨hcontext, key, hkey, hconfiguration⟩
  · rintro ⟨hcontext, key, hkey, hconfiguration⟩
    exact ⟨(), hcontext, key, hkey, hconfiguration⟩

/-- What rewriting makes of a record. -/
structure RewrittenRecord (lifecycle : EchLifecycle) (tables : IdentityTables) (state : EchState)
    (record changed : ServiceRecord) (flag : Bool) : Prop where
  preserves : Preserves record changed
  offers : ∀ configuration ∈ changed.offers, ∃ key,
    lifecycle.recoverKey tables state.current = .ok key ∧ key.configuration = configuration
  flag : flag = true ↔ changed.offers ≠ []

/-- A record is rewritten. -/
theorem rewrittenRecord_of_ok {flag : Bool}
    (hrewrite : lifecycle.rewriteRecord state tables record = .ok (changed, flag)) :
    RewrittenRecord lifecycle tables state record changed flag := by
  cases record with
  | other content => cases hrewrite
  | service priority target params =>
    simp only [EchLifecycle.rewriteRecord] at hrewrite
    split_ifs at hrewrite with hech
    · obtain ⟨hpriority, hmem⟩ := hech
      simp only [except_bind_eq_ok, except_pure_eq_ok, Prod.mk.injEq] at hrewrite
      obtain ⟨configuration, hconfiguration, rfl, rfl⟩ := hrewrite
      obtain ⟨-, key, hkey, rfl⟩ := configuration_eq_ok.mp hconfiguration
      refine ⟨.service hpriority target (sameButEch_set params _), fun value hvalue ↦ ?_, ?_⟩
      · exact ⟨key, hkey, (mem_map_setEch.mp (mem_offers.mp hvalue).2).1.symm⟩
      · simp only [true_iff]
        exact List.ne_nil_of_mem (mem_offers.mpr ⟨hpriority, mem_map_setEch.mpr ⟨rfl, hmem⟩⟩)
    · simp only [except_pure_eq_ok, Prod.mk.injEq] at hrewrite
      obtain ⟨rfl, rfl⟩ := hrewrite
      have hnone : (ServiceRecord.service priority target params).offers = [] := by
        refine List.eq_nil_iff_forall_not_mem.mpr fun value hvalue ↦ hech ?_
        obtain ⟨hpriority, hmem⟩ := mem_offers.mp hvalue
        exact ⟨hpriority, List.mem_map_of_mem hmem⟩
      refine ⟨?_, fun value hvalue ↦ absurd (hnone ▸ hvalue) List.not_mem_nil, by simp [hnone]⟩
      by_cases hpriority : priority = 0
      · subst hpriority
        exact .alias target params
      · exact .service hpriority target (sameButEch_refl params)

/-- The records that are added, each once. -/
theorem foldl_addRecord {records added : List ServiceRecord} :
    (∀ record, record ∈ added.foldl addRecord records ↔ record ∈ records ∨ record ∈ added) ∧
      (records.Nodup → (added.foldl addRecord records).Nodup) := by
  induction added generalizing records with
  | nil => simp
  | cons record rest ih =>
    obtain ⟨hmem, hnodup⟩ := @ih (addRecord records record)
    rw [List.foldl_cons]
    refine ⟨fun other ↦ ?_, fun hrecords ↦ hnodup ?_⟩
    · rw [hmem]
      unfold addRecord
      split_ifs with hthere
      · simp only [List.mem_cons]
        constructor
        · tauto
        · rintro (h | rfl | h)
          · exact Or.inl h
          · exact Or.inl hthere
          · exact Or.inr h
      · simp only [List.mem_append, List.mem_cons, List.not_mem_nil, or_false]
        tauto
    · unfold addRecord
      split_ifs with hthere
      · exact hrecords
      · exact nodup_snoc hrecords hthere

/-- What rewriting makes of a set. -/
structure Rewritten (lifecycle : EchLifecycle) (tables : IdentityTables) (state : EchState)
    (now : ℚ) (original : ServiceSet) (publication : EchPublication) : Prop where
  ttl : publication.records.ttl = original.ttl
  nodup : publication.records.records.Nodup
  /-- Nothing is lost, and nothing is added. -/
  kept : ∀ record ∈ original.records, ∃ changed ∈ publication.records.records,
    Preserves record changed
  from_original : ∀ changed ∈ publication.records.records, ∃ record ∈ original.records,
    Preserves record changed
  /-- What is offered is the configuration of the current key. -/
  offers : ∀ changed ∈ publication.records.records, ∀ configuration ∈ changed.offers,
    publication.dependency = some state.current ∧ ∃ key,
      lifecycle.recoverKey tables state.current = .ok key ∧ key.configuration = configuration
  /-- What offers nothing depends on nothing. -/
  independent : (∀ changed ∈ publication.records.records, changed.offers = []) →
    publication.dependency = none
  retained : publication.retainUntil = now + original.ttl + lifecycle.handshakeWindow

/-- Items that are related one by one have partners on either side. -/
theorem exists_of_forall₂ {α β : Type} {related : α → β → Prop} {items : List α} {others : List β}
    (hrelated : List.Forall₂ related items others) :
    (∀ item ∈ items, ∃ other ∈ others, related item other) ∧
      ∀ other ∈ others, ∃ item ∈ items, related item other := by
  induction hrelated with
  | nil => simp
  | cons hfirst _ ih =>
    simp only [List.mem_cons, forall_eq_or_imp, exists_eq_or_imp]
    exact ⟨⟨Or.inl hfirst, fun item hitem ↦ Or.inr (ih.1 item hitem)⟩,
      Or.inl hfirst, fun other hother ↦ Or.inr (ih.2 other hother)⟩

/-- A set is rewritten. -/
theorem rewritten_of_rewriteSet
    (hrewrite : lifecycle.rewriteSet state now original tables = .ok publication) :
    Rewritten lifecycle tables state now original publication := by
  simp only [EchLifecycle.rewriteSet, except_bind_eq_ok, except_pure_eq_ok,
    except_mapM_eq_ok] at hrewrite
  obtain ⟨-, -, results, hresults, rfl⟩ := hrewrite
  obtain ⟨hmem, hnodup⟩ := @foldl_addRecord [] (results.map Prod.fst)
  have hadded : ∀ changed, changed ∈ (results.map Prod.fst).foldl addRecord [] ↔
      ∃ result ∈ results, result.1 = changed := by
    intro changed
    simp [hmem]
  have hrecords : List.Forall₂ (fun record (result : ServiceRecord × Bool) ↦
      RewrittenRecord lifecycle tables state record result.1 result.2) original.records results :=
    hresults.imp fun record result h ↦ rewrittenRecord_of_ok h
  obtain ⟨hleft, hright⟩ := exists_of_forall₂ hrecords
  constructor
  case ttl => rfl
  case nodup => exact hnodup List.nodup_nil
  case retained => rfl
  case kept =>
    intro record hrecord
    obtain ⟨result, hresult, hrewritten⟩ := hleft record hrecord
    exact ⟨result.1, (hadded _).mpr ⟨result, hresult, rfl⟩, hrewritten.preserves⟩
  case from_original =>
    intro changed hchanged
    obtain ⟨result, hresult, rfl⟩ := (hadded changed).mp hchanged
    obtain ⟨record, hrecord, hrewritten⟩ := hright result hresult
    exact ⟨record, hrecord, hrewritten.preserves⟩
  case offers =>
    intro changed hchanged configuration hoffered
    obtain ⟨result, hresult, rfl⟩ := (hadded changed).mp hchanged
    obtain ⟨record, -, hrewritten⟩ := hright result hresult
    have hflag := hrewritten.flag.mpr (List.ne_nil_of_mem hoffered)
    refine ⟨if_pos (List.any_eq_true.mpr ⟨result, hresult, hflag⟩), ?_⟩
    exact hrewritten.offers configuration hoffered
  case independent =>
    intro hnone
    refine if_neg fun hany ↦ ?_
    obtain ⟨result, hresult, hflag⟩ := List.any_eq_true.mp hany
    obtain ⟨record, -, hrewritten⟩ := hright result hresult
    exact hrewritten.flag.mp hflag (hnone _ ((hadded _).mpr ⟨result, hresult, rfl⟩))

/-! ### What is stored under a name -/

/-- The configuration under a name. -/
def HasKey (name : Text) (publicPart : Bytes) (tables : IdentityTables) : Prop :=
  ∃ row ∈ tables.keys, row.name = name ∧ row.publicPart = publicPart

variable {publicPart : Bytes} {α β : Type}

/-- A program keeps what is stored under a name. -/
abbrev KeepsKey (name : Text) (publicPart : Bytes) (program : EchM α) : Prop :=
  Stable (fun world : EchWorld ↦ HasKey name publicPart world.store.tables) program

/-- A call of the store keeps it. -/
theorem hasKey_performed (call : StoreCall) {store : Store}
    (hkey : HasKey name publicPart store.tables) :
    HasKey name publicPart (performed lifecycle.custody call store).2.tables := by
  rcases @moves_performed lifecycle call store with hsame | ⟨hmove, -⟩
  · rwa [hsame]
  · obtain ⟨row, hrow, hname, hpublic⟩ := hkey
    obtain ⟨later, hlater, hlaterName, -, hlaterPublic, -⟩ := hmove.forward row hrow
    exact ⟨later, hlater, hlaterName.trans hname, hlaterPublic.trans hpublic⟩

theorem keepsKey_call (call : StoreCall) :
    KeepsKey name publicPart (onStore (performed lifecycle.custody call)) :=
  fun _ hkey ↦ leaves_onStore.mpr (leaves_final (hasKey_performed call hkey))

theorem keepsKey_getState : KeepsKey name publicPart getState :=
  fun _ hkey ↦ hkey

theorem keepsKey_setState {next : EchState} : KeepsKey name publicPart (setState next) :=
  fun _ hkey ↦ hkey

theorem keepsKey_reading {computation : IdentityTables → Except StoreRaised α} :
    KeepsKey name publicPart (reading computation) :=
  fun world hkey ↦ by
    change Leaves (Program.evaluate (computation world.store.tables)) world _ _
    exact leaves_evaluate.mpr ⟨fun _ _ ↦ hkey, fun _ _ ↦ hkey⟩

theorem keepsKey_withError {rename : StoreRaised → StoreRaised} {program : EchM α}
    (hprogram : KeepsKey name publicPart program) :
    KeepsKey name publicPart (Program.withError rename program) :=
  fun world hkey ↦ leaves_withError.mpr (hprogram world hkey)

theorem keepsKey_time {clock : Option ℚ} : KeepsKey name publicPart (EchLifecycle.time clock) := by
  refine Stable.bind keepsKey_getState fun found ↦ ?_
  cases clock with
  | none => exact Stable.throw
  | some clock =>
    exact Stable.bind Stable.evaluate fun _ ↦ Stable.bind keepsKey_setState fun _ ↦ Stable.pure

theorem keepsKey_retireActive {moved : Text} :
    KeepsKey name publicPart (lifecycle.retireActive moved) :=
  Stable.bind keepsKey_reading fun _ ↦
    Stable.ite (keepsKey_call (.advance moved .active .retiring)) Stable.pure

theorem keepsKey_commitHead {names : List Text} {current : Text} {context : List EchKey} :
    KeepsKey name publicPart (lifecycle.commitHead names current now context) :=
  Stable.bind keepsKey_getState fun _ ↦ Stable.bind Stable.evaluate fun _ ↦
    Stable.bind (keepsKey_call (.commitPublication _ _ _ _)) fun _ ↦ keepsKey_setState

theorem keepsKey_rotate {clock : Option ℚ} {generated : ℕ → Option Bytes} {works : Bool} :
    KeepsKey name publicPart (lifecycle.rotate clock generated works) := by
  refine Stable.bind keepsKey_time fun _ ↦ Stable.bind keepsKey_getState fun found ↦ ?_
  refine Stable.bind Stable.evaluate fun _ ↦ Stable.bind keepsKey_reading fun _ ↦ ?_
  refine Stable.bind Stable.evaluate fun key ↦ ?_
  refine Stable.bind (keepsKey_call (.prepareKey _ _ _ _)) fun _ ↦ ?_
  refine Stable.bind keepsKey_reading fun _ ↦ Stable.bind Stable.evaluate fun _ ↦ ?_
  refine Stable.bind (keepsKey_call (.advance _ _ _)) fun _ ↦ ?_
  refine Stable.bind keepsKey_commitHead fun _ ↦ ?_
  exact Stable.bind (keepsKey_call (.advance _ _ _)) fun _ ↦
    Stable.ite keepsKey_retireActive Stable.pure

theorem keepsKey_collect {clock : Option ℚ} {works : Bool} :
    KeepsKey name publicPart (lifecycle.collect clock works) := by
  refine Stable.bind keepsKey_time fun _ ↦ Stable.bind keepsKey_getState fun found ↦ ?_
  refine Stable.bind keepsKey_reading fun retired ↦ Stable.ite Stable.pure ?_
  refine Stable.bind keepsKey_reading fun _ ↦ Stable.bind Stable.evaluate fun _ ↦ ?_
  refine Stable.bind keepsKey_commitHead fun _ ↦ Stable.bind (Stable.forM fun leaving ↦ ?_) fun _ ↦
    keepsKey_call (.prunePublications _ _)
  exact Stable.bind keepsKey_retireActive fun _ ↦ keepsKey_call (.retire _ _)

theorem keepsKey_restage {current moved : Text} :
    KeepsKey name publicPart (lifecycle.restage current moved) := by
  have hlast : KeepsKey name publicPart
      (if moved ≠ current then lifecycle.retireActive moved else pure ()) :=
    Stable.ite keepsKey_retireActive Stable.pure
  refine Stable.bind keepsKey_reading fun _ ↦ Stable.ite ?_ hlast
  exact Stable.bind (keepsKey_call (.advance _ _ _)) fun _ ↦ hlast

theorem keepsKey_construct {clock : Option ℚ} {initial : Bool} {generated : ℕ → Option Bytes}
    {works : Bool} :
    KeepsKey name publicPart (lifecycle.construct clock initial generated works) := by
  refine Stable.bind keepsKey_time fun _ ↦ Stable.bind keepsKey_reading fun head ↦ Stable.ite ?_ ?_
  · exact Stable.bind keepsKey_reading fun _ ↦ Stable.bind Stable.evaluate fun _ ↦ keepsKey_rotate
  · cases head with
    | none => exact Stable.throw
    | some row =>
      refine Stable.bind (keepsKey_withError keepsKey_reading) fun _ ↦ ?_
      refine Stable.bind (keepsKey_withError Stable.evaluate) fun _ ↦ ?_
      exact Stable.bind keepsKey_getState fun _ ↦ Stable.bind keepsKey_setState fun _ ↦
        Stable.forM fun _ ↦ keepsKey_restage

theorem keepsKey_rewrite {clock : Option ℚ} :
    KeepsKey name publicPart (lifecycle.rewrite original clock) :=
  Stable.bind keepsKey_time fun _ ↦ Stable.bind keepsKey_getState fun _ ↦ keepsKey_reading

variable {system : EchSystem}

/-- An operation of the process keeps what is stored. -/
theorem hasKey_operate {program : EchM Unit} (hprogram : KeepsKey name publicPart program)
    (hkey : HasKey name publicPart system.store.tables) :
    HasKey name publicPart (system.operate program).store.tables := by
  unfold EchSystem.operate
  cases system.state with
  | none => exact hkey
  | some state =>
    let world : EchWorld := ⟨system.store, state⟩
    have hworld : HasKey name publicPart world.store.tables := hkey
    exact hprogram.kept hworld

/-- Every step keeps what is stored under a name. -/
theorem hasKey_step (input : EchInput) (hkey : HasKey name publicPart system.store.tables) :
    HasKey name publicPart (lifecycle.step system input).store.tables := by
  cases input with
  | tick => exact hkey
  | exit => exact hkey
  | construct initial generated works =>
    exact (@keepsKey_construct lifecycle name publicPart _ initial generated works).kept hkey
  | rotate generated works => exact hasKey_operate keepsKey_rotate hkey
  | collect works => exact hasKey_operate keepsKey_collect hkey
  | rewrite original =>
    exact hasKey_operate (Stable.bind keepsKey_rewrite fun _ ↦ Stable.pure) hkey
  | other call =>
    change HasKey name publicPart (if lifecycle.isForeign system.store.tables call then
      { system with store := (performed lifecycle.custody call system.store).2 }
        else system).store.tables
    split_ifs
    · exact hasKey_performed call hkey
    · exact hkey

/-- Every run keeps what is stored under a name. -/
theorem hasKey_run (inputs : List EchInput) (hkey : HasKey name publicPart system.store.tables) :
    HasKey name publicPart (lifecycle.run system inputs).store.tables := by
  induction inputs generalizing system with
  | nil => exact hkey
  | cons input rest ih => exact ih (hasKey_step input hkey)

/-! ### Answers -/

/-- What is promised of the sets that a process rewrites, whatever happens later. -/
structure Answered (lifecycle : EchLifecycle) (system later : EchSystem) : Prop where
  rewritten : ∀ state original publication, system.state = some state →
    lifecycle.rewriteSet state system.wall original system.store.tables = .ok publication →
      Rewritten lifecycle system.store.tables state system.wall original publication
  /-- While a publication that depends on what is offered is retained, its key is recovered. -/
  decrypts : ∀ state original publication, system.state = some state →
    lifecycle.rewriteSet state system.wall original system.store.tables = .ok publication →
      ∀ changed ∈ publication.records.records, ∀ configuration ∈ changed.offers,
        ∃ dependency, publication.dependency = some dependency ∧
          ∀ row, later.store.tables.Depends row dependency → later.wall ≤ row.retainUntil →
            ∃ newest, journalHead later.store.tables echPrefix = some newest ∧
              ∀ now, later.wall ≤ now → ∃ head keys,
                lifecycle.readHead newest now later.store.tables = .ok (head, keys) ∧
                  ∃ key ∈ keys, key.configuration = configuration

/-- A key that is recovered is stored. -/
theorem hasKey_of_recoverKey {key : EchKey} (hkey : lifecycle.recoverKey tables name = .ok key) :
    HasKey name key.configuration tables := by
  obtain ⟨-, row, hfind, -, -, -, -, hpublic⟩ := recoverKey_eq_ok.mp hkey
  obtain ⟨hrow, hname⟩ := Table.find_eq_some_iff.mp hfind
  exact ⟨row, hrow, hname, hpublic⟩

/-- The configuration of a key that serves is the one that is stored. -/
theorem configuration_eq_of_hasKey {key : EchKey} (hserves : Serves lifecycle tables name key)
    (hkey : HasKey name publicPart tables) : key.configuration = publicPart := by
  obtain ⟨row, hfind, -, -, -, -, hpublic⟩ := hserves
  obtain ⟨hrow, hname⟩ := Table.find_eq_some_iff.mp hfind
  obtain ⟨other, hother, hotherName, rfl⟩ := hkey
  rw [← hpublic, Table.eq_of_key_eq hrow hother (hname.trans hotherName.symm)]

/-- **What is answered can be decrypted.** In every run of a new store and after every later run,
whatever fails and wherever the process ends. -/
theorem ech_answered (lifecycle : EchLifecycle) (nonce : Nonce) (tables : IdentityTables)
    (hcreated : created lifecycle.custody nonce = .ok tables) (surroundings : ℕ → Surroundings)
    (wall : ℚ) (inputs more : List EchInput) :
    Answered lifecycle (lifecycle.run ⟨⟨tables, surroundings⟩, none, wall⟩ inputs)
      (lifecycle.run (lifecycle.run ⟨⟨tables, surroundings⟩, none, wall⟩ inputs) more) := by
  have hinvariant : Invariant lifecycle
      (lifecycle.run ⟨⟨tables, surroundings⟩, none, wall⟩ inputs) :=
    Invariant.run inputs ⟨⟨none, journal_created hcreated⟩, fun state h ↦ by cases h⟩
  generalize lifecycle.run ⟨⟨tables, surroundings⟩, none, wall⟩ inputs = system at hinvariant ⊢
  refine ⟨fun state original publication _ hrewrite ↦ rewritten_of_rewriteSet hrewrite,
    fun state original publication hstate hrewrite changed hchanged configuration hoffered ↦ ?_⟩
  obtain ⟨hdependency, key, hkey, rfl⟩ :=
    (rewritten_of_rewriteSet hrewrite).offers changed hchanged configuration hoffered
  refine ⟨state.current, hdependency, fun row hdepends hretained ↦ ?_⟩
  -- The dependency is a name of a key of the lifecycle, so the newest publication lists it.
  have hname : keyPrefix <+: state.current := by
    obtain ⟨⟨found, hholds⟩, hlive⟩ := hinvariant.2 state hstate
    exact hholds.memory.named _
      (hholds.memory.current.resolve_left fun hnone ↦ hlive trivial hnone.2.2)
  obtain ⟨⟨newest, hjournal⟩, -⟩ := hinvariant.run more
  have hlisted := hjournal.owned row state.current hdepends hname hretained
  cases newest with
  | none => exact absurd hlisted List.not_mem_nil
  | some found =>
    have hnewest : Newest lifecycle _ _ found.1 found.2 := hjournal.starts
    obtain ⟨last, hlast, -⟩ := hnewest.row
    refine ⟨last, hlast, fun now hnow ↦ ?_⟩
    obtain ⟨head, keys, hfound, hread⟩ := readHead_of_journal hjournal hlast hnow
    obtain rfl := Option.some.inj hfound
    refine ⟨head, keys, hread, ?_⟩
    obtain ⟨recovered, hrecovered, hserves⟩ :=
      (exists_of_forall₂ hnewest.serves).1 state.current hlisted
    exact ⟨recovered, hrecovered,
      configuration_eq_of_hasKey hserves (hasKey_run more (hasKey_of_recoverKey hkey))⟩

/-- A set of two records, of which one offers an ECH configuration. -/
def openSet : ServiceSet :=
  ⟨300, [.service 0 ["alias".toList] [(echParam, [1])], .service 1 [] [(1, [2]), (echParam, [3])]]⟩

/-- What is promised holds of the first half of a run and the rest of it, and the set is rewritten
after the first half. -/
theorem ech_answered_restarted :
    Answered openLifecycle
      (openLifecycle.run ⟨⟨newTables, failing⟩, none, 0⟩ (restarted.take 2))
      (openLifecycle.run (openLifecycle.run ⟨⟨newTables, failing⟩, none, 0⟩ (restarted.take 2))
        (restarted.drop 2)) ∧
    ((openLifecycle.run ⟨⟨newTables, failing⟩, none, 0⟩ (restarted.take 2)).state.map fun state ↦
      ((openLifecycle.rewriteSet state 10 openSet (openLifecycle.run
        ⟨⟨newTables, failing⟩, none, 0⟩ (restarted.take 2)).store.tables).toOption.map
          fun publication ↦ publication.records.records)) =
      some (some [.service 0 ["alias".toList] [(echParam, [1])],
        .service 1 [] [(1, [2]), (echParam, List.replicate 7 1)]]) :=
  ⟨ech_answered openLifecycle zeroNonce newTables created_new failing 0 (restarted.take 2)
    (restarted.drop 2), by decide +kernel⟩

end Ads.SandboxEgress.Ech
