import Mathlib.Control.Basic
import Mathlib.Data.List.Basic
import Mathlib.Data.List.Forall2

/-!
# Computations with a state that may fail

Rules for `StateT σ (Except ε)`, read from the outcome of a run: a sequence that ends in a value
ran both its parts to a value, a guard that ends in a value was not raised, and a fold that ends in
a value keeps whatever each of its rounds keeps. With these a program in `do` notation is taken
apart by `obtain`, without unfolding the monad.

Three judgements of whole programs follow, with a rule for each way to build a program: `Keeps` says
that an invariant of the state holds after the run and something of the value, `Avoids` that the
program never stops with one failure, and `Ensures` is the weakest precondition, for one state, of a
postcondition for values and another for failures.
-/

set_option autoImplicit false
set_option relaxedAutoImplicit false

namespace Ads.Foundation.StateExcept

variable {σ ε α β : Type}

/-- Raise the failure when the condition holds. -/
def raiseIf (condition : Prop) [Decidable condition] (failure : ε) : StateT σ (Except ε) Unit :=
  if condition then throw failure else pure ()

/-- Raise the failure when the condition holds, in a computation without state. -/
def failIf (condition : Prop) [Decidable condition] (failure : ε) : Except ε Unit :=
  if condition then throw failure else pure ()

/-- Perform an action of the state that cannot fail. -/
def perform (action : StateM σ α) : StateT σ (Except ε) α :=
  fun state ↦ .ok (action.run state)

/-- A guard without state ends in a value exactly when its condition fails. -/
@[simp] theorem failIf_eq_ok {condition : Prop} [Decidable condition] {failure : ε} {result : Unit} :
    failIf condition failure = .ok result ↔ ¬ condition := by
  unfold failIf
  split <;> simp_all [pure, Except.pure, throw, throwThe, MonadExceptOf.throw]

/-- A sequence without state that ends in a value ran both parts to a value. -/
theorem except_bind_eq_ok {first : Except ε α} {second : α → Except ε β} {value : β} :
    (first >>= second) = .ok value ↔ ∃ middle, first = .ok middle ∧ second middle = .ok value := by
  cases first with
  | error failure => simp [Bind.bind, Except.bind]
  | ok middle => simp [Bind.bind, Except.bind]

/-- A sequence without state that fails, fails in one of its parts. -/
theorem except_bind_eq_error {first : Except ε α} {second : α → Except ε β} {failure : ε} :
    (first >>= second) = .error failure ↔
      first = .error failure ∨ ∃ middle, first = .ok middle ∧ second middle = .error failure := by
  cases first with
  | error failure => simp [Bind.bind, Except.bind]
  | ok middle => simp [Bind.bind, Except.bind]

/-- An action on all items ends in the values it ends in for each. -/
theorem except_mapM_eq_ok {action : α → Except ε β} {items : List α} {values : List β} :
    items.mapM action = .ok values ↔
      List.Forall₂ (fun item value ↦ action item = .ok value) items values := by
  induction items generalizing values with
  | nil =>
    rw [List.mapM_nil, List.forall₂_nil_left_iff]
    exact ⟨fun hvalues ↦ (Except.ok.inj hvalues).symm, fun hvalues ↦ congrArg Except.ok hvalues.symm⟩
  | cons item rest ih =>
    simp only [List.mapM_cons, except_bind_eq_ok, List.forall₂_cons_left_iff]
    constructor
    · rintro ⟨value, hvalue, others, hothers, hresult⟩
      exact ⟨value, others, hvalue, ih.mp hothers, (Except.ok.inj hresult).symm⟩
    · rintro ⟨value, others, hvalue, hothers, rfl⟩
      exact ⟨value, hvalue, others, ih.mpr hothers, rfl⟩

/-- An action on all items fails where it fails on one and not on those before it. -/
theorem except_mapM_eq_error {action : α → Except ε β} {items : List α} {failure : ε} :
    items.mapM action = .error failure ↔ ∃ before item after, items = before ++ item :: after ∧
      (∀ earlier ∈ before, ∃ result, action earlier = .ok result) ∧
        action item = .error failure := by
  induction items with
  | nil =>
    constructor
    · nofun
    · rintro ⟨before, item, after, hitems, -⟩
      exact absurd hitems.symm (by simp)
  | cons first rest ih =>
    rw [List.mapM_cons, except_bind_eq_error]
    constructor
    · rintro (hfirst | ⟨result, hfirst, hrest⟩)
      · exact ⟨[], first, rest, rfl, nofun, hfirst⟩
      · rcases except_bind_eq_error.mp hrest with hfailed | ⟨results, -, hpure⟩
        · obtain ⟨before, item, after, rfl, hbefore, hitem⟩ := ih.mp hfailed
          refine ⟨first :: before, item, after, rfl, ?_, hitem⟩
          exact List.forall_mem_cons.mpr ⟨⟨result, hfirst⟩, hbefore⟩
        · cases hpure
    · rintro ⟨before, item, after, hitems, hbefore, hitem⟩
      cases before with
      | nil =>
        obtain ⟨rfl, rfl⟩ := List.cons.inj hitems
        exact Or.inl hitem
      | cons earlier others =>
        obtain ⟨rfl, rfl⟩ := List.cons.inj hitems
        obtain ⟨⟨result, hresult⟩, hothers⟩ := List.forall_mem_cons.mp hbefore
        refine Or.inr ⟨result, hresult, except_bind_eq_error.mpr (Or.inl ?_)⟩
        exact ih.mpr ⟨others, item, after, rfl, hothers, hitem⟩

/-- A computation without state whose value is changed. -/
theorem except_map_eq_ok {change : α → β} {computation : Except ε α} {value : β} :
    change <$> computation = .ok value ↔
      ∃ result, computation = .ok result ∧ change result = value := by
  cases computation with
  | error failure => exact ⟨(nomatch ·), fun ⟨_, hresult, _⟩ ↦ nomatch hresult⟩
  | ok result =>
    constructor
    · intro hvalue
      exact ⟨result, rfl, Except.ok.inj hvalue⟩
    · rintro ⟨_, hresult, rfl⟩
      rw [← Except.ok.inj hresult]
      rfl

/-- A value without state. -/
@[simp] theorem except_pure_eq_ok {value result : α} :
    (pure value : Except ε α) = .ok result ↔ value = result :=
  ⟨Except.ok.inj, congrArg _⟩

/-- A failure without state is not a value. -/
@[simp] theorem except_throw_ne_ok {failure : ε} {result : α} :
    (throw failure : Except ε α) ≠ .ok result :=
  (nomatch ·)

/-- A fold without state, of which each round takes only valid items and appends the piece of its
item, appends the pieces of all of them. -/
theorem except_foldlM_appends {step : σ → α → Except ε σ} {view : σ → List β} {valid : α → Prop}
    {piece : α → List β} {items : List α} {state final : σ}
    (hrun : items.foldlM step state = .ok final)
    (hstep : ∀ state item next, step state item = .ok next →
      valid item ∧ view next = view state ++ piece item) :
    (∀ item ∈ items, valid item) ∧ view final = view state ++ items.flatMap piece := by
  induction items generalizing state with
  | nil =>
    obtain rfl : state = final := by simpa using hrun
    simp
  | cons item rest ih =>
    rw [List.foldlM_cons, except_bind_eq_ok] at hrun
    obtain ⟨next, hfirst, hrest⟩ := hrun
    obtain ⟨hitem, hview⟩ := hstep state item next hfirst
    obtain ⟨hvalid, hfinal⟩ := ih hrest
    refine ⟨List.forall_mem_cons.mpr ⟨hitem, hvalid⟩, ?_⟩
    rw [hfinal, hview, List.flatMap_cons, List.append_assoc]

/-- A loop without state ends in a value exactly when it does for each item. -/
theorem except_forM_eq_ok {action : α → Except ε Unit} {items : List α} {done : Unit} :
    forM items action = .ok done ↔ ∀ item ∈ items, action item = .ok () := by
  induction items with
  | nil => simp
  | cons item rest ih =>
    rw [List.forM_cons, except_bind_eq_ok, List.forall_mem_cons]
    exact ⟨fun ⟨_, hfirst, hrest⟩ ↦ ⟨hfirst, ih.mp hrest⟩,
      fun ⟨hfirst, hrest⟩ ↦ ⟨(), hfirst, ih.mpr hrest⟩⟩

/-- A sequence that ends in a value ran both parts to a value. -/
theorem bind_eq_ok {first : StateT σ (Except ε) α} {second : α → StateT σ (Except ε) β}
    {state final : σ} {value : β} :
    (first >>= second) state = .ok (value, final) ↔
      ∃ middle between, first state = .ok (middle, between) ∧
        second middle between = .ok (value, final) := by
  change (first state >>= fun pair ↦ second pair.1 pair.2) = _ ↔ _
  cases hfirst : first state with
  | error failure => simp [Bind.bind, Except.bind]
  | ok pair =>
    obtain ⟨middle, between⟩ := pair
    simp [Bind.bind, Except.bind]

/-- Returning ends in the returned value and leaves the state. -/
@[simp] theorem pure_eq_ok {state final : σ} {value result : α} :
    (pure value : StateT σ (Except ε) α) state = .ok (result, final) ↔
      value = result ∧ state = final := by
  change Except.ok (value, state) = _ ↔ _
  simp

/-- Raising does not end in a value. -/
@[simp] theorem throw_ne_ok {state final : σ} {failure : ε} {result : α} :
    (throw failure : StateT σ (Except ε) α) state ≠ .ok (result, final) := by
  change (Except.error failure >>= fun value ↦ Except.ok (value, state)) ≠ _
  simp [Bind.bind, Except.bind]

/-- A guard ends in a value exactly when its condition fails, and leaves the state. -/
@[simp] theorem raiseIf_eq_ok {condition : Prop} [Decidable condition] {failure : ε}
    {state final : σ} {result : Unit} :
    (raiseIf condition failure : StateT σ (Except ε) Unit) state = .ok (result, final) ↔
      ¬ condition ∧ state = final := by
  unfold raiseIf
  split
  · simp_all
  · simp_all

/-- Reading the state ends in the state. -/
@[simp] theorem get_eq_ok {state final result : σ} :
    (get : StateT σ (Except ε) σ) state = .ok (result, final) ↔
      state = result ∧ state = final := by
  change Except.ok (state, state) = _ ↔ _
  simp

/-- Writing the state ends in the written state. -/
@[simp] theorem set_eq_ok {state final written : σ} {result : PUnit} :
    (set written : StateT σ (Except ε) PUnit) state = .ok (result, final) ↔
      written = final := by
  change Except.ok (PUnit.unit, written) = _ ↔ _
  simp

/-- A computation without state ends in a value with the state unchanged. -/
@[simp] theorem lift_eq_ok {computation : Except ε α} {state final : σ} {result : α} :
    (liftM computation : StateT σ (Except ε) α) state = .ok (result, final) ↔
      computation = .ok result ∧ state = final := by
  change (computation >>= fun value ↦ Except.ok (value, state)) = _ ↔ _
  cases computation <;> simp [Bind.bind, Except.bind]

/-- An action that cannot fail ends in its own value and state. -/
@[simp] theorem perform_eq_ok {action : StateM σ α} {state final : σ} {result : α} :
    (perform action : StateT σ (Except ε) α) state = .ok (result, final) ↔
      action.run state = (result, final) := by
  simp [perform]

/-- What every round of a fold keeps holds at its end. -/
theorem foldlM_induction {step : β → α → StateT σ (Except ε) β} (keeps : β → Prop)
    {items : List α}
    (hstep : ∀ accumulated item state next final, item ∈ items → keeps accumulated →
      step accumulated item state = .ok (next, final) → keeps next)
    {start result : β} {state final : σ} (hstart : keeps start)
    (hrun : items.foldlM step start state = .ok (result, final)) : keeps result := by
  induction items generalizing start state with
  | nil =>
    obtain ⟨rfl, -⟩ := pure_eq_ok.mp hrun
    exact hstart
  | cons item rest ih =>
    rw [List.foldlM_cons] at hrun
    obtain ⟨next, between, hitem, hrest⟩ := bind_eq_ok.mp hrun
    exact ih (fun accumulated other state next final hother ↦
      hstep accumulated other state next final (List.mem_cons_of_mem _ hother))
      (hstep start item state next between List.mem_cons_self hstart hitem) hrest

/-- Every value of a traversal is the value of its action on one of the items. -/
theorem mapM_eq_ok {action : α → StateT σ (Except ε) β} {items : List α} {state final : σ}
    {values : List β} (hrun : items.mapM action state = .ok (values, final)) :
    ∀ value ∈ values, ∃ item ∈ items, ∃ before after, action item before = .ok (value, after) := by
  induction items generalizing state final values with
  | nil =>
    obtain ⟨rfl, -⟩ := pure_eq_ok.mp hrun
    exact fun _ hvalue ↦ absurd hvalue List.not_mem_nil
  | cons item rest ih =>
    rw [List.mapM_cons] at hrun
    obtain ⟨first, between, hitem, hrun⟩ := bind_eq_ok.mp hrun
    obtain ⟨others, last, hrest, hrun⟩ := bind_eq_ok.mp hrun
    obtain ⟨rfl, -⟩ := pure_eq_ok.mp hrun
    intro value hvalue
    rcases List.mem_cons.mp hvalue with rfl | hother
    · exact ⟨item, List.mem_cons_self, state, between, hitem⟩
    · obtain ⟨found, hfound, hran⟩ := ih hrest value hother
      exact ⟨found, List.mem_cons_of_mem _ hfound, hran⟩

/-! ### Invariants -/

/-- From a state with the invariant the computation ends, if it ends in a value, in a state with the
invariant, and the value has the property. -/
def Keeps (invariant : σ → Prop) (computation : StateT σ (Except ε) α) (holds : α → Prop) : Prop :=
  ∀ state value final, invariant state → computation state = .ok (value, final) →
    invariant final ∧ holds value

section Keeps

variable {invariant : σ → Prop} {holds : α → Prop} {first : StateT σ (Except ε) α}

theorem Keeps.bind {second : α → StateT σ (Except ε) β} {after : β → Prop}
    (hfirst : Keeps invariant first holds)
    (hsecond : ∀ value, holds value → Keeps invariant (second value) after) :
    Keeps invariant (first >>= second) after := by
  intro state value final hstate hrun
  obtain ⟨middle, between, hmiddle, hrun⟩ := bind_eq_ok.mp hrun
  obtain ⟨hbetween, hvalue⟩ := hfirst state middle between hstate hmiddle
  exact hsecond middle hvalue between value final hbetween hrun

theorem Keeps.pure {value : α} (hvalue : holds value) :
    Keeps invariant (pure value : StateT σ (Except ε) α) holds := by
  intro state result final hstate hrun
  obtain ⟨rfl, rfl⟩ := pure_eq_ok.mp hrun
  exact ⟨hstate, hvalue⟩

theorem Keeps.throw {failure : ε} :
    Keeps invariant (throw failure : StateT σ (Except ε) α) holds :=
  fun _ _ _ _ hrun ↦ absurd hrun throw_ne_ok

theorem Keeps.raiseIf {condition : Prop} [Decidable condition] {failure : ε} :
    Keeps invariant (raiseIf condition failure : StateT σ (Except ε) Unit) fun _ ↦ ¬ condition := by
  intro state result final hstate hrun
  obtain ⟨hcondition, rfl⟩ := raiseIf_eq_ok.mp hrun
  exact ⟨hstate, hcondition⟩

theorem Keeps.get : Keeps invariant (get : StateT σ (Except ε) σ) invariant := by
  intro state result final hstate hrun
  obtain ⟨rfl, rfl⟩ := get_eq_ok.mp hrun
  exact ⟨hstate, hstate⟩

theorem Keeps.set {written : σ} (hwritten : invariant written) :
    Keeps invariant (set written : StateT σ (Except ε) PUnit) fun _ ↦ True := by
  intro state result final _ hrun
  obtain rfl := set_eq_ok.mp hrun
  exact ⟨hwritten, trivial⟩

theorem Keeps.modify {change : σ → σ} (hchange : ∀ state, invariant state → invariant (change state)) :
    Keeps invariant (modify change : StateT σ (Except ε) PUnit) fun _ ↦ True := by
  intro state result final hstate hrun
  obtain ⟨-, rfl⟩ := Prod.mk.inj (Except.ok.inj hrun)
  exact ⟨hchange state hstate, trivial⟩

theorem Keeps.mono {weaker : α → Prop} (hfirst : Keeps invariant first holds)
    (hweaker : ∀ value, holds value → weaker value) : Keeps invariant first weaker :=
  fun state value final hstate hrun ↦
    (hfirst state value final hstate hrun).imp_right (hweaker value)

/-- What every item of a traversal yields. -/
theorem Keeps.mapM {γ : Type} {items : List β} {action : β → StateT σ (Except ε) γ}
    {yields : γ → Prop} (haction : ∀ item ∈ items, Keeps invariant (action item) yields) :
    Keeps invariant (items.mapM action) fun values ↦ ∀ value ∈ values, yields value := by
  induction items with
  | nil => exact Keeps.pure nofun
  | cons item rest ih =>
    obtain ⟨hitem, hrest⟩ := List.forall_mem_cons.mp haction
    rw [List.mapM_cons]
    refine hitem.bind fun value hvalue ↦ (ih hrest).bind fun values hvalues ↦ Keeps.pure ?_
    exact List.forall_mem_cons.mpr ⟨hvalue, hvalues⟩

theorem Keeps.forM {items : List β} {action : β → StateT σ (Except ε) PUnit}
    (haction : ∀ item, Keeps invariant (action item) fun _ ↦ True) :
    Keeps invariant (items.forM action) fun _ ↦ True := by
  induction items with
  | nil => exact Keeps.pure trivial
  | cons item rest ih => exact (haction item).bind fun _ _ ↦ ih

end Keeps

/-! ### Failures that do not occur -/

/-- The computation does not stop with the failure. -/
def Avoids (failure : ε) (computation : StateT σ (Except ε) α) : Prop :=
  ∀ state, computation state ≠ .error failure

section Avoids

variable {failure : ε} {first : StateT σ (Except ε) α}

theorem Avoids.bind {second : α → StateT σ (Except ε) β} (hfirst : Avoids failure first)
    (hsecond : ∀ value, Avoids failure (second value)) : Avoids failure (first >>= second) := by
  intro state
  change (first state >>= fun pair ↦ second pair.1 pair.2) ≠ _
  cases hrun : first state with
  | error other =>
    have hother := hfirst state
    rw [hrun] at hother
    simpa [Bind.bind, Except.bind] using hother
  | ok pair => exact hsecond pair.1 pair.2

theorem Avoids.pure {value : α} : Avoids failure (pure value : StateT σ (Except ε) α) := by
  intro state hrun
  cases hrun

theorem Avoids.throw {other : ε} (hother : other ≠ failure) :
    Avoids failure (throw other : StateT σ (Except ε) α) := by
  intro state hrun
  exact hother (Except.error.inj hrun)

theorem Avoids.raiseIf {condition : Prop} [Decidable condition] {other : ε}
    (hother : other ≠ failure) :
    Avoids failure (raiseIf condition other : StateT σ (Except ε) Unit) := by
  unfold StateExcept.raiseIf
  split
  · exact Avoids.throw hother
  · exact Avoids.pure

/-- What follows a guard runs only where its condition fails. -/
theorem Avoids.raiseIf_bind {condition : Prop} [Decidable condition] {other : ε}
    {second : Unit → StateT σ (Except ε) β} (hother : other ≠ failure)
    (hsecond : ¬ condition → Avoids failure (second ())) :
    Avoids failure (StateExcept.raiseIf condition other >>= second) := by
  by_cases hcondition : condition
  · intro state hrun
    simp only [StateExcept.raiseIf, hcondition, if_true] at hrun
    exact hother (Except.error.inj hrun)
  · simp only [StateExcept.raiseIf, hcondition, if_false, pure_bind]
    exact hsecond hcondition

theorem Avoids.get : Avoids failure (get : StateT σ (Except ε) σ) := by
  intro state hrun
  cases hrun

theorem Avoids.set {written : σ} : Avoids failure (set written : StateT σ (Except ε) PUnit) := by
  intro state hrun
  cases hrun

theorem Avoids.forM {items : List β} {action : β → StateT σ (Except ε) PUnit}
    (haction : ∀ item, Avoids failure (action item)) : Avoids failure (items.forM action) := by
  induction items with
  | nil => exact Avoids.pure
  | cons item rest ih => exact (haction item).bind fun _ ↦ ih

end Avoids

/-! ### Weakest preconditions -/

/-- From the state the computation ends in a value and a state with the postcondition, or in a
failure that is allowed. -/
def Ensures (computation : StateT σ (Except ε) α) (state : σ) (post : α → σ → Prop)
    (allowed : ε → Prop) : Prop :=
  match computation state with
  | .ok (value, final) => post value final
  | .error failure => allowed failure

section Ensures

variable {computation first : StateT σ (Except ε) α} {state : σ} {post : α → σ → Prop}
  {allowed : ε → Prop}

/-- What a computation ensures, read from an outcome. -/
theorem Ensures.of_eq_ok {value : α} {final : σ} (hensures : Ensures computation state post allowed)
    (hrun : computation state = .ok (value, final)) : post value final := by
  unfold Ensures at hensures
  rwa [hrun] at hensures

/-- What a failed computation ensures. -/
theorem Ensures.of_eq_error {failure : ε} (hensures : Ensures computation state post allowed)
    (hrun : computation state = .error failure) : allowed failure := by
  unfold Ensures at hensures
  rw [hrun] at hensures
  exact hensures

@[simp] theorem ensures_pure {value : α} :
    Ensures (pure value : StateT σ (Except ε) α) state post allowed ↔ post value state :=
  Iff.rfl

@[simp] theorem ensures_throw {failure : ε} :
    Ensures (throw failure : StateT σ (Except ε) α) state post allowed ↔ allowed failure :=
  Iff.rfl

/-- A sequence ensures what its second part ensures after the first. -/
@[simp] theorem ensures_bind {second : α → StateT σ (Except ε) β} {after : β → σ → Prop} :
    Ensures (first >>= second) state after allowed ↔
      Ensures first state (fun value final ↦ Ensures (second value) final after allowed) allowed := by
  unfold Ensures
  change (match (first state >>= fun pair ↦ second pair.1 pair.2) with
    | .ok (value, final) => after value final
    | .error failure => allowed failure) ↔ _
  cases first state with
  | error failure => rfl
  | ok pair => rfl

@[simp] theorem ensures_get {after : σ → σ → Prop} :
    Ensures (get : StateT σ (Except ε) σ) state after allowed ↔ after state state :=
  Iff.rfl

@[simp] theorem ensures_set {written : σ} {after : PUnit → σ → Prop} :
    Ensures (set written : StateT σ (Except ε) PUnit) state after allowed ↔ after ⟨⟩ written :=
  Iff.rfl

@[simp] theorem ensures_modify {change : σ → σ} {after : PUnit → σ → Prop} :
    Ensures (modify change : StateT σ (Except ε) PUnit) state after allowed ↔
      after ⟨⟩ (change state) :=
  Iff.rfl

@[simp] theorem ensures_raiseIf {condition : Prop} [Decidable condition] {failure : ε}
    {after : Unit → σ → Prop} :
    Ensures (raiseIf condition failure : StateT σ (Except ε) Unit) state after allowed ↔
      if condition then allowed failure else after () state := by
  unfold raiseIf
  split_ifs
  · exact Iff.rfl
  · exact Iff.rfl

/-- A computation without state ensures what its outcome says. -/
theorem ensures_liftM {outcome : Except ε α} :
    Ensures (liftM outcome : StateT σ (Except ε) α) state post allowed ↔
      match outcome with
      | .ok value => post value state
      | .error failure => allowed failure := by
  cases outcome with
  | error failure => exact Iff.rfl
  | ok value => exact Iff.rfl

/-- A branch ensures what both its parts ensure where they run. -/
theorem ensures_ite {condition : Prop} [Decidable condition] {second : StateT σ (Except ε) α} :
    Ensures (if condition then first else second) state post allowed ↔
      (condition → Ensures first state post allowed) ∧
        (¬ condition → Ensures second state post allowed) := by
  by_cases hcondition : condition
  · rw [if_pos hcondition]
    exact ⟨fun hfirst ↦ ⟨fun _ ↦ hfirst, fun hnot ↦ absurd hcondition hnot⟩, fun h ↦ h.1 hcondition⟩
  · rw [if_neg hcondition]
    exact ⟨fun hsecond ↦ ⟨fun hyes ↦ absurd hyes hcondition, fun _ ↦ hsecond⟩, fun h ↦ h.2 hcondition⟩

/-- A weaker postcondition is ensured as well. -/
theorem Ensures.mono {weaker : α → σ → Prop} {wider : ε → Prop}
    (hensures : Ensures computation state post allowed)
    (hpost : ∀ value final, post value final → weaker value final)
    (hallowed : ∀ failure, allowed failure → wider failure) :
    Ensures computation state weaker wider := by
  unfold Ensures at *
  cases hrun : computation state with
  | error failure =>
    rw [hrun] at hensures
    exact hallowed failure hensures
  | ok pair =>
    rw [hrun] at hensures
    exact hpost pair.1 pair.2 hensures

/-- What holds of the items that are left, and is kept by the action on the next item, holds of none
at the end of the loop. -/
theorem Ensures.forM {action : β → StateT σ (Except ε) PUnit} (invariant : List β → σ → Prop)
    (hstep : ∀ item rest state, invariant (item :: rest) state →
      Ensures (action item) state (fun _ final ↦ invariant rest final) allowed)
    {items : List β} (hstart : invariant items state) :
    Ensures (items.forM action) state (fun _ final ↦ invariant [] final) allowed := by
  induction items generalizing state with
  | nil => exact hstart
  | cons item rest ih =>
    change Ensures (action item >>= fun _ ↦ rest.forM action) state _ allowed
    rw [ensures_bind]
    exact (hstep item rest state hstart).mono (fun _ _ hrest ↦ ih hrest) fun _ hfailed ↦ hfailed

/-- What holds of the items so far and the value, and is kept by the next item, holds of all items at
the end of the loop. -/
theorem Ensures.foldlM {γ : Type} {step : γ → β → StateT σ (Except ε) γ}
    (invariant : List β → γ → σ → Prop)
    (hstep : ∀ before item value state, invariant before value state →
      Ensures (step value item) state (fun next final ↦ invariant (before ++ [item]) next final)
        allowed)
    {items before : List β} {value : γ} (hstart : invariant before value state) :
    Ensures (items.foldlM step value) state
      (fun last final ↦ invariant (before ++ items) last final) allowed := by
  induction items generalizing before value state with
  | nil =>
    rw [List.append_nil]
    exact hstart
  | cons item rest ih =>
    rw [List.foldlM_cons, ensures_bind]
    refine (hstep before item value state hstart).mono (fun next final hnext ↦ ?_) fun _ h ↦ h
    have hrest := ih hnext
    rwa [List.append_assoc] at hrest

end Ensures

end Ads.Foundation.StateExcept
