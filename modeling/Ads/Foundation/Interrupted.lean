import Ads.Foundation.StateExcept

/-!
# Programs that may stop

A program on a store that outlives it stops with a failure or with the end of its process, and what
it has written by then stays. `Leaves` is the weakest precondition of what holds when the program
returns a value and what holds when it stops, with a rule for each way to build a program. A
transaction writes all or nothing (`leaves_transaction`), so a program that keeps an invariant
transaction by transaction keeps it wherever it stops (`Stable`).
-/

set_option autoImplicit false
set_option relaxedAutoImplicit false

namespace Ads.Foundation.Interrupted

open StateExcept

variable {σ τ ε α β : Type}

/-- A program on a state that outlives it. -/
def Program (σ ε α : Type) : Type :=
  σ → Except ε α × σ

namespace Program

instance : Monad (Program σ ε) where
  pure value := fun state ↦ (.ok value, state)
  bind first second := fun state ↦
    match first state with
    | (.ok value, next) => second value next
    | (.error failure, next) => (.error failure, next)

instance : MonadExceptOf ε (Program σ ε) where
  throw failure := fun state ↦ (.error failure, state)
  tryCatch body handler := fun state ↦
    match body state with
    | (.ok value, next) => (.ok value, next)
    | (.error failure, next) => handler failure next

instance : MonadStateOf σ (Program σ ε) where
  get := fun state ↦ (.ok state, state)
  set next := fun _ ↦ (.ok ⟨⟩, next)
  modifyGet change := fun state ↦ (.ok (change state).1, (change state).2)

/-- The state. -/
def current : Program σ ε σ :=
  fun state ↦ (.ok state, state)

/-- A computation without state as a program. -/
def evaluate (computation : Except ε α) : Program σ ε α :=
  fun state ↦ (computation, state)

/-- A program with its failures named in another way. -/
def withError {ε' : Type} (rename : ε → ε') (program : Program σ ε α) : Program σ ε' α :=
  fun state ↦ ((program state).1.mapError rename, (program state).2)

/-- A transaction on a part of the state. It writes what its body has written, or nothing. -/
def transaction (view : σ → τ) (update : τ → σ → σ) (body : StateT τ (Except ε) α) :
    Program σ ε α :=
  fun state ↦
    match body (view state) with
    | .ok (value, written) => (.ok value, update written state)
    | .error failure => (.error failure, state)

end Program

open Program

/-! ### Runs -/

section Runs

variable {first : Program σ ε α} {second : α → Program σ ε β} {state next : σ}

/-- A sequence whose first part returns runs its second part. -/
theorem bind_of_ok {value : α} (hfirst : first state = (.ok value, next)) :
    (first >>= second) state = second value next := by
  simp [Bind.bind, hfirst]

/-- A sequence whose first part stops stops there. -/
theorem bind_of_error {failure : ε} (hfirst : first state = (.error failure, next)) :
    (first >>= second) state = (.error failure, next) := by
  simp [Bind.bind, hfirst]

/-- A sequence returns when its first part returns and its second part then returns. -/
theorem bind_run_eq_ok {value : β} {final : σ} :
    (first >>= second) state = (.ok value, final) ↔
      ∃ between middle, first state = (.ok between, middle) ∧
        second between middle = (.ok value, final) := by
  simp only [Bind.bind]
  cases hfirst : first state with
  | mk outcome middle =>
    cases outcome with
    | error failure => simp
    | ok between => simp

@[simp] theorem pure_run_eq_ok {value result : α} {final : σ} :
    (pure value : Program σ ε α) state = (.ok result, final) ↔ value = result ∧ state = final := by
  simp [Pure.pure]

@[simp] theorem throw_run_ne_ok {failure : ε} {result : α} {final : σ} :
    (throw failure : Program σ ε α) state ≠ (.ok result, final) := by
  simp [throw, throwThe, MonadExceptOf.throw]

variable {view : σ → τ} {update : τ → σ → σ} {body : StateT τ (Except ε) α}

/-- A transaction whose body returns writes. -/
theorem transaction_of_ok {value : α} {written : τ} (hbody : body (view state) = .ok (value, written)) :
    transaction view update body state = (.ok value, update written state) := by
  simp [transaction, hbody]

/-- A transaction whose body fails writes nothing. -/
theorem transaction_of_error {failure : ε} (hbody : body (view state) = .error failure) :
    transaction view update body state = (.error failure, state) := by
  simp [transaction, hbody]

end Runs

/-! ### What a program leaves -/

/-- From the state, the program returns with `post` or stops with `stopped`. -/
def Leaves (program : Program σ ε α) (state : σ) (post : α → σ → Prop) (stopped : ε → σ → Prop) :
    Prop :=
  match program state with
  | (.ok value, final) => post value final
  | (.error failure, final) => stopped failure final

variable {program first : Program σ ε α} {state final : σ} {post : α → σ → Prop}
  {stopped : ε → σ → Prop}

/-- What a program leaves when it returns. -/
theorem Leaves.of_ok {value : α} (hleaves : Leaves program state post stopped)
    (hrun : program state = (.ok value, final)) : post value final := by
  unfold Leaves at hleaves
  rwa [hrun] at hleaves

/-- What a program leaves when it stops. -/
theorem Leaves.of_error {failure : ε} (hleaves : Leaves program state post stopped)
    (hrun : program state = (.error failure, final)) : stopped failure final := by
  unfold Leaves at hleaves
  rwa [hrun] at hleaves

/-- What a program leaves is what holds at either end. -/
theorem leaves_of (hpost : ∀ value final, program state = (.ok value, final) → post value final)
    (hstopped : ∀ failure final, program state = (.error failure, final) → stopped failure final) :
    Leaves program state post stopped := by
  unfold Leaves
  split
  · exact hpost _ _ (by assumption)
  · exact hstopped _ _ (by assumption)

/-- What holds of the last state is left either way. -/
theorem leaves_final {holds : σ → Prop} (hholds : holds (program state).2) :
    Leaves program state (fun _ final ↦ holds final) fun _ final ↦ holds final := by
  refine leaves_of (fun _ final hrun ↦ ?_) fun _ final hrun ↦ ?_
  · rwa [hrun] at hholds
  · rwa [hrun] at hholds

@[simp] theorem leaves_pure {value : α} :
    Leaves (pure value : Program σ ε α) state post stopped ↔ post value state :=
  Iff.rfl

@[simp] theorem leaves_throw {failure : ε} :
    Leaves (throw failure : Program σ ε α) state post stopped ↔ stopped failure state :=
  Iff.rfl

@[simp] theorem leaves_get {after : σ → σ → Prop} :
    Leaves (get : Program σ ε σ) state after stopped ↔ after state state :=
  Iff.rfl

@[simp] theorem leaves_current {after : σ → σ → Prop} :
    Leaves (current : Program σ ε σ) state after stopped ↔ after state state :=
  Iff.rfl

@[simp] theorem leaves_set {written : σ} {after : PUnit → σ → Prop} :
    Leaves (set written : Program σ ε PUnit) state after stopped ↔ after ⟨⟩ written :=
  Iff.rfl

@[simp] theorem leaves_modify {change : σ → σ} {after : PUnit → σ → Prop} :
    Leaves (modify change : Program σ ε PUnit) state after stopped ↔ after ⟨⟩ (change state) :=
  Iff.rfl

@[simp] theorem leaves_evaluate {computation : Except ε α} :
    Leaves (evaluate computation : Program σ ε α) state post stopped ↔
      (∀ value, computation = .ok value → post value state) ∧
        ∀ failure, computation = .error failure → stopped failure state := by
  cases computation with
  | error failure => simp [Leaves, evaluate]
  | ok value => simp [Leaves, evaluate]

/-- A sequence leaves what its second part leaves after the first, or what the first leaves when it
stops. -/
@[simp] theorem leaves_bind {second : α → Program σ ε β} {after : β → σ → Prop} :
    Leaves (first >>= second) state after stopped ↔
      Leaves first state (fun value next ↦ Leaves (second value) next after stopped) stopped := by
  unfold Leaves
  simp only [Bind.bind]
  cases hrun : first state with
  | mk outcome next =>
    cases outcome with
    | error failure => rfl
    | ok value => rfl

/-- A failure that is caught goes on with its handler, in the state in which the body stopped. -/
theorem leaves_tryCatch {handler : ε → Program σ ε α} :
    Leaves (tryCatch program handler) state post stopped ↔
      Leaves program state post fun failure next ↦ Leaves (handler failure) next post stopped := by
  unfold Leaves
  simp only [tryCatch, tryCatchThe, MonadExceptOf.tryCatch]
  cases hrun : program state with
  | mk outcome next =>
    cases outcome with
    | error failure => rfl
    | ok value => rfl

/-- Renaming failures renames what is left when the program stops. -/
@[simp] theorem leaves_withError {ε' : Type} {rename : ε → ε'} {stopped : ε' → σ → Prop} :
    Leaves (withError rename program) state post stopped ↔
      Leaves program state post fun failure final ↦ stopped (rename failure) final := by
  unfold Leaves withError
  cases hrun : program state with
  | mk outcome final =>
    cases outcome with
    | error failure => rfl
    | ok value => rfl

/-- A branch leaves what both its parts leave where they run. -/
theorem leaves_ite {condition : Prop} [Decidable condition] {second : Program σ ε α} :
    Leaves (if condition then first else second) state post stopped ↔
      (condition → Leaves first state post stopped) ∧
        (¬ condition → Leaves second state post stopped) := by
  by_cases hcondition : condition
  · simp [hcondition]
  · simp [hcondition]

/-- A transaction leaves what its body has written, or the state as it was. -/
theorem leaves_transaction {view : σ → τ} {update : τ → σ → σ} {body : StateT τ (Except ε) α} :
    Leaves (transaction view update body) state post stopped ↔
      (∀ value written, body (view state) = .ok (value, written) →
        post value (update written state)) ∧
      ∀ failure, body (view state) = .error failure → stopped failure state := by
  unfold Leaves transaction
  cases hbody : body (view state) with
  | error failure => simp
  | ok outcome =>
    obtain ⟨value, written⟩ := outcome
    simp

/-- What is left is left a fortiori in a weaker form. -/
theorem Leaves.mono {weaker : α → σ → Prop} {wider : ε → σ → Prop}
    (hleaves : Leaves program state post stopped)
    (hpost : ∀ value final, post value final → weaker value final)
    (hstopped : ∀ failure final, stopped failure final → wider failure final) :
    Leaves program state weaker wider :=
  leaves_of (fun value final hrun ↦ hpost value final (hleaves.of_ok hrun))
    fun failure final hrun ↦ hstopped failure final (hleaves.of_error hrun)

/-- A weaker form of what a sequence leaves, part by part. -/
theorem Leaves.bind {middle : α → σ → Prop} {second : α → Program σ ε β} {after : β → σ → Prop}
    (hfirst : Leaves first state middle stopped)
    (hsecond : ∀ value next, middle value next → Leaves (second value) next after stopped) :
    Leaves (first >>= second) state after stopped :=
  leaves_bind.mpr (hfirst.mono hsecond fun _ _ h ↦ h)

/-- What a program leaves when it returns is left by the run that returns it. -/
theorem Leaves.run (hleaves : Leaves program state post stopped) :
    Leaves program state (fun value final ↦ post value final ∧ program state = (.ok value, final))
      stopped :=
  leaves_of (fun _ _ hrun ↦ ⟨hleaves.of_ok hrun, hrun⟩) fun _ _ hrun ↦ hleaves.of_error hrun

/-- What holds of the items that are left, and is kept by the action on the next item, holds of none
at the end of the loop. -/
theorem Leaves.forM {action : β → Program σ ε PUnit} (invariant : List β → σ → Prop)
    (hstep : ∀ item rest state, invariant (item :: rest) state →
      Leaves (action item) state (fun _ final ↦ invariant rest final) stopped)
    {items : List β} (hstart : invariant items state) :
    Leaves (items.forM action) state (fun _ final ↦ invariant [] final) stopped := by
  induction items generalizing state with
  | nil => exact hstart
  | cons item rest ih =>
    exact (hstep item rest state hstart).bind fun _ next hrest ↦ ih hrest

/-! ### Invariants -/

/-- The program keeps the invariant, whether it returns or stops. -/
def Stable (invariant : σ → Prop) (program : Program σ ε α) : Prop :=
  ∀ state, invariant state →
    Leaves program state (fun _ final ↦ invariant final) fun _ final ↦ invariant final

variable {invariant : σ → Prop}

/-- The state after a program that keeps an invariant. -/
theorem Stable.kept (hstable : Stable invariant program) (hstate : invariant state) :
    invariant (program state).2 := by
  have hleaves := hstable state hstate
  unfold Leaves at hleaves
  split at hleaves <;> simp_all

theorem Stable.pure {value : α} : Stable invariant (pure value : Program σ ε α) :=
  fun _ hstate ↦ hstate

theorem Stable.throw {failure : ε} : Stable invariant (throw failure : Program σ ε α) :=
  fun _ hstate ↦ hstate

theorem Stable.get : Stable invariant (get : Program σ ε σ) :=
  fun _ hstate ↦ hstate

theorem Stable.evaluate {computation : Except ε α} :
    Stable invariant (evaluate computation : Program σ ε α) :=
  fun _ hstate ↦ leaves_evaluate.mpr ⟨fun _ _ ↦ hstate, fun _ _ ↦ hstate⟩

theorem Stable.bind {second : α → Program σ ε β} (hfirst : Stable invariant first)
    (hsecond : ∀ value, Stable invariant (second value)) : Stable invariant (first >>= second) :=
  fun state hstate ↦ (hfirst state hstate).bind fun value next hnext ↦ hsecond value next hnext

theorem Stable.ite {condition : Prop} [Decidable condition] {second : Program σ ε α}
    (hfirst : Stable invariant first) (hsecond : Stable invariant second) :
    Stable invariant (if condition then first else second) := by
  split_ifs
  · exact hfirst
  · exact hsecond

theorem Stable.forM {action : β → Program σ ε PUnit} {items : List β}
    (haction : ∀ item, Stable invariant (action item)) : Stable invariant (items.forM action) :=
  fun _ hstate ↦ Leaves.forM (fun _ ↦ invariant) (fun item _ state h ↦ haction item state h) hstate

end Ads.Foundation.Interrupted
