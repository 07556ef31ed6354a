import Ads.Foundation.Interrupted

/-!
# Programs amid the doings of others

A program takes its operations one at a time. Before each of them others may change the state, and
the operation itself is done or fails, with its effect or without it. What happens around the
operations is the future of the run, that the program does not choose. `Relies` is the triple of a
program in such surroundings: the changes of others keep what it relies on, and it guarantees what
holds when it returns and what holds wherever it stops.
-/

set_option autoImplicit false
set_option relaxedAutoImplicit false

namespace Ads.Foundation.Disturbed

open StateExcept Interrupted Interrupted.Program

variable {σ δ ε α β : Type}

/-- How an operation ends. -/
inductive Fate (ε : Type) where
  | done
  /-- It fails, with its effect or without it. -/
  | failed (performed : Bool) (failure : ε)

/-- What happens around one operation: what others do before it, and how it ends. -/
structure Moment (δ ε : Type) where
  changes : List δ
  fate : Fate ε

/-- A state and the moments of its next operations. -/
structure Amid (σ δ ε : Type) where
  state : σ
  future : ℕ → Moment δ ε

section Operations

variable (change : σ → δ → σ)

/-- The state in which the next operation finds itself. -/
def Amid.met (amid : Amid σ δ ε) : Amid σ δ ε where
  state := (amid.future 0).changes.foldl change amid.state
  future := fun moment ↦ amid.future (moment + 1)

/-- One operation. -/
def operate (effect : StateT σ (Except ε) α) : Program (Amid σ δ ε) ε α := fun amid ↦
  let met := amid.met change
  match (amid.future 0).fate, effect met.state with
  | .failed false failure, _ => (.error failure, met)
  | .failed true failure, .error _ => (.error failure, met)
  | .failed true failure, .ok (_, state) => (.error failure, { met with state := state })
  | .done, .error failure => (.error failure, met)
  | .done, .ok (value, state) => (.ok value, { met with state := state })

end Operations

/-! ### Assertions -/

variable {change : σ → δ → σ} {allowed : Moment δ ε → Prop} {holds before after : σ → Prop}
  {post middle : α → σ → Prop} {stopped : σ → Prop}

/-- All that is to happen is allowed, and the state meets an assertion. -/
structure During (allowed : Moment δ ε → Prop) (holds : σ → Prop) (amid : Amid σ δ ε) : Prop where
  future : ∀ moment, allowed (amid.future moment)
  state : holds amid.state

/-- Nothing that is allowed to happen before an operation breaks the assertion. -/
def Stable (change : σ → δ → σ) (allowed : Moment δ ε → Prop) (holds : σ → Prop) : Prop :=
  ∀ state moment, allowed moment → holds state → holds (moment.changes.foldl change state)

/-- What each change keeps is stable. -/
theorem stable_of_change (permitted : δ → Prop)
    (hallowed : ∀ moment, allowed moment → ∀ disturbance ∈ moment.changes, permitted disturbance)
    (hchange : ∀ state disturbance, permitted disturbance → holds state →
      holds (change state disturbance)) : Stable change allowed holds := by
  intro state moment hmoment hstate
  have hpermitted := hallowed moment hmoment
  generalize moment.changes = changes at hpermitted ⊢
  induction changes generalizing state with
  | nil => exact hstate
  | cons disturbance rest ih =>
    exact ih _ (hchange state disturbance (hpermitted disturbance List.mem_cons_self) hstate)
      fun other hother ↦ hpermitted other (List.mem_cons_of_mem _ hother)

/-- From what it relies on, a program guarantees what holds when it returns and wherever it stops. -/
def Relies (allowed : Moment δ ε → Prop) (before : σ → Prop) (program : Program (Amid σ δ ε) ε α)
    (post : α → σ → Prop) (stopped : σ → Prop) : Prop :=
  ∀ amid, During allowed before amid →
    Leaves program amid (fun value ↦ During allowed (post value)) fun _ ↦ During allowed stopped

namespace Relies

/-- A program that relies on less and guarantees more. -/
theorem mono {program : Program (Amid σ δ ε) ε α} {weaker : α → σ → Prop} {wider : σ → Prop}
    (hprogram : Relies allowed before program post stopped) (hbefore : ∀ state, holds state → before state)
    (hpost : ∀ value state, post value state → weaker value state)
    (hstopped : ∀ state, stopped state → wider state) :
    Relies allowed holds program weaker wider := by
  intro amid hamid
  refine (hprogram amid ⟨hamid.future, hbefore _ hamid.state⟩).mono (fun value final hfinal ↦ ?_)
    fun _ final hfinal ↦ ?_
  · exact ⟨hfinal.future, hpost value _ hfinal.state⟩
  · exact ⟨hfinal.future, hstopped _ hfinal.state⟩

/-- The same program where more is known before. -/
theorem relyingOn (known : σ → Prop) {program : Program (Amid σ δ ε) ε α}
    (hprogram : Relies allowed known program post stopped)
    (hknown : ∀ state, before state → known state) : Relies allowed before program post stopped :=
  hprogram.mono hknown (fun _ _ h ↦ h) fun _ h ↦ h

/-- The same program with less promised of what it returns. -/
theorem weaken {program : Program (Amid σ δ ε) ε α} {weaker : α → σ → Prop}
    (hprogram : Relies allowed before program post stopped)
    (hpost : ∀ value state, post value state → weaker value state) :
    Relies allowed before program weaker stopped :=
  hprogram.mono (fun _ h ↦ h) hpost fun _ h ↦ h

theorem pure {value : α} (hpost : ∀ state, before state → post value state) :
    Relies allowed before (pure value : Program (Amid σ δ ε) ε α) post stopped :=
  fun _ hamid ↦ ⟨hamid.future, hpost _ hamid.state⟩

theorem throw {failure : ε} (hstopped : ∀ state, before state → stopped state) :
    Relies allowed before (throw failure : Program (Amid σ δ ε) ε α) post stopped :=
  fun _ hamid ↦ ⟨hamid.future, hstopped _ hamid.state⟩

theorem bind {first : Program (Amid σ δ ε) ε α} {second : α → Program (Amid σ δ ε) ε β}
    {last : β → σ → Prop} (hfirst : Relies allowed before first middle stopped)
    (hsecond : ∀ value, Relies allowed (middle value) (second value) last stopped) :
    Relies allowed before (first >>= second) last stopped :=
  fun amid hamid ↦ (hfirst amid hamid).bind fun value next hnext ↦ hsecond value next hnext

/-- A sequence with what holds between its parts. -/
theorem bindAt (between : α → σ → Prop) {first : Program (Amid σ δ ε) ε α}
    {second : α → Program (Amid σ δ ε) ε β} {last : β → σ → Prop}
    (hfirst : Relies allowed before first between stopped)
    (hsecond : ∀ value, Relies allowed (between value) (second value) last stopped) :
    Relies allowed before (first >>= second) last stopped :=
  hfirst.bind hsecond

/-- A failure is caught in the state in which the body stops. -/
theorem tryCatch (caught : σ → Prop) {body : Program (Amid σ δ ε) ε α}
    {handler : ε → Program (Amid σ δ ε) ε α} (hbody : Relies allowed before body post caught)
    (hhandler : ∀ failure, Relies allowed caught (handler failure) post stopped) :
    Relies allowed before (tryCatch body handler) post stopped :=
  fun amid hamid ↦ leaves_tryCatch.mpr ((hbody amid hamid).mono (fun _ _ h ↦ h)
    fun failure next hnext ↦ hhandler failure next hnext)

theorem evaluate {computation : Except ε α}
    (hpost : ∀ value state, computation = .ok value → before state → post value state)
    (hstopped : ∀ failure state, computation = .error failure → before state → stopped state) :
    Relies allowed before (Program.evaluate computation) post stopped :=
  fun _ hamid ↦ leaves_evaluate.mpr
    ⟨fun value hvalue ↦ ⟨hamid.future, hpost value _ hvalue hamid.state⟩,
      fun failure hfailure ↦ ⟨hamid.future, hstopped failure _ hfailure hamid.state⟩⟩

/-- A fact that does not depend on the state may be taken out of what is relied on. -/
theorem of_fact {fact : Prop} {program : Program (Amid σ δ ε) ε α}
    (hprogram : fact → Relies allowed before program post stopped) :
    Relies allowed (fun state ↦ fact ∧ before state) program post stopped :=
  fun amid hamid ↦ hprogram hamid.state.1 amid ⟨hamid.future, hamid.state.2⟩

/-- What holds for some value may be relied on for each. -/
theorem of_exists {γ : Type} {known : γ → σ → Prop} {program : Program (Amid σ δ ε) ε α}
    (hprogram : ∀ value, Relies allowed (known value) program post stopped) :
    Relies allowed (fun state ↦ ∃ value, known value state) program post stopped := by
  intro amid hamid
  obtain ⟨value, hvalue⟩ := hamid.state
  exact hprogram value amid ⟨hamid.future, hvalue⟩

/-- Renaming failures changes nothing else. -/
theorem withError {rename : ε → ε} {program : Program (Amid σ δ ε) ε α}
    (hprogram : Relies allowed before program post stopped) :
    Relies allowed before (Program.withError rename program) post stopped :=
  fun amid hamid ↦ leaves_withError.mpr (hprogram amid hamid)

/-- What each round keeps is kept by the loop. -/
theorem forM {action : β → Program (Amid σ δ ε) ε PUnit} {items : List β}
    (haction : ∀ item, Relies allowed before (action item) (fun _ ↦ before) stopped) :
    Relies allowed before (items.forM action) (fun _ ↦ before) stopped :=
  fun _ hamid ↦ Leaves.forM (fun _ ↦ During allowed before)
    (fun item _ amid hrest ↦ haction item amid hrest) hamid

/-- An operation that finds what is relied on. -/
theorem operate {effect : StateT σ (Except ε) α} (hstable : Stable change allowed before)
    (hstopped : ∀ state, before state → stopped state)
    (heffect : ∀ state value next, before state → effect state = .ok (value, next) →
      post value next ∧ stopped next) :
    Relies allowed before (operate change effect) post stopped := by
  intro amid hamid
  have hmet : before (amid.met change).state :=
    hstable amid.state _ (hamid.future 0) hamid.state
  have hfuture : ∀ moment, allowed ((amid.met change).future moment) :=
    fun moment ↦ hamid.future (moment + 1)
  unfold Leaves Disturbed.operate
  cases hfate : (amid.future 0).fate with
  | failed performed failure =>
    cases performed with
    | false => exact ⟨hfuture, hstopped _ hmet⟩
    | true =>
      cases hrun : effect (amid.met change).state with
      | error other => simpa [hrun] using ⟨hfuture, hstopped _ hmet⟩
      | ok outcome =>
        simpa [hrun] using ⟨hfuture, (heffect _ outcome.1 outcome.2 hmet hrun).2⟩
  | done =>
    cases hrun : effect (amid.met change).state with
    | error other => simpa [hrun] using ⟨hfuture, hstopped _ hmet⟩
    | ok outcome => simpa [hrun] using ⟨hfuture, (heffect _ outcome.1 outcome.2 hmet hrun).1⟩

end Relies

end Ads.Foundation.Disturbed
