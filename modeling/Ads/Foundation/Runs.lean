import Mathlib.Data.List.Induction

/-!
# Runs of a machine with effects

A machine takes one input at a time, moves to another state and has some effects. A run takes its
inputs in order. What holds at the start of a run and is kept by every step holds at its end
(`run_induction`), and what a step brings about of something that later steps keep lasts
(`run_persists`). `Along` says of a trace that each of its events is in order given what came before
it, `Since` that what one of its events began still lasts.
-/

set_option autoImplicit false
set_option relaxedAutoImplicit false

namespace Ads.Foundation.Runs

variable {σ ι ε : Type} (step : σ → ι → σ × List ε)

/-- The state and the effects after some inputs from a state. -/
def runFrom (state : σ) : List ι → σ × List ε
  | [] => (state, [])
  | input :: rest =>
    let (next, effects) := step state input
    let (last, later) := runFrom next rest
    (last, effects ++ later)

variable {step} {state : σ}

@[simp] theorem runFrom_nil : runFrom step state [] = (state, []) :=
  rfl

theorem runFrom_cons (input : ι) (rest : List ι) :
    runFrom step state (input :: rest) =
      ((runFrom step (step state input).1 rest).1,
        (step state input).2 ++ (runFrom step (step state input).1 rest).2) :=
  rfl

/-- A run in two parts. -/
theorem runFrom_append (first second : List ι) :
    runFrom step state (first ++ second) =
      ((runFrom step (runFrom step state first).1 second).1,
        (runFrom step state first).2 ++ (runFrom step (runFrom step state first).1 second).2) := by
  induction first generalizing state with
  | nil => rfl
  | cons input rest ih =>
    rw [List.cons_append, runFrom_cons, ih, runFrom_cons]
    exact Prod.ext rfl (List.append_assoc _ _ _).symm

/-- A run with one more input. -/
theorem runFrom_snoc (inputs : List ι) (input : ι) :
    runFrom step state (inputs ++ [input]) =
      ((step (runFrom step state inputs).1 input).1,
        (runFrom step state inputs).2 ++ (step (runFrom step state inputs).1 input).2) := by
  rw [runFrom_append, runFrom_cons, runFrom_nil, List.append_nil]

/-- What holds before the first input and is kept by every step holds after the run. -/
theorem run_induction (invariant : List ι → σ → List ε → Prop) (hstart : invariant [] state [])
    (hstep : ∀ inputs input before effects, invariant inputs before effects →
      invariant (inputs ++ [input]) (step before input).1 (effects ++ (step before input).2))
    (inputs : List ι) :
    invariant inputs (runFrom step state inputs).1 (runFrom step state inputs).2 := by
  induction inputs using List.reverseRecOn with
  | nil => exact hstart
  | append_singleton inputs input ih =>
    rw [runFrom_snoc]
    exact hstep inputs input _ _ ih

/-- What holds of a state and is kept by every step of the run holds after it. -/
theorem run_persists (holds : σ → Prop) (hstart : holds state) (inputs : List ι)
    (hstep : ∀ before, ∀ input ∈ inputs, holds before → holds (step before input).1) :
    holds (runFrom step state inputs).1 := by
  induction inputs generalizing state with
  | nil => exact hstart
  | cons input rest ih =>
    rw [runFrom_cons]
    exact ih (hstep state input List.mem_cons_self hstart)
      fun before later hlater ↦ hstep before later (List.mem_cons_of_mem _ hlater)

/-! ### Traces -/

/-- Every event of a trace is in order given the events before it. -/
def Along (holds : List ε → ε → Prop) (trace : List ε) : Prop :=
  ∀ before event after, trace = before ++ event :: after → holds before event

variable {holds : List ε → ε → Prop} {trace : List ε}

/-- The empty trace is in order. -/
theorem Along.nil : Along holds [] := by
  intro before event after hsplit
  cases (List.append_eq_nil_iff.mp hsplit.symm).2

/-- A trace with one more event is cut at that event or before it. -/
theorem snoc_eq_append_cons {before after : List ε} {event last : ε}
    (hsplit : trace ++ [last] = before ++ event :: after) :
    (before = trace ∧ event = last ∧ after = []) ∨
      ∃ rest, after = rest ++ [last] ∧ trace = before ++ event :: rest := by
  rcases List.eq_nil_or_concat after with rfl | ⟨rest, other, rfl⟩
  · obtain ⟨rfl, hlast⟩ := List.append_inj' hsplit rfl
    exact Or.inl ⟨rfl, (List.cons.inj hlast).1.symm, rfl⟩
  · rw [List.concat_eq_append, ← List.cons_append, ← List.append_assoc] at hsplit
    obtain ⟨rfl, hlast⟩ := List.append_inj' hsplit rfl
    obtain rfl : last = other := by simpa using hlast
    exact Or.inr ⟨rest, List.concat_eq_append, rfl⟩

/-- One more event. -/
theorem Along.snoc {event : ε} (htrace : Along holds trace) (hevent : holds trace event) :
    Along holds (trace ++ [event]) := by
  intro before other after hsplit
  rcases snoc_eq_append_cons hsplit with ⟨rfl, rfl, -⟩ | ⟨rest, -, hrest⟩
  · exact hevent
  · exact htrace before other rest hrest

/-- The start of a trace that is in order is in order. -/
theorem Along.of_append {later : List ε} (htrace : Along holds (trace ++ later)) :
    Along holds trace := by
  intro before event after hsplit
  exact htrace before event (after ++ later) (by rw [hsplit, List.append_assoc, List.cons_append])

/-- The first event has happened, and no event after it ended what it began. -/
def Since (ends : ε → Prop) (trace : List ε) (first : ε) : Prop :=
  ∃ before after, trace = before ++ first :: after ∧ ∀ later ∈ after, ¬ ends later

variable {ends : ε → Prop} {first : ε}

/-- What lasts since an event has begun with it. -/
theorem Since.mem (hsince : Since ends trace first) : first ∈ trace := by
  obtain ⟨before, after, rfl, -⟩ := hsince
  simp

/-- What lasts after one more event began with that event, or was not ended by it. -/
theorem since_snoc {event : ε} :
    Since ends (trace ++ [event]) first ↔
      first = event ∨ (¬ ends event ∧ Since ends trace first) := by
  constructor
  · rintro ⟨before, after, hsplit, hkept⟩
    rcases snoc_eq_append_cons hsplit with ⟨-, hfirst, -⟩ | ⟨rest, rfl, hrest⟩
    · exact Or.inl hfirst
    · exact Or.inr ⟨hkept event (by simp), before, rest, hrest,
        fun later hlater ↦ hkept later (List.mem_append_left _ hlater)⟩
  · rintro (rfl | ⟨hevent, before, after, rfl, hkept⟩)
    · exact ⟨trace, [], rfl, by simp⟩
    · refine ⟨before, after ++ [event], by simp, fun later hlater ↦ ?_⟩
      rcases List.mem_append.mp hlater with hold | hnew
      · exact hkept later hold
      · rw [List.mem_singleton.mp hnew]
        exact hevent

end Ads.Foundation.Runs
