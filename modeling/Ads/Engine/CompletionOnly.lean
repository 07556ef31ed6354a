import Ads.Engine.Executor
import Ads.Foundation.Runs

/-!
# Completion-only mode

What the deeds of a run of the executor are, however the model, the tools, the services and the
consumer behave. Every deed is in order (`IsOrderly`): no tool is invoked and no memory is recalled
once the run is in completion-only mode, the model answers at most once in this mode, a call is
published only if the model made it outside of this mode, and no result is published but for a call
that has none. `Progress` is the invariant: which calls of the last step are not published yet, and
which have no result. At the end of every step there are none.

The calls that the model makes in completion-only mode are ignored: they are not published and have
no result.
-/

set_option autoImplicit false
set_option relaxedAutoImplicit false

namespace Ads.Engine.Executor

open Context Context.Recall Foundation.Interrupted Foundation.Interrupted.Program Foundation.Runs
  Python

/-! ### Deeds -/

/-- The call that a deed publishes. -/
def Deed.call? : Deed → Option ToolCall
  | .published (.toolCall call _) => some call
  | _ => none

/-- The result that a deed publishes. -/
def Deed.result? : Deed → Option ToolResult
  | .published (.toolResult result _) => some result
  | _ => none

/-- The calls that the model makes by a deed outside of completion-only mode. -/
def Deed.made : Deed → List ToolCall
  | .responded false natives => natives.map toolCallFromNative
  | _ => []

/-- The calls that were published. -/
def publishedCalls (deeds : List Deed) : List ToolCall :=
  deeds.filterMap Deed.call?

/-- The results that were published. -/
def publishedResults (deeds : List Deed) : List ToolResult :=
  deeds.filterMap Deed.result?

/-- The calls that the model made outside of completion-only mode. -/
def madeCalls (deeds : List Deed) : List ToolCall :=
  deeds.flatMap Deed.made

/-- A deed that is in order after others. -/
def IsOrderly (before : List Deed) : Deed → Prop
  | .tool _ | .recalled _ => .completeOnly ∉ before
  | .responded completeOnly _ => (completeOnly = true ↔ .completeOnly ∈ before) ∧
      ∀ natives, .responded true natives ∉ before
  | .published (.toolCall call _) => publishedCalls before ++ [call] <+: madeCalls before
  | .published (.toolResult result _) =>
    (publishedResults before).map ToolResult.toolCallId ++ [result.toolCallId] <+:
      (publishedCalls before).map ToolCall.id
  | _ => True

/-- The deeds are in order. The mode is as they say, and unless the run is over the model has not
answered in completion-only mode. Some calls that the model made are not published, and some that
are published have no result. -/
structure Progress (completeOnly isOver : Bool) (unpublished unanswered : List ToolCall)
    (deeds : List Deed) : Prop where
  orderly : Along IsOrderly deeds
  mode : .completeOnly ∈ deeds ↔ completeOnly = true
  made : madeCalls deeds = publishedCalls deeds ++ unpublished
  answered : (publishedCalls deeds).map ToolCall.id =
    (publishedResults deeds).map ToolResult.toolCallId ++ unanswered.map ToolCall.id
  fresh : isOver = false → ∀ natives, .responded true natives ∉ deeds

variable {completeOnly isOver : Bool} {unpublished unanswered : List ToolCall} {deeds : List Deed}
  {deed : Deed} {call : ToolCall} {result : ToolResult} {natives : List NativeCall}

@[simp] theorem publishedCalls_snoc :
    publishedCalls (deeds ++ [deed]) = publishedCalls deeds ++ deed.call?.toList := by
  cases hcall : deed.call? with
  | none => simp [publishedCalls, hcall]
  | some call => simp [publishedCalls, hcall]

@[simp] theorem publishedResults_snoc :
    publishedResults (deeds ++ [deed]) = publishedResults deeds ++ deed.result?.toList := by
  cases hresult : deed.result? with
  | none => simp [publishedResults, hresult]
  | some result => simp [publishedResults, hresult]

@[simp] theorem madeCalls_snoc : madeCalls (deeds ++ [deed]) = madeCalls deeds ++ deed.made := by
  simp [madeCalls]

/-- A deed that publishes no call and no result, makes none and does not change the mode. -/
structure Deed.IsPlain (deed : Deed) : Prop where
  call : deed.call? = none
  result : deed.result? = none
  made : deed.made = []
  mode : deed ≠ .completeOnly
  response : ∀ natives, deed ≠ .responded true natives

/-- A plain deed changes nothing. -/
theorem Progress.plain (hprogress : Progress completeOnly isOver unpublished unanswered deeds)
    (hplain : deed.IsPlain) (horderly : IsOrderly deeds deed) :
    Progress completeOnly isOver unpublished unanswered (deeds ++ [deed]) where
  orderly := hprogress.orderly.snoc horderly
  mode := by
    simp only [List.mem_append, List.mem_singleton, hplain.mode.symm, or_false]
    exact hprogress.mode
  made := by simp [hplain.call, hplain.made, hprogress.made]
  answered := by simp [hplain.call, hplain.result, hprogress.answered]
  fresh hover natives := by
    simp only [List.mem_append, List.mem_singleton, (hplain.response natives).symm, or_false]
    exact hprogress.fresh hover natives

/-- The next call is published. -/
theorem Progress.publishCall {pressure : Option ContextPressure}
    (hprogress : Progress completeOnly isOver (call :: unpublished) unanswered deeds) :
    Progress completeOnly isOver unpublished (unanswered ++ [call])
      (deeds ++ [.published (.toolCall call pressure)]) where
  orderly := by
    refine hprogress.orderly.snoc ?_
    change publishedCalls deeds ++ [call] <+: madeCalls deeds
    rw [hprogress.made]
    exact ⟨unpublished, by simp⟩
  mode := by simp [hprogress.mode]
  made := by simp [Deed.call?, Deed.made, hprogress.made]
  answered := by simp [Deed.call?, Deed.result?, hprogress.answered]
  fresh hover natives := by simpa using hprogress.fresh hover natives

/-- The next result is published. -/
theorem Progress.publishResult {pressure : Option ContextPressure}
    (hprogress : Progress completeOnly isOver unpublished (call :: unanswered) deeds)
    (hid : result.toolCallId = call.id) :
    Progress completeOnly isOver unpublished unanswered
      (deeds ++ [.published (.toolResult result pressure)]) where
  orderly := by
    refine hprogress.orderly.snoc ?_
    change (publishedResults deeds).map ToolResult.toolCallId ++ [result.toolCallId] <+:
      (publishedCalls deeds).map ToolCall.id
    rw [hprogress.answered, hid]
    exact ⟨unanswered.map ToolCall.id, by simp⟩
  mode := by simp [hprogress.mode]
  made := by simp [Deed.call?, Deed.made, hprogress.made]
  answered := by simp [Deed.call?, Deed.result?, hprogress.answered, hid]
  fresh hover natives := by simpa using hprogress.fresh hover natives

/-- The model answers outside of completion-only mode. -/
theorem Progress.respond (hprogress : Progress false false [] [] deeds) :
    Progress false false (natives.map toolCallFromNative) []
      (deeds ++ [.responded false natives]) where
  orderly := by
    refine hprogress.orderly.snoc ⟨?_, hprogress.fresh rfl⟩
    rw [hprogress.mode]
  mode := by simp [hprogress.mode]
  made := by simp [Deed.call?, Deed.made, hprogress.made]
  answered := by simp [Deed.call?, Deed.result?, hprogress.answered]
  fresh hover others := by simpa using hprogress.fresh hover others

/-- The model answers in completion-only mode. -/
theorem Progress.finish (hprogress : Progress true false [] [] deeds) :
    Progress true true [] [] (deeds ++ [.responded true natives]) where
  orderly := by
    refine hprogress.orderly.snoc ⟨?_, hprogress.fresh rfl⟩
    rw [hprogress.mode]
  mode := by simp [hprogress.mode]
  made := by simp [Deed.call?, Deed.made, hprogress.made]
  answered := by simp [Deed.call?, Deed.result?, hprogress.answered]
  fresh hover := by cases hover

/-- The run comes into completion-only mode. -/
theorem Progress.restrict (hprogress : Progress completeOnly isOver unpublished unanswered deeds) :
    Progress true isOver unpublished unanswered (deeds ++ [.completeOnly]) where
  orderly := hprogress.orderly.snoc trivial
  mode := by simp
  made := by simp [Deed.call?, Deed.made, hprogress.made]
  answered := by simp [Deed.call?, Deed.result?, hprogress.answered]
  fresh hover natives := by simpa using hprogress.fresh hover natives

/-! ### Scripts -/

section Scripts

variable {World α : Type} {environment : ExecutorEnvironment World} {settings : ExecutorSettings}
  {request : EngineRequest} {execution : Execution World} {post : α → Execution World → Prop}
  {stopped : Halted → Execution World → Prop}

@[simp] theorem leaves_await {action : StateM World α} :
    Leaves (await action) execution post stopped ↔
      post (action execution.world).1 { execution with world := (action execution.world).2 } :=
  Iff.rfl

@[simp] theorem leaves_assign {change : Execution World → Execution World}
    {after : Unit → Execution World → Prop} :
    Leaves (assign change) execution after stopped ↔ after () (change execution) :=
  Iff.rfl

@[simp] theorem leaves_note {after : Unit → Execution World → Prop} :
    Leaves (note deed) execution after stopped ↔
      after () { execution with deeds := execution.deeds ++ [deed] } :=
  Iff.rfl

@[simp] theorem leaves_raise {exception : Raised} :
    Leaves (raise exception : Script World α) execution post stopped ↔
      stopped (.raised exception) execution :=
  Iff.rfl

/-- An exception goes on with its handler. -/
theorem leaves_rescue {body : Script World α} {handler : Raised → Script World α}
    (hbody : Leaves body execution post fun halted next ↦
      (∀ exception, halted = .raised exception → Leaves (handler exception) next post stopped) ∧
        (halted = .closed → stopped .closed next)) :
    Leaves (rescue body handler) execution post stopped := by
  refine leaves_tryCatch.mpr (hbody.mono (fun _ _ h ↦ h) fun halted next hhalted ↦ ?_)
  cases halted with
  | raised exception => exact hhalted.1 exception rfl
  | closed => exact hhalted.2 rfl

/-! ### Scripts that publish no call and no result -/

/-- What holds of the deeds of a run. -/
def OfDeeds (holds : List Deed → Prop) (execution : Execution World) : Prop :=
  holds execution.deeds

/-- A part that is neither a call nor a result. -/
def StreamDelta.IsPlain : StreamDelta → Prop
  | .toolCall _ _ | .toolResult _ _ => False
  | _ => True

/-- What is kept by every plain part. -/
def KeptByParts (holds : List Deed → Prop) : Prop :=
  ∀ deeds delta, StreamDelta.IsPlain delta → holds deeds → holds (deeds ++ [.published delta])

/-- Progress is kept by every plain part. -/
theorem keptByParts_progress :
    KeptByParts (Progress completeOnly isOver unpublished unanswered) := by
  intro deeds delta hplain hprogress
  have hdeed : (Deed.published delta).IsPlain := by
    cases delta with
    | toolCall call pressure => cases hplain
    | toolResult result pressure => cases hplain
    | _ => exact ⟨rfl, rfl, rfl, by simp, by simp⟩
  refine hprogress.plain hdeed ?_
  cases delta with
  | toolCall call pressure => cases hplain
  | toolResult result pressure => cases hplain
  | _ => trivial

variable {holds : List Deed → Prop} {active : List HistoryTurn} {delta : StreamDelta}

theorem stable_await {action : StateM World α} : Stable (OfDeeds holds) (await action) :=
  fun _ hholds ↦ hholds

theorem stable_assign {change : Execution World → Execution World}
    (hdeeds : ∀ execution, (change execution).deeds = execution.deeds) :
    Stable (OfDeeds holds) (assign change) := by
  intro execution hholds
  rw [leaves_assign, OfDeeds, hdeeds]
  exact hholds

theorem stable_raise {exception : Raised} :
    Stable (OfDeeds holds) (raise exception : Script World α) :=
  Stable.throw

theorem stable_attempt {action : StateM World (Except Failure α)} :
    Stable (OfDeeds holds) (attempt action) := by
  refine stable_await.bind fun outcome ↦ ?_
  cases outcome with
  | error failure => exact stable_raise
  | ok value => exact Stable.pure

theorem stable_rescue {body : Script World α} {handler : Raised → Script World α}
    (hbody : Stable (OfDeeds holds) body)
    (hhandler : ∀ exception, Stable (OfDeeds holds) (handler exception)) :
    Stable (OfDeeds holds) (rescue body handler) := by
  intro execution hholds
  refine leaves_rescue ((hbody execution hholds).mono (fun _ _ h ↦ h) fun halted next hnext ↦ ?_)
  exact ⟨fun exception _ ↦ hhandler exception next hnext, fun _ ↦ hnext⟩

theorem stable_publish (hparts : KeptByParts holds) (hplain : delta.IsPlain) :
    Stable (OfDeeds holds) (publish environment delta) := by
  intro execution hholds
  have hnoted : OfDeeds holds
      { execution with deeds := execution.deeds ++ [.published delta] } :=
    hparts _ _ hplain hholds
  unfold publish
  rw [leaves_bind, leaves_note]
  refine (stable_await _ hnoted).bind fun accepted final hfinal ↦ ?_
  cases accepted with
  | true => exact hfinal
  | false => exact hfinal

theorem stable_emit (hparts : KeptByParts holds) (hplain : delta.IsPlain) :
    Stable (OfDeeds holds) (emit environment delta) :=
  (stable_assign fun _ ↦ by rfl).bind fun _ ↦ stable_publish hparts hplain

theorem stable_measureContext :
    Stable (OfDeeds holds) (measureContext environment settings active) := by
  refine stable_attempt.bind fun used ↦ ?_
  exact Stable.ite stable_raise Stable.pure

theorem stable_measure :
    Stable (OfDeeds holds) (measure environment settings active completeOnly) := by
  refine Stable.get.bind fun execution ↦ Stable.ite Stable.pure (stable_rescue ?_ fun exception ↦ ?_)
  · exact stable_measureContext.bind fun _ ↦ Stable.pure
  · exact Stable.ite ((stable_assign fun _ ↦ by rfl).bind fun _ ↦ Stable.pure) stable_raise

theorem stable_contextBoundary {phase : CompactionBoundary} (hparts : KeptByParts holds) :
    Stable (OfDeeds holds) (contextBoundary environment settings active phase) := by
  refine stable_measureContext.bind fun pressure ↦ Stable.ite Stable.pure ?_
  refine (stable_emit hparts (by trivial)).bind fun _ ↦ ?_
  have hcompact : Stable (OfDeeds holds) (compact environment settings active phase) := by
    refine stable_rescue (stable_attempt.bind fun memory ↦ ?_) fun _ ↦ stable_raise
    exact stable_measureContext.bind fun _ ↦ Stable.pure
  refine hcompact.bind fun compacted ↦ ?_
  refine (stable_emit hparts (by trivial)).bind fun _ ↦ ?_
  exact (stable_emit hparts (by trivial)).bind fun _ ↦ Stable.pure

theorem stable_speak (hparts : KeptByParts holds) (spoken : Spoken) :
    Stable (OfDeeds holds) (speak environment settings active completeOnly spoken) := by
  cases spoken with
  | reasoning text =>
    refine Stable.get.bind fun execution ↦ stable_measure.bind fun pressure ↦ ?_
    exact stable_emit hparts (by trivial)
  | message text =>
    refine (stable_assign fun _ ↦ by rfl).bind fun _ ↦ Stable.get.bind fun execution ↦ ?_
    exact stable_measure.bind fun pressure ↦ stable_emit hparts (by trivial)

theorem stable_streamOnce {asked : ModelRequest} (hparts : KeptByParts holds) :
    Stable (OfDeeds holds) (streamOnce environment settings asked active completeOnly) := by
  refine stable_await.bind fun streamed ↦ ?_
  refine (Stable.forM (stable_speak hparts)).bind fun _ ↦ ?_
  cases streamed.failure with
  | none => exact Stable.pure
  | some failure => exact stable_raise

theorem stable_streamAttempts {asked : ModelRequest} (hparts : KeptByParts holds) (left : ℕ) :
    Stable (OfDeeds holds)
      (streamAttempts environment settings asked active completeOnly left) := by
  induction left with
  | zero => exact stable_streamOnce hparts
  | succ left ih =>
    refine stable_rescue (stable_streamOnce hparts) fun exception ↦ Stable.get.bind fun _ ↦ ?_
    exact Stable.ite stable_raise ih

/-! ### Calls and results -/

/-- A run that stops has done everything in order. -/
def InOrder (_ : Halted) (execution : Execution World) : Prop :=
  Along IsOrderly execution.deeds

/-- A script that keeps the progress leaves it. -/
theorem leaves_of_stable {program : Script World α}
    (hstable : Stable (OfDeeds (Progress completeOnly isOver unpublished unanswered)) program)
    (hprogress : Progress completeOnly isOver unpublished unanswered execution.deeds) :
    Leaves program execution
      (fun _ final ↦ Progress completeOnly isOver unpublished unanswered final.deeds) InOrder :=
  (hstable execution hprogress).mono (fun _ _ h ↦ h) fun _ _ h ↦ h.orderly

/-- A part leaves what holds once it is yielded. -/
theorem leaves_publish
    (hprogress : Progress completeOnly isOver unpublished unanswered
      (execution.deeds ++ [.published delta])) :
    Leaves (publish environment delta) execution
      (fun _ final ↦ Progress completeOnly isOver unpublished unanswered final.deeds) InOrder := by
  unfold publish
  rw [leaves_bind, leaves_note]
  refine (leaves_of_stable stable_await hprogress).bind fun accepted final hfinal ↦ ?_
  cases accepted with
  | true => exact hfinal
  | false => exact hfinal.orderly

/-- The next call is emitted. -/
theorem leaves_emit_call {pressure : Option ContextPressure}
    (hprogress : Progress completeOnly isOver (call :: unpublished) unanswered execution.deeds) :
    Leaves (emit environment (.toolCall call pressure)) execution
      (fun _ final ↦ Progress completeOnly isOver unpublished (unanswered ++ [call]) final.deeds)
      InOrder := by
  unfold emit
  rw [leaves_bind, leaves_assign]
  exact leaves_publish hprogress.publishCall

/-- Local calls are published before they are served. -/
theorem leaves_publishLocal {calls : List ToolCall}
    (hprogress : Progress completeOnly isOver calls unanswered execution.deeds) :
    Leaves (publishLocal environment settings calls active) execution
      (fun _ final ↦ Progress completeOnly isOver [] (unanswered ++ calls) final.deeds) InOrder := by
  induction calls generalizing active unanswered execution with
  | nil =>
    rw [List.append_nil]
    exact hprogress
  | cons call calls ih =>
    unfold publishLocal
    refine (leaves_of_stable stable_measureContext hprogress).bind fun pressure next hnext ↦ ?_
    refine (leaves_emit_call hnext).bind fun _ final hfinal ↦ ?_
    have hcalls : unanswered ++ call :: calls = unanswered ++ [call] ++ calls := by simp
    rw [hcalls]
    exact ih hfinal

/-- A recall answers its call, unless it raises. -/
theorem leaves_recallTopLevel
    (hprogress : Progress completeOnly isOver unpublished unanswered execution.deeds) :
    Leaves (recallTopLevel environment active call) execution
      (fun result final ↦ result.toolCallId = call.id ∧
        Progress completeOnly isOver unpublished unanswered final.deeds)
      fun _ final ↦ Progress completeOnly isOver unpublished unanswered final.deeds := by
  unfold recallTopLevel
  split_ifs
  · exact hprogress
  · refine (stable_attempt execution hprogress).bind fun answer next hnext ↦ ?_
    cases answer with
    | none => exact ⟨rfl, hnext⟩
    | some answer => exact ⟨rfl, hnext⟩

/-- A local call gets its result, and the mode is as the deeds say. -/
theorem leaves_recallOne
    (hprogress : Progress completeOnly isOver unpublished unanswered execution.deeds) :
    Leaves (recallOne environment active completeOnly call) execution
      (fun outcome final ↦ outcome.1.toolCallId = call.id ∧
        Progress outcome.2 isOver unpublished unanswered final.deeds) InOrder := by
  unfold recallOne
  cases completeOnly with
  | true => exact ⟨rfl, hprogress⟩
  | false =>
    have hrecall : IsOrderly execution.deeds (.recalled call) := by
      intro hmode
      cases hprogress.mode.mp hmode
    have hnoted := hprogress.plain ⟨rfl, rfl, rfl, by simp, by simp⟩ hrecall
    have hrescued : Leaves (rescue (recallTopLevel environment active call) fun exception ↦
        pure (errorResult call (reasonOf exception)))
        { execution with deeds := execution.deeds ++ [.recalled call] }
        (fun result final ↦ result.toolCallId = call.id ∧
          Progress false isOver unpublished unanswered final.deeds) InOrder := by
      refine leaves_rescue ((leaves_recallTopLevel hnoted).mono (fun _ _ h ↦ h)
        fun halted next hnext ↦ ⟨fun exception _ ↦ ⟨rfl, hnext⟩, fun _ ↦ hnext.orderly⟩)
    refine hrescued.bind fun result next hnext ↦ ?_
    split_ifs
    · exact ⟨hnext.1, hnext.2.restrict⟩
    · exact hnext

/-- Local calls are served in order, also those that follow a failed one. -/
theorem leaves_serveLocal {calls : List ToolCall}
    (hprogress : Progress completeOnly isOver unpublished calls execution.deeds) :
    Leaves (serveLocal environment settings calls active completeOnly) execution
      (fun outcome final ↦ Progress outcome.2 isOver unpublished [] final.deeds) InOrder := by
  induction calls generalizing active completeOnly execution with
  | nil => exact hprogress
  | cons call calls ih =>
    unfold serveLocal
    refine (leaves_recallOne hprogress).bind fun outcome next hnext ↦ ?_
    refine (leaves_of_stable stable_measure hnext.2).bind fun pressure between hbetween ↦ ?_
    exact (leaves_publish (hbetween.publishResult hnext.1)).bind fun _ final hfinal ↦ ih hfinal

/-- A call of the sandbox gets its result, unless it raises. -/
theorem leaves_callTool {native : NativeCall}
    (hprogress : Progress false isOver unpublished unanswered execution.deeds) :
    Leaves (callTool environment native) execution
      (fun message final ↦ message.toolCallId = (toolCallFromNative native).id ∧
        Progress false isOver unpublished unanswered final.deeds) InOrder := by
  unfold callTool
  rw [leaves_bind, leaves_get]
  dsimp only
  split_ifs
  · exact hprogress.orderly
  · refine (leaves_of_stable stable_attempt hprogress).bind fun _ next hnext ↦ ?_
    rw [leaves_bind, leaves_assign, leaves_bind, leaves_note]
    have htool : IsOrderly next.deeds (.tool native) := by
      intro hmode
      cases hnext.mode.mp hmode
    have hnoted := hnext.plain ⟨rfl, rfl, rfl, by simp, by simp⟩ htool
    refine (leaves_of_stable stable_attempt hnoted).bind fun outcome final hfinal ↦ ?_
    exact ⟨rfl, hfinal⟩

/-- Calls of the sandbox are published and served one after the other. -/
theorem leaves_serveNative {natives : List NativeCall}
    (hprogress : Progress false isOver (natives.map toolCallFromNative) [] execution.deeds) :
    Leaves (serveNative environment settings natives active) execution
      (fun _ final ↦ Progress false isOver [] [] final.deeds) InOrder := by
  induction natives generalizing active execution with
  | nil => exact hprogress
  | cons native natives ih =>
    unfold serveNative
    refine (leaves_of_stable stable_measureContext hprogress).bind fun pressure next hnext ↦ ?_
    refine (leaves_emit_call hnext).bind fun _ emitted hemitted ↦ ?_
    refine (leaves_of_stable (stable_assign fun _ ↦ by rfl) hemitted).bind
      fun _ dispatched hdispatched ↦ ?_
    refine (leaves_callTool hdispatched).bind fun message answered hanswered ↦ ?_
    refine (leaves_of_stable stable_measureContext hanswered.2).bind fun _ between hbetween ↦ ?_
    exact (leaves_publish (hbetween.publishResult hanswered.1)).bind fun _ final hfinal ↦ ih hfinal

theorem stable_checkLocalIds {seen : List Text} {calls : List ToolCall} :
    Stable (OfDeeds holds) (checkLocalIds seen calls : Script World Unit) := by
  induction calls generalizing seen with
  | nil => exact Stable.pure
  | cons call calls ih => exact Stable.ite stable_raise ih

theorem stable_admitCalls {response : Response} :
    Stable (OfDeeds holds) (admitCalls response : Script World Unit) := by
  refine Stable.get.bind fun execution ↦ Stable.ite stable_raise (Stable.ite stable_raise ?_)
  exact Stable.ite stable_raise (stable_assign fun _ ↦ by rfl)

/-- A batch of local calls leaves each with its result. -/
theorem leaves_recallBatch {memoryVisible : Bool} {response : Response}
    (hprogress : Progress false isOver (response.toolCalls.map toolCallFromNative) []
      execution.deeds) :
    Leaves (recallBatch environment settings memoryVisible response active) execution
      (fun outcome final ↦ Progress outcome.2 isOver [] [] final.deeds) InOrder := by
  unfold recallBatch
  split_ifs
  · exact hprogress.orderly
  · refine (leaves_of_stable stable_checkLocalIds hprogress).bind fun _ next hnext ↦ ?_
    exact (leaves_publishLocal hnext).bind fun active final hfinal ↦ leaves_serveLocal hfinal

/-- A batch of calls of the sandbox leaves each with its result. -/
theorem leaves_sandboxBatch {response : Response}
    (hprogress : Progress false isOver (response.toolCalls.map toolCallFromNative) []
      execution.deeds) :
    Leaves (sandboxBatch environment settings response active) execution
      (fun outcome final ↦ Progress outcome.2 isOver [] [] final.deeds) InOrder := by
  unfold sandboxBatch
  refine (leaves_of_stable stable_admitCalls hprogress).bind fun _ next hnext ↦ ?_
  exact (leaves_serveNative hnext).bind fun active final hfinal ↦ hfinal

/-! ### Steps -/

/-- A boundary leaves the mode as the deeds say, and does not end the run. -/
theorem leaves_boundary {state : ExecutionState}
    (hprogress : Progress state.completeOnly isOver [] [] execution.deeds) :
    Leaves (boundary environment settings state) execution
      (fun next final ↦ Progress next.completeOnly isOver [] [] final.deeds ∧
        next.done = state.done ∧ (state.completeOnly = true → next.completeOnly = true)) InOrder := by
  unfold boundary
  split_ifs with hmode
  · exact ⟨hprogress, rfl, id⟩
  · have hstable := @stable_contextBoundary _ environment settings _ state.active (phaseOf state)
      (@keptByParts_progress state.completeOnly isOver [] [])
    refine leaves_rescue ?_
    rw [leaves_bind]
    refine (hstable execution hprogress).mono (fun active next hnext ↦ ?_) fun halted next hnext ↦ ?_
    · exact ⟨hnext, rfl, id⟩
    · refine ⟨fun exception _ ↦ ?_, fun _ ↦ Progress.orderly hnext⟩
      cases exception with
      | executionFailed reason => exact Progress.orderly hnext
      | failed failure => exact Progress.orderly hnext
      | compactionFailed reason =>
        unfold boundaryFailed
        split_ifs
        · exact Progress.orderly hnext
        · exact ⟨Progress.restrict hnext, rfl, fun _ ↦ rfl⟩

/-- The step in completion-only mode ends the run. -/
theorem leaves_complete {state : ExecutionState}
    (hprogress : Progress completeOnly isOver [] [] execution.deeds) :
    Leaves (complete environment settings state) execution
      (fun next final ↦ Progress completeOnly isOver [] [] final.deeds ∧
        next.completeOnly = state.completeOnly ∧ next.done = true) InOrder := by
  unfold complete
  rw [leaves_bind, leaves_get]
  have hsaid : ∀ next : Execution World, Progress completeOnly isOver [] [] next.deeds →
      Leaves (do
        let text := (← get).text
        return { state with
          active := state.active ++ [.message (.assistant text)]
          started := true
          done := true } : Script World ExecutionState) next
        (fun next final ↦ Progress completeOnly isOver [] [] final.deeds ∧
          next.completeOnly = state.completeOnly ∧ next.done = true) InOrder :=
    fun next hnext ↦ ⟨hnext, rfl, rfl⟩
  split_ifs
  · refine (leaves_of_stable (stable_assign fun _ ↦ by rfl) hprogress).bind fun _ next hnext ↦ ?_
    refine (leaves_of_stable stable_measure hnext).bind fun pressure between hbetween ↦ ?_
    have hpublish := @stable_publish _ environment _ (.message emptyCompletion pressure)
      (@keptByParts_progress completeOnly isOver [] []) trivial
    refine (leaves_of_stable hpublish hbetween).bind fun _ published hpublished ↦ ?_
    refine (leaves_of_stable (stable_assign fun _ ↦ by rfl) hpublished).bind fun _ final hfinal ↦ ?_
    exact hsaid final hfinal
  · exact hsaid execution hprogress

/-- Outside of completion-only mode every call of a response is published and gets its result. -/
theorem leaves_act {state : ExecutionState} {memoryVisible : Bool} {response : Response}
    (hprogress : Progress false isOver (response.toolCalls.map toolCallFromNative) []
      execution.deeds) :
    Leaves (act environment settings memoryVisible response state) execution
      (fun next final ↦ Progress next.completeOnly isOver [] [] final.deeds) InOrder := by
  unfold act
  split_ifs with hinvalid hlocal
  · exact hprogress.orderly
  · rw [leaves_bind, leaves_get]
    exact (leaves_recallBatch hprogress).bind fun outcome final hfinal ↦ hfinal
  · rw [leaves_bind, leaves_get]
    exact (leaves_sandboxBatch hprogress).bind fun outcome final hfinal ↦ hfinal

/-- A step of the model leaves every call with its result, and ends the run in completion-only
mode. -/
theorem leaves_modelStep {state : ExecutionState}
    (hprogress : Progress state.completeOnly false [] [] execution.deeds) :
    Leaves (modelStep environment settings request state) execution
      (fun next final ↦ Progress next.completeOnly state.completeOnly [] [] final.deeds ∧
        (state.completeOnly = true → next.done = true)) InOrder := by
  unfold modelStep
  refine (leaves_of_stable stable_measure hprogress).bind fun pressure measured hmeasured ↦ ?_
  refine (leaves_of_stable (stable_assign fun _ ↦ by rfl) hmeasured).bind fun _ cleared hcleared ↦ ?_
  refine (leaves_of_stable (stable_streamAttempts keptByParts_progress 2) hcleared).bind
    fun streamed answered hanswered ↦ ?_
  cases streamed with
  | none => exact hanswered.orderly
  | some response =>
    dsimp only
    rw [leaves_bind, leaves_note]
    cases hmode : state.completeOnly with
    | true =>
      rw [hmode] at hanswered
      rw [if_pos rfl]
      exact (leaves_complete hanswered.finish).mono
        (fun next _ hnext ↦ ⟨by rw [hnext.2.1, hmode]; exact hnext.1, fun _ ↦ hnext.2.2⟩)
        fun _ _ h ↦ h
    | false =>
      rw [hmode] at hanswered
      rw [if_neg Bool.false_ne_true]
      exact (leaves_act hanswered.respond).mono
        (fun next _ hnext ↦ ⟨hnext, fun hfalse ↦ by cases hfalse⟩) fun _ _ h ↦ h

/-- A run that may go on: every call has its result, and the model has not answered in
completion-only mode unless the run is done. -/
def IsReady (state : ExecutionState) (deeds : List Deed) : Prop :=
  ∃ isOver, Progress state.completeOnly isOver [] [] deeds ∧ (isOver = true → state.done = true)

/-- A round keeps the run ready, and is the last in completion-only mode. -/
theorem leaves_round {state : ExecutionState} (hready : IsReady state execution.deeds)
    (hdone : state.done = false) :
    Leaves (round environment settings request state) execution
      (fun next final ↦ IsReady next final.deeds ∧
        (state.completeOnly = true → next.done = true)) InOrder := by
  obtain ⟨isOver, hprogress, hover⟩ := hready
  obtain rfl : isOver = false := by
    cases isOver with
    | false => rfl
    | true => exact absurd (hover rfl) (by rw [hdone]; exact Bool.false_ne_true)
  unfold round
  refine (leaves_boundary hprogress).bind fun bounded between hbounded ↦ ?_
  obtain ⟨hbetween, -, hmode⟩ := hbounded
  refine (leaves_modelStep hbetween).bind fun stepped answered hstepped ↦ ?_
  obtain ⟨hanswered, hlast⟩ := hstepped
  refine (leaves_boundary hanswered).mono (fun next final hnext ↦ ?_) fun _ _ h ↦ h
  obtain ⟨hfinal, hsame, -⟩ := hnext
  refine ⟨⟨bounded.completeOnly, hfinal, fun hover ↦ ?_⟩, fun hstart ↦ ?_⟩
  · rw [hsame]
    exact hlast hover
  · rw [hsame]
    exact hlast (hmode hstart)

/-- A run keeps ready. -/
theorem leaves_loop {state : ExecutionState} (rounds : ℕ) (hready : IsReady state execution.deeds) :
    Leaves (loop environment settings request rounds state) execution
      (fun _ final ↦ ∃ mode isOver, Progress mode isOver [] [] final.deeds) InOrder := by
  induction rounds generalizing state execution with
  | zero =>
    obtain ⟨isOver, hprogress, -⟩ := hready
    unfold loop
    split_ifs
    · exact ⟨_, _, hprogress⟩
    · exact ⟨_, _, hprogress⟩
  | succ rounds ih =>
    unfold loop
    split_ifs with hdone
    · obtain ⟨isOver, hprogress, -⟩ := hready
      exact ⟨_, _, hprogress⟩
    · exact (leaves_round hready (by simpa using hdone)).bind fun next final hnext ↦ ih hnext.1

/-- A run that is done returns so. -/
theorem loop_of_done {state : ExecutionState} {rounds : ℕ} (hdone : state.done = true) :
    loop environment settings request rounds state execution = (.ok true, execution) := by
  unfold loop
  rw [if_pos hdone]
  rfl

/-- A run that is not done goes on with the next round. -/
theorem loop_of_not_done {state : ExecutionState} {rounds : ℕ} (hdone : state.done = false) :
    loop environment settings request (rounds + 1) state execution =
      (round environment settings request state >>= fun next ↦
        loop environment settings request rounds next) execution := by
  rw [loop]
  simp [hdone]

/-- A run that is not done after some rounds is not done after the first and the others. -/
theorem loop_eq_ok {state : ExecutionState} {rounds : ℕ} {final : Execution World}
    (hdone : state.done = false)
    (hrun : loop environment settings request (rounds + 1) state execution = (.ok false, final)) :
    ∃ next middle, round environment settings request state execution = (.ok next, middle) ∧
      loop environment settings request rounds next middle = (.ok false, final) := by
  rw [loop_of_not_done hdone] at hrun
  exact bind_run_eq_ok.mp hrun

/-- A run that came into completion-only mode and is not done is done after one more round, unless
it stops. -/
theorem loop_ends {state : ExecutionState} {rounds : ℕ} {final : Execution World}
    (hready : IsReady state execution.deeds)
    (hrun : loop environment settings request rounds state execution = (.ok false, final))
    (hmode : .completeOnly ∈ final.deeds) :
    (loop environment settings request (rounds + 1) state execution).1 ≠ .ok false := by
  induction rounds generalizing state execution with
  | zero =>
    cases hdone : state.done with
    | true =>
      rw [loop_of_done hdone] at hrun
      cases hrun
    | false =>
      obtain rfl : execution = final := by
        unfold loop at hrun
        rw [if_neg (by simp [hdone])] at hrun
        exact (Prod.mk.inj hrun).2
      intro hfalse
      obtain ⟨next, middle, hround, hloop⟩ := loop_eq_ok hdone (Prod.ext hfalse rfl)
      have hnext := (leaves_round hready hdone).of_ok hround
      obtain ⟨isOver, hprogress, -⟩ := hready
      rw [loop_of_done (hnext.2 (hprogress.mode.mp hmode))] at hloop
      cases hloop
  | succ rounds ih =>
    cases hdone : state.done with
    | true =>
      rw [loop_of_done hdone] at hrun
      cases hrun
    | false =>
      intro hfalse
      obtain ⟨next, middle, hround, hloop⟩ := loop_eq_ok hdone hrun
      obtain ⟨other, between, hsame, hrest⟩ := loop_eq_ok hdone (Prod.ext hfalse rfl)
      rw [hround] at hsame
      cases hsame
      have hnext := (leaves_round hready hdone).of_ok hround
      exact ih hnext.1 hloop (congrArg Prod.fst hrest)

/-! ### Runs -/

/-- Nothing is done at the start of a run. -/
theorem isReady_start : IsReady (startState request) [] := by
  refine ⟨false, ?_, fun hover ↦ by cases hover⟩
  exact
    { orderly := Along.nil
      mode := by simp [startState]
      made := rfl
      answered := rfl
      fresh := by simp }

/-- The sandbox is opened before anything is done. -/
theorem leaves_opens {world : World} :
    Leaves (attempt environment.opens) (startExecution settings world)
      (fun _ opened ↦ IsReady (startState request) opened.deeds) InOrder := by
  obtain ⟨isOver, hprogress, hover⟩ := @isReady_start request
  exact (leaves_of_stable stable_attempt hprogress).mono (fun _ _ h ↦ ⟨isOver, h, hover⟩)
    fun _ _ h ↦ h

/-- Instead of an exception another one is raised. -/
theorem leaves_streamFailed {exception : Raised} {after : Bool → Execution World → Prop}
    (hstopped : ∀ raised, stopped (.raised raised) execution) :
    Leaves (streamFailed exception) execution after stopped := by
  unfold streamFailed
  rw [leaves_bind, leaves_get]
  cases execution.admissionFailure with
  | none => exact hstopped _
  | some reason => exact hstopped _

/-- What is tried leaves every call with its result, unless it raises or is closed. -/
theorem leaves_streamBody (rounds : ℕ) (world : World) :
    Leaves (streamBody environment settings request rounds) (startExecution settings world)
      (fun _ final ↦ ∃ mode isOver, Progress mode isOver [] [] final.deeds) InOrder := by
  refine (@leaves_opens _ environment settings request world).bind fun _ opened hready ↦ ?_
  refine (leaves_loop rounds hready).bind fun isDone final hfinal ↦ ?_
  cases isDone with
  | false => exact hfinal
  | true =>
    obtain ⟨mode, isOver, hprogress⟩ := hfinal
    exact (leaves_of_stable stable_attempt hprogress).bind fun _ closed hclosed ↦
      ⟨mode, isOver, hclosed⟩

/-- A run leaves every call with its result, unless it raises or is closed. -/
theorem leaves_stream (rounds : ℕ) (world : World) :
    Leaves (stream environment settings request rounds) (startExecution settings world)
      (fun _ final ↦ ∃ mode isOver, Progress mode isOver [] [] final.deeds) InOrder :=
  leaves_rescue ((leaves_streamBody rounds world).mono (fun _ _ h ↦ h)
    fun _ _ hnext ↦ ⟨fun _ _ ↦ leaves_streamFailed fun _ ↦ hnext, fun _ ↦ hnext⟩)

/-- A run that returns is what was tried. -/
theorem streamBody_of_stream {rounds : ℕ} {isDone : Bool} {final : Execution World}
    (hrun : stream environment settings request rounds execution = (.ok isDone, final)) :
    streamBody environment settings request rounds execution = (.ok isDone, final) := by
  cases hbody : streamBody environment settings request rounds execution with
  | mk outcome next =>
    simp only [stream, rescue, tryCatch, tryCatchThe, MonadExceptOf.tryCatch, hbody] at hrun
    cases outcome with
    | ok value => exact hrun
    | error halted =>
      cases halted with
      | closed => cases hrun
      | raised exception =>
        have hraised : Leaves (streamFailed exception) next (fun _ _ ↦ False) fun _ _ ↦ True :=
          leaves_streamFailed fun _ ↦ trivial
        exact (hraised.of_ok hrun).elim

/-- A run that is not done has opened the sandbox and is not done with its rounds. -/
theorem stream_eq_ok {rounds : ℕ} {final : Execution World}
    (hrun : stream environment settings request rounds execution = (.ok false, final)) :
    ∃ opened, attempt environment.opens execution = (.ok (), opened) ∧
      loop environment settings request rounds (startState request) opened = (.ok false, final) := by
  obtain ⟨_, opened, hopened, hrest⟩ := bind_run_eq_ok.mp (streamBody_of_stream hrun)
  obtain ⟨isDone, closed, hloop, hclosed⟩ := bind_run_eq_ok.mp hrest
  cases isDone with
  | false =>
    cases hclosed
    exact ⟨opened, hopened, hloop⟩
  | true =>
    obtain ⟨_, _, -, hpure⟩ := bind_run_eq_ok.mp hclosed
    cases hpure

/-- A run that came into completion-only mode and is not done is done after one more round, unless
it stops. -/
theorem stream_ends {rounds : ℕ} {world : World} {final : Execution World}
    (hrun : stream environment settings request rounds (startExecution settings world) =
      (.ok false, final)) (hmode : .completeOnly ∈ final.deeds) :
    (stream environment settings request (rounds + 1) (startExecution settings world)).1 ≠
      .ok false := by
  intro hfalse
  obtain ⟨opened, hopened, hloop⟩ := stream_eq_ok hrun
  obtain ⟨other, hother, hrest⟩ := stream_eq_ok (Prod.ext hfalse rfl)
  rw [hopened] at hother
  cases hother
  exact loop_ends (leaves_opens.of_ok hopened) hloop hmode (congrArg Prod.fst hrest)

end Scripts

/-- In every run, whatever the model, the tools, the services and the consumer do:

* no tool is invoked and no memory is recalled once the run is in completion-only mode, and the
  model answers at most once in this mode;
* a call is published only if the model made it outside of this mode, and no result is published but
  for a published call that has none;
* when the run returns, every call that the model made outside of this mode is published and has
  exactly one result;
* a run that came into this mode is done after one more round, unless it stops. -/
theorem completionOnly_final {World : Type} (environment : ExecutorEnvironment World)
    (settings : ExecutorSettings) (request : EngineRequest) (rounds : ℕ) (world : World) :
    Along IsOrderly (run environment settings request rounds world).2.deeds ∧
    (∀ isDone, (run environment settings request rounds world).1 = .ok isDone →
      publishedCalls (run environment settings request rounds world).2.deeds =
        madeCalls (run environment settings request rounds world).2.deeds ∧
      (publishedResults (run environment settings request rounds world).2.deeds).map
          ToolResult.toolCallId =
        (publishedCalls (run environment settings request rounds world).2.deeds).map ToolCall.id) ∧
    (.completeOnly ∈ (run environment settings request rounds world).2.deeds →
      (run environment settings request rounds world).1 = .ok false →
        (run environment settings request (rounds + 1) world).1 ≠ .ok false) := by
  have hleaves := @leaves_stream _ environment settings request rounds world
  cases hrun : run environment settings request rounds world with
  | mk outcome final =>
    cases outcome with
    | error halted =>
      exact ⟨hleaves.of_error hrun, fun _ hok ↦ (by cases hok), fun _ hok ↦ by cases hok⟩
    | ok isDone =>
      obtain ⟨mode, isOver, hprogress⟩ := hleaves.of_ok hrun
      have hmade := hprogress.made
      have hanswered := hprogress.answered
      rw [List.append_nil] at hmade
      rw [List.map_nil, List.append_nil] at hanswered
      refine ⟨hprogress.orderly, fun _ _ ↦ ⟨hmade.symm, hanswered.symm⟩, fun hmode hok ↦ ?_⟩
      cases hok
      exact stream_ends hrun hmode

/-! ### Ignored calls -/

/-- The calls that the model makes by a deed, in any mode. -/
def Deed.emitted : Deed → List ToolCall
  | .responded _ natives => natives.map toolCallFromNative
  | _ => []

/-- Every call that the model makes, in any mode, has exactly one result. -/
def EveryCallAnswered (deeds : List Deed) : Prop :=
  ∀ call ∈ deeds.flatMap Deed.emitted,
    ((publishedResults deeds).filter fun result ↦ result.toolCallId = call.id).length = 1

namespace Example

/-- The history has a result. -/
def hasResult (active : List HistoryTurn) : Bool :=
  active.any fun
    | .message (.toolResult _) => true
    | _ => false

/-- A call of the shell. -/
def shellCall (id : String) : NativeCall where
  id := some id.toList
  name := "exec_shell".toList
  args := [("command".toList, .string "ls".toList)]

/-- A context that is full once a tool has answered and that cannot be compacted, and a model that
calls the shell at every step. The world counts the steps. -/
def environment : ExecutorEnvironment ℕ where
  opens := pure (.ok ())
  closes := pure (.ok ())
  count active := pure (.ok (if hasResult active then 900 else 100))
  compact _ _ := pure (.error (.context "no_safe_fitting_prefix"))
  stream _ := fun steps ↦
    ({ chunks := [[]], toolCalls := [shellCall (if steps = 0 then "first" else "second")] },
      steps + 1)
  recallAnswer _ _ := pure (.error .other)
  currentCredentials := pure (.ok ())
  callTool _ := pure (.ok { content := "done".toList, isError := false })
  accepts _ := pure true
  loads _ := none
  encoder := Engine.Example.plainEncoder

/-- A context of a thousand tokens. -/
def settings : ExecutorSettings where
  maxContextTokens := 1000
  contextTrigger := 80
  maxToolCalls := 8

/-- A request without history. -/
def request : EngineRequest where
  history := []
  userInput := "list the files".toList
  instructions := []

end Example

/-- The model calls the shell in completion-only mode, and the run ends without a result for this
call. -/
theorem completionOnly_ignores :
    (run Example.environment Example.settings Example.request 2 0).1.toOption = some true ∧
    ¬ EveryCallAnswered (run Example.environment Example.settings Example.request 2 0).2.deeds := by
  constructor
  · decide +kernel
  · intro hevery
    have hids : ((run Example.environment Example.settings Example.request 2 0).2.deeds.flatMap
        Deed.emitted).map ToolCall.id = ["first".toList, "second".toList] := by decide +kernel
    have hsecond : "second".toList ∈ ((run Example.environment Example.settings Example.request 2
        0).2.deeds.flatMap Deed.emitted).map ToolCall.id := by
      rw [hids]
      exact List.mem_cons_of_mem _ List.mem_cons_self
    obtain ⟨call, hcall, hid⟩ := List.mem_map.mp hsecond
    have hone := hevery call hcall
    rw [hid] at hone
    revert hone
    decide +kernel

end Ads.Engine.Executor
