import Ads.Context.FrameBatches

/-!
# Recall terminates

Two numbers bound a run of the recall runtime. A frame recalls only what a tombstone in its source
hides, so the frames inside each other are no more than the tombstones inside each other (`nesting`).
An invocation that calls tools adds a call and a result to the charged turns, and where the meter
charges at least one token for each turn, a guard stops the frame before they outgrow its room
(`room`). Within these bounds `run` never runs out of its two numbers (`run_terminates`).
-/

set_option autoImplicit false
set_option relaxedAutoImplicit false

namespace Ads.Context.Recall

open Foundation.StateExcept Foundation.Interrupted Foundation.Interrupted.Program Python

variable {World : Type} {environment : RecallEnvironment World} {settings : RecallSettings}
  {runner : Runner World} {frame : Frame} {call : ToolCall}

/-- A frame that starts with what a tombstone in the source hides. -/
structure IsChildOf (child : Frame) (source : List HistoryTurn) : Prop where
  recalls : ∃ memory, .tombstone memory ∈ source ∧ child.source = recallSource memory
  pendingResults : child.pendingResults = []
  reserve : child.reserve = none

/-! ### Scripts that end -/

section Ends

variable {α β : Type} {returned : α → Prop} {after : β → Prop}

/-- From every state the script returns such a value or raises. -/
def Ends (script : Script World α) (returned : α → Prop) : Prop :=
  ∀ state, Leaves script state (fun value _ ↦ returned value) fun halted _ ↦ halted ≠ .outOfFuel

theorem Ends.pure {value : α} (hvalue : returned value) :
    Ends (pure value : Script World α) returned :=
  fun _ ↦ hvalue

theorem Ends.raise {failure : Failure} : Ends (raise failure : Script World α) returned :=
  fun _ hend ↦ by cases hend

theorem Ends.bind {first : Script World α} {second : α → Script World β}
    (hfirst : Ends first returned) (hsecond : ∀ value, returned value → Ends (second value) after) :
    Ends (first >>= second) after :=
  fun state ↦ (hfirst state).bind fun value next hvalue ↦ hsecond value hvalue next

theorem Ends.note {deed : Deed} {rest : Unit → Script World β} (hrest : Ends (rest ()) after) :
    Ends (note deed >>= rest) after :=
  fun state ↦ hrest (state.1, state.2 ++ [deed])

theorem Ends.await {action : StateM World α} {rest : α → Script World β}
    (hrest : ∀ value, Ends (rest value) after) : Ends (await action >>= rest) after :=
  fun state ↦ hrest _ ((action state.1).2, state.2)

/-- What a script that ends raises goes on with its handler. -/
theorem Ends.tryCatch {script : Script World α} {handler : Halted → Script World α}
    (hscript : Ends script returned)
    (hhandler : ∀ failure, Ends (handler (.failed failure)) returned) :
    Ends (tryCatch script handler) returned := by
  intro state
  rw [leaves_tryCatch]
  refine (hscript state).mono (fun _ _ h ↦ h) fun halted next hraised ↦ ?_
  cases halted with
  | failed failure => exact hhandler failure next
  | outOfFuel => exact absurd rfl hraised

theorem Ends.apart {script : Script World α} (hscript : Ends script returned) :
    Ends (apart script) returned := by
  intro state
  have hends := hscript (state.1, [])
  unfold Leaves at hends ⊢
  unfold Recall.apart
  cases hrun : script (state.1, []) with
  | mk outcome final =>
    rw [hrun] at hends
    cases outcome with
    | ok value => exact hends
    | error halted => exact hends

theorem Ends.evaluate {computation : Except Failure α} :
    Ends (evaluate (computation.mapError .failed) : Script World α) fun _ ↦ True := by
  intro state
  cases computation with
  | ok value => trivial
  | error failure => exact fun hend ↦ by cases hend

/-- A script that ends returns what any of its runs returns. -/
theorem Ends.leaving {also : α → Prop} {script : Script World α} (hscript : Ends script returned)
    (halso : ∀ state, Leaves script state (fun value _ ↦ also value) fun _ _ ↦ True) :
    Ends script fun value ↦ returned value ∧ also value :=
  fun state ↦ leaves_of
    (fun _ _ hrun ↦ ⟨(hscript state).of_ok hrun, (halso state).of_ok hrun⟩)
    fun _ _ hrun ↦ (hscript state).of_error hrun

end Ends

/-! ### Measuring and settling -/

theorem count_ends {messages : List HistoryTurn} :
    Ends (count environment messages) fun _ ↦ True := by
  refine Ends.await fun answer ↦ ?_
  cases answer with
  | none => exact Ends.raise
  | some tokens =>
    dsimp only
    split_ifs
    · exact Ends.raise
    · exact Ends.pure trivial

theorem remaining_ends {messages : List HistoryTurn} :
    Ends (remaining environment settings messages frame) fun _ ↦ True :=
  count_ends.bind fun _ _ ↦ Ends.note (Ends.pure trivial)

/-- A guard that ends returns the frame, perhaps with its final answer only. -/
theorem guard_ends : Ends (guard environment settings frame) fun outcome ↦
    outcome.2 = frame ∨ outcome.2 = finalized frame := by
  refine remaining_ends.bind fun report _ ↦ ?_
  split_ifs
  · exact Ends.raise
  · exact Ends.note (Ends.pure (Or.inl rfl))
  · exact Ends.note (Ends.note (Ends.pure (Or.inr rfl)))

theorem resolve_ends {content : Json} {attempts : ℕ} {previous : Option Report} :
    Ends (resolve environment settings frame call content attempts previous) fun _ ↦ True := by
  induction attempts generalizing previous with
  | zero => exact Ends.raise
  | succ attempts ih =>
    refine remaining_ends.bind fun measured _ ↦ ?_
    split_ifs
    · exact Ends.pure trivial
    · exact Ends.pure trivial
    · exact Ends.pure trivial
    · exact ih

theorem prohibition_ends {reason : String} :
    Ends (prohibition environment settings frame call reason) fun _ ↦ True := by
  refine remaining_ends.bind fun report _ ↦ ?_
  split_ifs
  · exact Ends.raise
  · exact Ends.pure trivial

/-! ### Frames that recall -/

/-- Whatever is recalled from the source ends. -/
def ChildrenEnd (runner : Runner World) (source : List HistoryTurn) : Prop :=
  ∀ child, IsChildOf child source → Ends (runner child) fun _ ↦ True

/-- The memory that a call recalls is in the source. -/
theorem mem_of_visibleMemory {context : List HistoryTurn} {memory : Tombstone} {question : Text}
    (hvisible : visibleMemory context call = .ok (memory, question)) :
    .tombstone memory ∈ context := by
  unfold visibleMemory at hvisible
  split at hvisible
  · split at hvisible
    · cases hvisible
    · rename_i found hfound
      split_ifs at hvisible
      obtain ⟨rfl, -⟩ := Prod.mk.inj (Except.ok.inj hvisible)
      have hmem := List.mem_reverse.mp (List.mem_of_find?_eq_some hfound)
      obtain ⟨turn, hturn, htombstone⟩ := List.mem_filterMap.mp hmem
      cases turn with
      | message message => cases htombstone
      | tombstone other => exact Option.some.inj htombstone ▸ hturn
  · cases hvisible

theorem childAnswer_ends {memory : Tombstone} {question : Text} {cap : ℤ} {retried : Bool}
    (hmemory : .tombstone memory ∈ frame.source) (hchildren : ChildrenEnd runner frame.source) :
    Ends (childAnswer environment settings runner memory question cap retried false)
      fun _ ↦ True := by
  refine Ends.apart (guard_ends.bind fun outcome hguarded ↦ ?_)
  have hruns : Ends (runner outcome.2) fun _ ↦ True := by
    rcases hguarded with heq | heq
    · exact hchildren _ (heq ▸ ⟨⟨memory, hmemory, rfl⟩, rfl, rfl⟩)
    · exact hchildren _ (heq ▸ ⟨⟨memory, hmemory, rfl⟩, rfl, rfl⟩)
  exact hruns.bind fun _ _ ↦ count_ends.bind fun _ _ ↦ Ends.pure trivial

theorem recallAttempts_ends {memory : Tombstone} {question : Text} {report : Report}
    {attempts : List Bool} (hmemory : .tombstone memory ∈ frame.source)
    (hchildren : ChildrenEnd runner frame.source) :
    Ends (recallAttempts environment settings runner frame call memory question report attempts)
      fun _ ↦ True := by
  induction attempts with
  | nil => exact Ends.pure trivial
  | cons retried attempts ih =>
    refine Ends.note ((childAnswer_ends hmemory hchildren).bind fun answer _ ↦ ?_)
    cases answer with
    | none => exact ih
    | some answer =>
      refine resolve_ends.bind fun outcome _ ↦ ?_
      cases outcome with
      | none => exact ih
      | some result => exact Ends.pure trivial

theorem recallResult_ends {report : Report} (hchildren : ChildrenEnd runner frame.source) :
    Ends (recallResult environment settings runner frame call report) fun _ ↦ True := by
  unfold recallResult
  split
  · exact Ends.raise
  · rename_i memory question hvisible
    refine resolve_ends.bind fun outcome _ ↦ ?_
    cases outcome with
    | none => exact Ends.pure trivial
    | some envelope => exact recallAttempts_ends (mem_of_visibleMemory hvisible) hchildren

theorem runTool_ends {report : Report} (hchildren : ChildrenEnd runner frame.source) :
    Ends (runTool environment settings runner frame call report)
      fun outcome ↦ outcome.2.source = frame.source := by
  unfold runTool
  split_ifs
  · exact Ends.note (resolve_ends.bind fun _ _ ↦ Ends.pure rfl)
  · refine Ends.tryCatch ((recallResult_ends hchildren).bind fun _ _ ↦ Ends.pure rfl)
      fun failure ↦ ?_
    exact Ends.note (prohibition_ends.bind fun _ _ ↦ Ends.pure rfl)
  · exact Ends.raise

theorem settle_ends {outcome : Option ToolResult} :
    Ends (settle environment settings frame call outcome)
      fun settled ↦ settled.2.source = frame.source := by
  cases outcome with
  | some result => exact Ends.pure rfl
  | none => exact Ends.note (prohibition_ends.bind fun _ _ ↦ Ends.pure rfl)

theorem source_accept {result : ToolResult} : (accept frame call result).source = frame.source := by
  unfold accept
  split_ifs <;> rfl

theorem source_of_guarded {next : Frame} (hguarded : next = frame ∨ next = finalized frame) :
    next.source = frame.source := by
  rcases hguarded with rfl | rfl <;> rfl

theorem dispatch_ends (hchildren : ChildrenEnd runner frame.source) :
    Ends (dispatch environment settings runner frame call)
      fun outcome ↦ outcome.2.source = frame.source := by
  refine guard_ends.bind fun outcome hguarded ↦ ?_
  have hsource := source_of_guarded hguarded
  dsimp only
  split_ifs
  · exact Ends.raise
  · rw [← hsource] at hchildren
    refine (runTool_ends hchildren).bind fun ran hran ↦ settle_ends.bind fun settled hsettled ↦ ?_
    refine guard_ends.bind fun last hlast ↦ Ends.pure ?_
    exact (source_of_guarded hlast).trans
      (source_accept.trans (hsettled.trans (hran.trans hsource)))

theorem serveCalls_ends {calls : List ToolCall} (hchildren : ChildrenEnd runner frame.source) :
    Ends (serveCalls environment settings runner calls frame) fun _ ↦ True := by
  induction calls generalizing frame with
  | nil => exact Ends.pure trivial
  | cons call calls ih =>
    refine guard_ends.bind fun outcome hguarded ↦ ?_
    rw [← source_of_guarded hguarded] at hchildren
    dsimp only
    split_ifs
    · exact ih hchildren
    · exact Ends.raise
    · exact (dispatch_ends hchildren).bind fun dispatched hsource ↦ ih (hsource ▸ hchildren)

theorem dispatchBatch_ends {calls : List ToolCall} (hchildren : ChildrenEnd runner frame.source) :
    Ends (dispatchBatch environment settings runner frame calls) fun _ ↦ True := by
  refine Ends.evaluate.bind fun _ _ ↦ remaining_ends.bind fun report _ ↦ ?_
  split_ifs
  · exact Ends.raise
  · have hadmitted : ChildrenEnd runner (Frame.source { frame with
        exchanges := frame.exchanges ++ callTurns calls
        pendingResults := frame.pendingResults ++
          calls.map fun call ↦ errorResult call starvation }) := hchildren
    refine (serveCalls_ends hadmitted).bind fun served _ ↦ ?_
    exact guard_ends.bind fun _ _ ↦ Ends.pure trivial

/-! ### The loop of a frame -/

/-- The meter charges at least one token for each turn. -/
def RecallEnvironment.ChargesTurns (environment : RecallEnvironment World) : Prop :=
  ∀ turns world, ∀ tokens ∈ (environment.meter turns world).1, (turns.length : ℤ) ≤ tokens

/-- The most turns that a guard lets pass. -/
def room (settings : RecallSettings) (frame : Frame) : ℕ :=
  (settings.maxContextTokens - frame.reserve.getD settings.reserve).toNat

/-- The turns that are charged to a frame with nothing pending. -/
def load (frame : Frame) : ℕ :=
  frame.source.length + 1 + frame.exchanges.length

/-- What follows an invocation that calls tools: the frame with more turns charged. -/
structure IsContinued (next frame : Frame) : Prop where
  source : next.source = frame.source
  reserve : next.reserve = frame.reserve
  pendingResults : next.pendingResults = []
  load : load frame + 2 ≤ load next

/-- A guard stops a frame that has outgrown its room. -/
theorem guard_fits (hmeter : environment.ChargesTurns) (hidle : frame.pendingResults = []) :
    Ends (guard environment settings frame) fun outcome ↦
      (outcome.2 = frame ∨ outcome.2 = finalized frame) ∧ load frame ≤ room settings frame := by
  refine guard_ends.leaving fun state ↦ leaves_of (fun outcome final hrun ↦ ?_) fun _ _ _ ↦ trivial
  obtain ⟨tokens, hmeasured, -, hreport, hfits, -⟩ := guard_eq_ok.mp hrun
  have hcharged : ((charged frame).length : ℤ) ≤ tokens :=
    hmeter _ state.1 tokens (by rw [hmeasured]; rfl)
  have hlength : (charged frame).length = load frame := by
    simp [charged, load, hidle, resultTurns]
    omega
  rw [hreport] at hfits
  simp only [reportOf] at hfits
  unfold room
  omega

/-- A batch of at least one call adds a call and a result to the charged turns. -/
theorem dispatchBatch_continues {calls : List ToolCall} (hidle : frame.pendingResults = [])
    (hcalls : calls ≠ []) (hchildren : ChildrenEnd runner frame.source) :
    Ends (dispatchBatch environment settings runner frame calls) (IsContinued · frame) := by
  refine fun state ↦ ((dispatchBatch_ends hchildren).leaving fun state ↦ ?_) state |>.mono
    (fun _ _ h ↦ h.2) fun _ _ h ↦ h
  refine (@leaves_dispatchBatch _ environment settings runner ⟨frame, calls⟩ state hidle).mono
    (fun next final hclosed ↦ ?_) fun _ _ h ↦ h
  obtain ⟨-, ⟨results, hserved⟩, hpending, -⟩ := hclosed
  refine ⟨hserved.source, hserved.reserve, hpending, ?_⟩
  have hids := congrArg List.length hserved.ids
  simp only [hpending, List.append_nil, List.length_map] at hids
  have hpos := List.length_pos_iff.mpr hcalls
  unfold load
  rw [hserved.source, hserved.exchanges]
  simp only [List.length_append, callTurns, resultTurns, List.length_map]
  omega

/-- The calls of a response are served in a frame that has charged what the model says beside them. -/
theorem calls_continue {spoken : Frame} {calls : List ToolCall}
    (hsource : spoken.source = frame.source) (hreserve : spoken.reserve = frame.reserve)
    (hidle : spoken.pendingResults = []) (hload : load frame ≤ load spoken) (hcalls : calls ≠ [])
    (hchildren : ChildrenEnd runner frame.source) (hfits : load frame ≤ room settings frame) :
    Ends (do return ((none : Option Text), ← dispatchBatch environment settings runner spoken calls))
      fun outcome ↦ outcome.1 = none →
        IsContinued outcome.2 frame ∧ load frame ≤ room settings frame := by
  rw [← hsource] at hchildren
  refine (dispatchBatch_continues hidle hcalls hchildren).bind fun next hnext ↦ ?_
  refine Ends.pure fun _ ↦ ⟨⟨?_, ?_, hnext.pendingResults, ?_⟩, hfits⟩
  · exact hnext.source.trans hsource
  · exact hnext.reserve.trans hreserve
  · exact (Nat.add_le_add_right hload 2).trans hnext.load

/-- An invocation of the model answers, or leaves the frame with more turns charged. -/
theorem step_ends (hmeter : environment.ChargesTurns) (hidle : frame.pendingResults = [])
    (hchildren : ChildrenEnd runner frame.source) :
    Ends (step environment settings runner frame) fun outcome ↦
      outcome.1 = none → IsContinued outcome.2 frame ∧ load frame ≤ room settings frame := by
  refine (guard_fits hmeter hidle).bind fun outcome hguarded ↦ Ends.await fun answer ↦ ?_
  obtain ⟨report, guarded⟩ := outcome
  obtain ⟨hguarded, hfits⟩ := hguarded
  have hsame : guarded.source = frame.source ∧ guarded.reserve = frame.reserve ∧
      guarded.pendingResults = [] ∧ load guarded = load frame := by
    rcases hguarded with rfl | rfl
    · exact ⟨rfl, rfl, hidle, rfl⟩
    · exact ⟨rfl, rfl, hidle, rfl⟩
  obtain ⟨hsource, hreserve, hpending, hload⟩ := hsame
  cases answer with
  | error failure => exact Ends.raise
  | ok response =>
    dsimp only
    split_ifs with htruncated hinvalid hcalls hfinal hsaid
    · exact Ends.raise
    · exact Ends.raise
    · exact Ends.raise
    · refine calls_continue (by exact hsource) hreserve hpending ?_ hcalls hchildren hfits
      rw [← hload]
      simp [load]
    · exact calls_continue hsource hreserve hpending hload.ge hcalls hchildren hfits
    · cases response.content with
      | none => exact Ends.raise
      | some answer =>
        dsimp only
        split_ifs
        · exact Ends.pure fun hanswer ↦ by cases hanswer
        · exact Ends.raise

/-- A frame whose room is within the number of invocations ends. -/
theorem loop_ends (hmeter : environment.ChargesTurns) {steps : ℕ}
    (hidle : frame.pendingResults = []) (hchildren : ChildrenEnd runner frame.source)
    (hpos : 0 < steps) (hroom : room settings frame + 1 < load frame + steps) :
    Ends (loop environment settings runner steps frame) fun _ ↦ True := by
  induction steps generalizing frame with
  | zero => cases hpos
  | succ steps ih =>
    refine (step_ends hmeter hidle hchildren).bind fun outcome hstep ↦ ?_
    obtain ⟨answer, next⟩ := outcome
    cases answer with
    | some answer => exact Ends.pure trivial
    | none =>
      obtain ⟨hnext, hfits⟩ := hstep rfl
      have hsame : room settings next = room settings frame := by rw [room, hnext.reserve, room]
      have hload : load frame + 2 ≤ load next := hnext.load
      refine ih hnext.pendingResults (hnext.source ▸ hchildren) ?_ ?_
      · omega
      · omega

/-! ### Frames inside each other -/

/-- How many tombstones are inside each other, from this one on. -/
def layers : Tombstone → ℕ
  | ⟨_, _, _, _, none, _⟩ => 1
  | ⟨_, _, _, _, some inner, _⟩ => layers inner + 1

/-- How many tombstones are at most inside each other, from those of the source on. -/
def nesting (source : List HistoryTurn) : ℕ :=
  (source.filterMap tombstone?).foldr (fun memory deepest ↦ max (layers memory) deepest) 0

theorem layers_le_nesting {source : List HistoryTurn} {memory : Tombstone}
    (hmemory : .tombstone memory ∈ source) : layers memory ≤ nesting source := by
  induction source with
  | nil => cases hmemory
  | cons turn rest ih =>
    rcases List.mem_cons.mp hmemory with rfl | hrest
    · exact le_max_left _ _
    · cases turn with
      | message message => exact ih hrest
      | tombstone other => exact (ih hrest).trans (le_max_right _ _)

/-- What a tombstone hides has one layer less. -/
theorem nesting_recallSource (memory : Tombstone) :
    nesting (recallSource memory) + 1 = layers memory := by
  obtain ⟨_, _, messages, _, inner, _⟩ := memory
  have hmessages : (messages.map HistoryTurn.message).filterMap tombstone? = [] := by
    rw [List.filterMap_map]
    exact List.filterMap_eq_nil_iff.mpr fun _ _ ↦ rfl
  cases inner with
  | none => simp [recallSource, nesting, layers, hmessages]
  | some inner => simp [recallSource, nesting, layers, hmessages, tombstone?]

theorem run_ends (hmeter : environment.ChargesTurns) {steps depth : ℕ}
    (hidle : frame.pendingResults = []) (hdepth : nesting frame.source < depth)
    (hroom : room settings frame < steps)
    (hreserve : (settings.maxContextTokens - settings.reserve).toNat < steps) :
    Ends (run environment settings steps depth frame) fun _ ↦ True := by
  induction depth generalizing frame with
  | zero => cases hdepth
  | succ depth ih =>
    have hchildren : ChildrenEnd (run environment settings steps depth) frame.source := by
      intro child hchild
      obtain ⟨memory, hmemory, hsource⟩ := hchild.recalls
      have hlayers := (nesting_recallSource memory).trans_le (layers_le_nesting hmemory)
      refine ih hchild.pendingResults ?_ ?_
      · rw [hsource]
        omega
      · rw [room, hchild.reserve]
        exact hreserve
    have hload : 0 < load frame := by
      unfold load
      omega
    refine loop_ends hmeter hidle hchildren ?_ ?_
    · omega
    · omega

/-- For every meter that charges at least one token for each turn, every model and every frame with
nothing pending, a run ends: with an answer or an exception, with frames inside each other no deeper
than the tombstones of its source, and in each frame with at most one invocation of the model more
than the tokens of its room. -/
theorem run_terminates (hmeter : environment.ChargesTurns) {steps depth : ℕ}
    (hidle : frame.pendingResults = []) (hdepth : nesting frame.source < depth)
    (hroom : room settings frame < steps)
    (hreserve : (settings.maxContextTokens - settings.reserve).toNat < steps)
    (state : World × List Deed) :
    (run environment settings steps depth frame state).1 ≠ .error .outOfFuel := by
  intro hend
  have hends : Leaves (run environment settings steps depth frame) state _ _ :=
    run_ends hmeter hidle hdepth hroom hreserve state
  exact hends.of_error (Prod.ext hend rfl) rfl

/-- The small frame ends within two frames and nineteen invocations in each. -/
theorem run_terminates_small :
    (run Example.environment Example.settings 19 2 Example.frame ((), [])).1 ≠
      .error .outOfFuel := by
  refine run_terminates (fun turns world tokens htokens ↦ ?_) rfl (by decide) (by decide) (by decide) _
  obtain rfl := Option.some.inj htokens
  exact le_rfl

end Ads.Context.Recall
