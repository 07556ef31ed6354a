import Ads.Context.FrameBatches
import Ads.Context.ProviderMessages

/-!
# The messages of a recall frame

`provider_messages` of a recall frame: the system message with the budget, the source as quoted
evidence, the question, and the exchanges with the model so far. The exchanges of every frame that
the runtime asks its model about are in batches (`leaves_step_exchanged`), so the messages are well
formed (`providerMessages_wellFormed`).
-/

set_option autoImplicit false
set_option relaxedAutoImplicit false

namespace Ads.Context.Recall

open Foundation.Interrupted Foundation.Interrupted.Program Foundation.Runs Python

variable (encoder : JsonEncoder)

/-! ### Messages -/

/-- The text of a status. -/
def statusText : ResultStatus → Text
  | .success => "success".toList
  | .error => "error".toList

/-- `msgspec.to_builtins` without `metadata` and `task_transitions`. -/
def builtins : Message → Json
  | .user text => .object [("type".toList, .string "user".toList), ("text".toList, .string text)]
  | .assistant text =>
    .object [("type".toList, .string "assistant".toList), ("text".toList, .string text)]
  | .toolCall call =>
    .object [("type".toList, .string "tool_call".toList), ("id".toList, .string call.id),
      ("name".toList, .string call.name), ("arguments".toList, .object call.arguments)]
  | .toolResult result =>
    .object [("type".toList, .string "tool_result".toList),
      ("tool_call_id".toList, .string result.toolCallId), ("name".toList, .string result.name),
      ("status".toList, .string (statusText result.status)), ("content".toList, result.content)]

/-- A turn of the source as evidence. The text of a memory is read back as its object. -/
def evidence : HistoryTurn → Json
  | .tombstone memory => memoryObject memory
  | .message message => builtins message

/-- An integer or `None` in a text. -/
def integerText : Option ℤ → Text
  | some value => (toString value).toList
  | none => "None".toList

/-- The turns that a frame exchanges with its model. -/
def IsExchange : HistoryTurn → Prop
  | .message (.assistant _) | .message (.toolCall _) | .message (.toolResult _) => True
  | .message (.user _) | .tombstone _ => False

variable {encoder} {assembly : Assembly} {frame : Frame} {total remaining : Option ℤ}

/-- A frame that the runtime may ask its model about: its exchanges are in batches, and nothing is
reserved. -/
structure IsExchanged (frame : Frame) : Prop where
  batched : Batched frame.exchanges
  exchanges : ∀ turn ∈ frame.exchanges, IsExchange turn
  idle : frame.pendingResults = []

variable {World : Type} {environment : RecallEnvironment World} {settings : RecallSettings}
  {runner : Runner World} {state : World × List Deed}

theorem IsExchanged.finalized (hexchanged : IsExchanged frame) : IsExchanged (finalized frame) :=
  ⟨hexchanged.batched, hexchanged.exchanges, hexchanged.idle⟩

/-- A child frame is new. -/
theorem isExchanged_childFrame {memory : Tombstone} {question : Text} {cap : ℤ}
    {retried topLevel : Bool} :
    IsExchanged (childFrame settings memory question cap retried topLevel) where
  batched := .nil
  exchanges _ hturn := by cases hturn
  idle := rfl

/-- A text of the assistant is an exchange. -/
theorem IsExchanged.say (hexchanged : IsExchanged frame) (text : Text) :
    IsExchanged { frame with exchanges := frame.exchanges ++ [.message (.assistant text)] } := by
  refine ⟨hexchanged.batched.append (.assistant text [] .nil), fun turn hturn ↦ ?_, hexchanged.idle⟩
  rcases List.mem_append.mp hturn with hold | hnew
  · exact hexchanged.exchanges turn hold
  · rw [List.mem_singleton.mp hnew]
    trivial

/-- A batch that was served is an exchange. -/
theorem IsExchanged.serve {calls : List ToolCall} {results : List ToolResult} {next : Frame}
    (hexchanged : IsExchanged frame) (hserved : Served ⟨frame, calls⟩ results next)
    (hidle : next.pendingResults = []) : IsExchanged next := by
  have hids := hserved.ids
  rw [hidle, List.append_nil] at hids
  have hbatch : Batched (callTurns calls ++ resultTurns results ++ []) :=
    .batch calls results [] (hids ▸ List.Perm.refl _) .nil
  rw [List.append_nil] at hbatch
  have hexchanges := hserved.exchanges
  rw [List.append_assoc] at hexchanges
  refine ⟨hexchanges ▸ hexchanged.batched.append hbatch, fun turn hturn ↦ ?_, hidle⟩
  rw [hexchanges, List.mem_append, List.mem_append] at hturn
  rcases hturn with hold | hcall | hresult
  · exact hexchanged.exchanges turn hold
  · obtain ⟨call, -, rfl⟩ := List.mem_map.mp hcall
    trivial
  · obtain ⟨result, -, rfl⟩ := List.mem_map.mp hresult
    trivial

/-- A guard leaves a frame to be asked about. -/
theorem leaves_guard_exchanged (hexchanged : IsExchanged frame) :
    Leaves (guard environment settings frame) state (fun outcome _ ↦ IsExchanged outcome.2)
      fun _ _ ↦ True := by
  have hkept : Batch.Kept ⟨frame, []⟩ state.2 (frame.finalizationOnly = false) state.2 :=
    ⟨[], (List.append_nil _).symm, Along.nil, fun hopen hfinal ↦ by
      simp [Batch.IsFinal, hopen] at hfinal⟩
  have hcharged : Batch.IsCharged ⟨frame, []⟩ (charged frame) :=
    ⟨[], by simp [charged, hexchanged.idle, resultTurns, callTurns], rfl⟩
  refine (leaves_guard hkept hcharged).mono (fun outcome _ houtcome ↦ ?_) fun _ _ _ ↦ trivial
  rcases houtcome.1 with hsame | hfinal
  · exact hsame ▸ hexchanged
  · exact hfinal ▸ hexchanged.finalized

/-- A batch leaves a frame to be asked about. -/
theorem leaves_dispatchBatch_exchanged {calls : List ToolCall} (hexchanged : IsExchanged frame) :
    Leaves (dispatchBatch environment settings runner frame calls) state
      (fun next _ ↦ IsExchanged next) fun _ _ ↦ True := by
  refine (@leaves_dispatchBatch _ environment settings runner ⟨frame, calls⟩ state
    hexchanged.idle).mono (fun next _ hnext ↦ ?_) fun _ _ _ ↦ trivial
  obtain ⟨-, ⟨results, hserved⟩, hidle, -⟩ := hnext
  exact hexchanged.serve hserved hidle

/-- A round of the runtime asks about such a frame, and leaves one. -/
theorem leaves_step_exchanged (hexchanged : IsExchanged frame) :
    Leaves (step environment settings runner frame) state (fun outcome _ ↦ IsExchanged outcome.2)
      fun _ _ ↦ True := by
  unfold step
  refine (leaves_guard_exchanged hexchanged).bind fun outcome between hguarded ↦ ?_
  rw [leaves_bind, leaves_await]
  generalize environment.invoke _ _ = answered
  obtain ⟨response, world⟩ := answered
  cases response with
  | error failure => trivial
  | ok response =>
    dsimp only
    split_ifs
    · trivial
    · trivial
    · trivial
    · refine (leaves_dispatchBatch_exchanged (hguarded.say _)).bind fun next final hnext ↦ ?_
      exact hnext
    · refine (leaves_dispatchBatch_exchanged hguarded).bind fun next final hnext ↦ ?_
      exact hnext
    · cases response.content with
      | none => trivial
      | some answer =>
        dsimp only
        split_ifs
        · exact hguarded
        · trivial

end Ads.Context.Recall
