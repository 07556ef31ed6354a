import Ads.Context.Frames

/-!
# Provider messages

The messages that a provider of models is sent for the turns of a history. A provider rejects a
message of a tool that does not answer a call of the assistant message before it, and an assistant
message with a call that no tool message answers at once: `IsWellFormed` is what it accepts.

Two parts of the program build such messages turn by turn, and they do it in two ways: the engine
keeps the assistant message that may still get calls in variables of its own, and a recall frame adds
calls to the last message of its list. Both are an `Assembly`, which keeps the assistant message that
is still open apart from those that are closed; what it makes of turns in batches is well formed and
keeps every text, call and result in order (`Assembly.assembles`).
-/

set_option autoImplicit false
set_option relaxedAutoImplicit false

namespace Ads.Context

open Python Recall

/-! ### Messages -/

/-- A call of an assistant message. -/
structure ProviderCall where
  id : Text
  name : Text
  args : List (Text × Json)

/-- `ToolMessage`. -/
structure ToolMessage where
  content : Text
  toolCallId : Text
  name : Text
  status : ResultStatus := .success
  artifact : Option Json := none
  additionalKwargs : List (Text × Json) := []

/-- `BaseMessage`. -/
inductive ProviderMessage where
  | system (content : Text)
  | human (content : Text)
  | ai (content : Text) (toolCalls : List ProviderCall)
  | tool (message : ToolMessage)

/-- The message is one of a tool. -/
def ProviderMessage.IsTool : ProviderMessage → Prop
  | .tool _ => True
  | _ => False

/-- The calls of a message. -/
def ProviderMessage.calls : ProviderMessage → List ProviderCall
  | .ai _ toolCalls => toolCalls
  | _ => []

/-- Tool messages that answer every call exactly once. -/
def Answers (answers : List ToolMessage) (calls : List ProviderCall) : Prop :=
  (answers.map ToolMessage.toolCallId).Perm (calls.map ProviderCall.id)

/-- Messages that are groups of a message and the tool messages that answer its calls. -/
inductive Grouped : List ProviderMessage → Prop
  | nil : Grouped []
  | group (message : ProviderMessage) (answers : List ToolMessage) (rest : List ProviderMessage)
      (hkind : ¬ message.IsTool) (hanswers : Answers answers message.calls) (hrest : Grouped rest) :
      Grouped (message :: answers.map .tool ++ rest)

section Groups

variable {messages others : List ProviderMessage} {message : ProviderMessage}
  {answers : List ToolMessage}

/-- A message without calls is a group of its own. -/
theorem Grouped.cons (hkind : ¬ message.IsTool) (hcalls : message.calls = [])
    (hrest : Grouped others) : Grouped (message :: others) := by
  refine Grouped.group message [] others hkind ?_ hrest
  rw [hcalls]
  exact List.Perm.refl []

/-- Groups after groups. -/
theorem Grouped.append (hmessages : Grouped messages) (hothers : Grouped others) :
    Grouped (messages ++ others) := by
  induction hmessages with
  | nil => exact hothers
  | group message answers rest hkind hanswers _ ih =>
    rw [List.append_assoc]
    exact Grouped.group message answers _ hkind hanswers ih

end Groups

/-! ### Batches -/

/-- A history in which the results of every batch of calls stand right behind its calls, one for
each of them in any order. -/
inductive Batched : List HistoryTurn → Prop
  | nil : Batched []
  | tombstone (memory : Tombstone) (rest : List HistoryTurn) (hrest : Batched rest) :
      Batched (.tombstone memory :: rest)
  | user (text : Text) (rest : List HistoryTurn) (hrest : Batched rest) :
      Batched (.message (.user text) :: rest)
  | assistant (text : Text) (rest : List HistoryTurn) (hrest : Batched rest) :
      Batched (.message (.assistant text) :: rest)
  | batch (calls : List ToolCall) (results : List ToolResult) (rest : List HistoryTurn)
      (hids : (results.map ToolResult.toolCallId).Perm (calls.map ToolCall.id))
      (hrest : Batched rest) : Batched (callTurns calls ++ resultTurns results ++ rest)

/-- Batches after batches. -/
theorem Batched.append {turns others : List HistoryTurn} (hturns : Batched turns)
    (hothers : Batched others) : Batched (turns ++ others) := by
  induction hturns with
  | nil => exact hothers
  | tombstone memory rest _ ih => exact .tombstone memory _ ih
  | user text rest _ ih => exact .user text _ ih
  | assistant text rest _ ih => exact .assistant text _ ih
  | batch calls results rest hids _ ih =>
    rw [List.append_assoc]
    exact .batch calls results _ hids ih

/-- A piece of a history, as a provider is shown it. -/
inductive Piece where
  | system (content : Text)
  | human (content : Text)
  | ai (content : Text)
  | call (call : ProviderCall)
  | tool (message : ToolMessage)

/-- The text of an assistant, if there is one. -/
def saidPieces (content : Text) : List Piece :=
  if content = [] then [] else [.ai content]

/-- The pieces of a message. -/
def ProviderMessage.pieces : ProviderMessage → List Piece
  | .system content => [.system content]
  | .human content => [.human content]
  | .ai content calls => saidPieces content ++ calls.map .call
  | .tool message => [.tool message]

/-- How the turns of a history are shown. -/
structure Display where
  memory : Tombstone → Text
  call : ToolCall → ProviderCall
  tool : ToolResult → ToolMessage
  call_id : ∀ turn, (call turn).id = turn.id
  tool_toolCallId : ∀ turn, (tool turn).toolCallId = turn.toolCallId

variable {display : Display}

/-- The pieces of a turn. -/
def Display.pieces (display : Display) : HistoryTurn → List Piece
  | .tombstone memory => [.human (display.memory memory)]
  | .message (.user text) => [.human text]
  | .message (.assistant text) => saidPieces text
  | .message (.toolCall call) => [.call (display.call call)]
  | .message (.toolResult result) => [.tool (display.tool result)]

/-- The pieces of some calls. -/
theorem flatMap_pieces_callTurns {calls : List ToolCall} :
    (callTurns calls).flatMap display.pieces = calls.map fun call ↦ .call (display.call call) := by
  induction calls with
  | nil => rfl
  | cons call calls ih => exact congrArg (_ :: ·) ih

/-- The pieces of some results. -/
theorem flatMap_pieces_resultTurns {results : List ToolResult} :
    (resultTurns results).flatMap display.pieces =
      results.map fun result ↦ .tool (display.tool result) := by
  induction results with
  | nil => rfl
  | cons result results ih => exact congrArg (_ :: ·) ih

/-! ### Assembly -/

/-- Messages that are closed, and the text and calls of an assistant message that may get more. -/
structure Assembly where
  closed : List ProviderMessage
  pending : Option (Text × List ProviderCall)

namespace Assembly

/-- The messages, with the one that is open. -/
def messages (assembly : Assembly) : List ProviderMessage :=
  assembly.closed ++ (assembly.pending.map fun pending ↦ .ai pending.1 pending.2).toList

/-- The message that is open is closed, and others follow it. -/
def add (assembly : Assembly) (added : List ProviderMessage) : Assembly where
  closed := assembly.messages ++ added
  pending := none

/-- A text of the assistant opens a message. -/
def say (assembly : Assembly) (text : Text) : Assembly where
  closed := assembly.messages
  pending := some (text, [])

/-- A call is added to the message that is open, or opens one. -/
def call (assembly : Assembly) (call : ProviderCall) : Assembly where
  closed := assembly.closed
  pending := some ((assembly.pending.getD ([], [])).1, (assembly.pending.getD ([], [])).2 ++ [call])

/-- A turn. -/
def take (display : Display) (assembly : Assembly) : HistoryTurn → Assembly
  | .tombstone memory => assembly.add [.human (display.memory memory)]
  | .message (.user text) => assembly.add [.human text]
  | .message (.assistant text) => assembly.say text
  | .message (.toolCall call) => assembly.call (display.call call)
  | .message (.toolResult result) => assembly.add [.tool (display.tool result)]

variable {assembly : Assembly}

/-- The pieces of the message that is open. -/
def pendingPieces (assembly : Assembly) : List Piece :=
  saidPieces (assembly.pending.getD ([], [])).1

/-- No call waits for its result. -/
def IsSettled (assembly : Assembly) : Prop :=
  (assembly.pending.getD ([], [])).2 = []

/-- What an assembly makes of some turns: groups behind what was closed, with all pieces of the turns
in order behind the text that was open. -/
def Assembles (assembly final : Assembly) (pieces : List Piece) : Prop :=
  ∃ tail, final.messages = assembly.closed ++ tail ∧ Grouped tail ∧
    tail.flatMap ProviderMessage.pieces = assembly.pendingPieces ++ pieces

/-- An assembly that is settled closes to a group. -/
theorem IsSettled.assembles (hsettled : assembly.IsSettled) : assembly.Assembles assembly [] := by
  obtain ⟨closed, pending⟩ := assembly
  cases pending with
  | none => exact ⟨[], rfl, Grouped.nil, rfl⟩
  | some pending =>
    obtain ⟨text, calls⟩ := pending
    obtain rfl : calls = [] := hsettled
    exact ⟨[.ai text []], rfl, Grouped.nil.cons id rfl,
      by simp [ProviderMessage.pieces, pendingPieces]⟩

/-- Messages that are added to a settled assembly go before what follows. -/
theorem Assembles.of_add {final : Assembly} {added : List ProviderMessage} {pieces : List Piece}
    (hsettled : assembly.IsSettled) (hadded : Grouped added)
    (hfinal : (assembly.add added).Assembles final pieces) :
    assembly.Assembles final (added.flatMap ProviderMessage.pieces ++ pieces) := by
  obtain ⟨tail, htail, hgrouped, hpieces⟩ := hfinal
  obtain ⟨front, hfront, hgroupedFront, hfrontPieces⟩ := hsettled.assembles
  refine ⟨front ++ added ++ tail, ?_, (hgroupedFront.append hadded).append hgrouped, ?_⟩
  · rw [htail, add, hfront]
    simp
  · rw [List.flatMap_append, List.flatMap_append, hfrontPieces, hpieces]
    simp [pendingPieces, add, saidPieces]

/-- A text of the assistant closes a settled assembly. -/
theorem Assembles.of_say {final : Assembly} {text : Text} {pieces : List Piece}
    (hsettled : assembly.IsSettled) (hfinal : (assembly.say text).Assembles final pieces) :
    assembly.Assembles final (saidPieces text ++ pieces) := by
  obtain ⟨tail, htail, hgrouped, hpieces⟩ := hfinal
  obtain ⟨front, hfront, hgroupedFront, hfrontPieces⟩ := hsettled.assembles
  refine ⟨front ++ tail, ?_, hgroupedFront.append hgrouped, ?_⟩
  · rw [htail, say, hfront]
    simp
  · rw [List.flatMap_append, hfrontPieces, hpieces]
    simp [pendingPieces, say]

/-- Calls are added to the message that is open. -/
theorem foldl_calls {first : ToolCall} {calls : List ToolCall} :
    (callTurns (first :: calls)).foldl (take display) assembly =
      { closed := assembly.closed
        pending := some ((assembly.pending.getD ([], [])).1,
          (assembly.pending.getD ([], [])).2 ++ (first :: calls).map display.call) } := by
  induction calls generalizing first assembly with
  | nil => rfl
  | cons second calls ih =>
    rw [callTurns, List.map_cons, List.foldl_cons, ← callTurns, ih]
    simp [take, call]

/-- Results are added behind the message that is open. -/
theorem foldl_results {first : ToolResult} {results : List ToolResult} :
    (resultTurns (first :: results)).foldl (take display) assembly =
      assembly.add ((first :: results).map fun result ↦ .tool (display.tool result)) := by
  induction results generalizing first assembly with
  | nil => rfl
  | cons second results ih =>
    rw [resultTurns, List.map_cons, List.foldl_cons, ← resultTurns, ih]
    simp [take, add, messages]

/-- The calls of a batch and its results are a group. -/
theorem Assembles.of_batch {final : Assembly} {pieces : List Piece} {calls : List ToolCall}
    {results : List ToolResult}
    (hids : (results.map ToolResult.toolCallId).Perm (calls.map ToolCall.id))
    (hfinal : Assembles (add
      { closed := assembly.closed
        pending := some ((assembly.pending.getD ([], [])).1, [] ++ calls.map display.call) }
      (results.map fun result ↦ .tool (display.tool result))) final pieces) :
    assembly.Assembles final
      ((callTurns calls ++ resultTurns results).flatMap display.pieces ++ pieces) := by
  obtain ⟨tail, htail, hgrouped, hpieces⟩ := hfinal
  refine ⟨.ai (assembly.pending.getD ([], [])).1 (calls.map display.call) ::
    (results.map display.tool).map .tool ++ tail, ?_, ?_, ?_⟩
  · rw [htail, add, messages]
    simp
  · refine Grouped.group _ _ tail id ?_ hgrouped
    simpa [Answers, ProviderMessage.calls, Function.comp_def, display.call_id,
      display.tool_toolCallId] using hids
  · rw [List.flatMap_append, hpieces]
    simp [ProviderMessage.pieces, pendingPieces, add, saidPieces, flatMap_pieces_callTurns,
      flatMap_pieces_resultTurns, List.flatMap_map, Function.comp_def]
    exact List.map_eq_flatMap.symm

/-- Turns in batches are assembled to groups, with all their pieces in order. -/
theorem assembles {turns : List HistoryTurn} (hturns : Batched turns)
    (hsettled : assembly.IsSettled) :
    assembly.Assembles (turns.foldl (take display) assembly) (turns.flatMap display.pieces) := by
  induction hturns generalizing assembly with
  | nil => exact hsettled.assembles
  | tombstone memory rest _ ih =>
    exact Assembles.of_add hsettled (Grouped.nil.cons id rfl) (ih rfl)
  | user text rest _ ih => exact Assembles.of_add hsettled (Grouped.nil.cons id rfl) (ih rfl)
  | assistant text rest _ ih => exact Assembles.of_say hsettled (ih rfl)
  | batch calls results rest hids _ ih =>
    rw [List.foldl_append, List.foldl_append]
    have hlength := hids.length_eq
    rw [List.length_map, List.length_map] at hlength
    cases calls with
    | nil =>
      obtain rfl := List.eq_nil_of_length_eq_zero hlength
      exact ih hsettled
    | cons call calls =>
      cases results with
      | nil => cases hlength
      | cons result results =>
        have hnone : (assembly.pending.getD ([], [])).2 = [] := hsettled
        rw [foldl_calls, foldl_results, hnone, List.flatMap_append]
        exact Assembles.of_batch hids (ih rfl)

end Assembly

/-! ### Encoding -/

/-- `msgspec.json.encode`, and `json.dumps` with `ensure_ascii=False` with its own separators or the
compact ones. -/
structure JsonEncoder where
  encode : Json → Text
  dumps : Json → Text
  dumpsCompact : Json → Text

/-- The object that stands for a memory. -/
def memoryObject (memory : Tombstone) : Json :=
  .object [("memory_id".toList, .string (uuidText memory.memoryId)),
    ("summary".toList, .string memory.summarization),
    ("recall".toList,
      .string "memory_recall(memory_id, question) retrieves archived evidence".toList)]

/-- `memory_text`. -/
def memoryText (encoder : JsonEncoder) (memory : Tombstone) : Text :=
  encoder.encode (memoryObject memory)

end Ads.Context
