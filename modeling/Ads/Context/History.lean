import Ads.Python.Values

/-!
# The history of a conversation

The turns that the engine, the context services and the transcript exchange. A history is a list of
turns. A tombstone stands for turns that were compacted away: it keeps them in its archive, oldest
first behind the tombstone that it replaced, together with the turns that stay visible after it.
-/

set_option autoImplicit false
set_option relaxedAutoImplicit false

namespace Ads.Context

open Python

/-- What became of a task. -/
inductive TaskState where
  | created
  | succeeded
  | failed
  | cancelled
  deriving DecidableEq

/-- `TaskTransition`. -/
structure TaskTransition where
  taskId : Text
  state : TaskState
  deriving DecidableEq

/-- `ToolCall`. -/
structure ToolCall where
  id : Text
  name : Text
  arguments : List (Text × Json)
  metadata : List (Text × Json) := []

/-- The `status` of a `ToolResult`. -/
inductive ResultStatus where
  | success
  | error
  deriving DecidableEq

/-- `ToolResult`. -/
structure ToolResult where
  toolCallId : Text
  name : Text
  status : ResultStatus
  content : Json
  metadata : List (Text × Json) := []
  taskTransitions : List TaskTransition := []

/-- A turn that is not a tombstone. -/
inductive Message where
  | user (text : Text)
  | assistant (text : Text)
  | toolCall (call : ToolCall)
  | toolResult (result : ToolResult)

/-- `Tombstone`. Its summary is not blank. -/
structure Tombstone where
  memoryId : Uuid
  summarization : Text
  messages : List Message
  remainingMessages : List Message
  innerTombstone : Option Tombstone
  summarization_visible : IsVisible summarization

/-- `HistoryTurn`. -/
inductive HistoryTurn where
  | message (message : Message)
  | tombstone (memory : Tombstone)

/-- `active_context`: the tombstone and the turns that stay visible after it. -/
def activeContext (memory : Tombstone) : List HistoryTurn :=
  .tombstone memory :: memory.remainingMessages.map .message

/-- `recall_source`: what a tombstone hides. -/
def recallSource (memory : Tombstone) : List HistoryTurn :=
  (memory.innerTombstone.map HistoryTurn.tombstone).toList ++ memory.messages.map .message

namespace Tombstone

/-- Everything that the tombstone and the tombstones inside it archived, oldest first. -/
def archive : Tombstone → List Message
  | ⟨_, _, messages, _, none, _⟩ => messages
  | ⟨_, _, messages, _, some inner, _⟩ => inner.archive ++ messages

end Tombstone

/-- The archive of a tombstone that may be missing. -/
def archiveOf (memory : Option Tombstone) : List Message :=
  memory.elim [] Tombstone.archive

/-- A tombstone archives its messages behind the archive of the tombstone inside it. -/
theorem Tombstone.archive_eq (memory : Tombstone) :
    memory.archive = archiveOf memory.innerTombstone ++ memory.messages := by
  obtain ⟨_, _, messages, _, inner, _⟩ := memory
  cases inner with
  | none => rw [Tombstone.archive]; rfl
  | some inner => rw [Tombstone.archive]; rfl

/-- The tombstone that a history starts with. -/
def memoryOf : List HistoryTurn → Option Tombstone
  | .tombstone memory :: _ => some memory
  | _ => none

/-- The turns of a history after the tombstone that it starts with. -/
def turnsOf : List HistoryTurn → List HistoryTurn
  | .tombstone _ :: rest => rest
  | source => source

/-- The whole conversation that a history stands for: the archive of the tombstone that it starts
with, and its other turns. -/
def conversation (source : List HistoryTurn) : List HistoryTurn :=
  (archiveOf (memoryOf source)).map .message ++ turnsOf source

/-- The turn as a message, if it is one. -/
def HistoryTurn.message? : HistoryTurn → Option Message
  | .message item => some item
  | .tombstone _ => none

/-- Whether the turn is a tombstone. -/
def HistoryTurn.isTombstone : HistoryTurn → Bool
  | .message _ => false
  | .tombstone _ => true

/-- `[item for item in source if not isinstance(item, Tombstone)]`. -/
def messagesOf (source : List HistoryTurn) : List Message :=
  source.filterMap HistoryTurn.message?

/-- The context of a tombstone stands for its archive and the turns that stay visible. -/
theorem conversation_activeContext (memory : Tombstone) :
    conversation (activeContext memory) =
      (memory.archive ++ memory.remainingMessages).map .message := by
  rw [List.map_append]
  rfl

/-- Turns without a tombstone are their messages. -/
theorem map_messagesOf {source : List HistoryTurn}
    (hsource : source.any HistoryTurn.isTombstone = false) :
    (messagesOf source).map .message = source := by
  induction source with
  | nil => rfl
  | cons turn rest ih =>
    rw [List.any_cons, Bool.or_eq_false_iff] at hsource
    cases turn with
    | message message =>
      change HistoryTurn.message message :: (messagesOf rest).map .message = _
      rw [ih hsource.2]
    | tombstone memory => cases hsource.1

@[simp] theorem messagesOf_map_message (messages : List Message) :
    messagesOf (messages.map .message) = messages := by
  induction messages with
  | nil => rfl
  | cons message rest ih =>
    change message :: messagesOf (rest.map .message) = _
    rw [ih]

@[simp] theorem messagesOf_append (first second : List HistoryTurn) :
    messagesOf (first ++ second) = messagesOf first ++ messagesOf second :=
  List.filterMap_append

end Ads.Context
