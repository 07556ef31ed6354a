import Ads.Context.FrameMessages

/-!
# The messages of the engine

`context_messages` of the engine: the messages that the model of a run is sent for its history and
instructions. The assistant message that may still get calls is kept in variables until the next
turn that is no call flushes it.
-/

set_option autoImplicit false
set_option relaxedAutoImplicit false

namespace Ads.Engine

open Context Context.Recall Python

variable (encoder : JsonEncoder)

/-! ### Messages -/

/-- `_langchain_tool_call`. -/
def langchainToolCall (call : ToolCall) : ProviderCall where
  id := call.id
  name := call.name
  args := call.arguments

/-- `json.dumps` of what is not a text. -/
def resultContent : Json → Text
  | .string text => text
  | content => encoder.dumpsCompact content

/-- `extra.pop("artifact", None)`, where `None` is no artifact. -/
def artifactOf (metadata : List (Text × Json)) : Option Json :=
  match metadata.lookup "artifact".toList with
  | none | some .null => none
  | some artifact => some artifact

/-- `_tool_message`. -/
def toolMessage (result : ToolResult) : ToolMessage where
  content := resultContent encoder result.content
  toolCallId := result.toolCallId
  name := result.name
  status := result.status
  artifact := artifactOf result.metadata
  additionalKwargs := result.metadata.filter fun entry ↦ entry.1 ≠ "artifact".toList

/-- The variables of `context_messages`. -/
structure Chat where
  messages : List ProviderMessage
  pendingText : Text := []
  pendingCalls : List ToolCall := []
  pendingAssistant : Bool := false

/-- `flush_assistant`. -/
def flushAssistant (chat : Chat) : Chat :=
  if chat.pendingAssistant = false then chat
  else
    { messages :=
        if chat.pendingCalls ≠ [] then
          chat.messages ++ [.ai chat.pendingText (chat.pendingCalls.map langchainToolCall)]
        else chat.messages ++ [.ai chat.pendingText []] }

/-- A message behind the one that is flushed. -/
def flushAndAppend (chat : Chat) (message : ProviderMessage) : Chat :=
  let chat := flushAssistant chat
  { chat with messages := chat.messages ++ [message] }

/-- A turn in the loop of `context_messages`. -/
def takeTurn (chat : Chat) : HistoryTurn → Chat
  | .tombstone memory => flushAndAppend chat (.human (memoryText encoder memory))
  | .message (.user text) => flushAndAppend chat (.human text)
  | .message (.assistant text) =>
    { flushAssistant chat with pendingText := text, pendingAssistant := true }
  | .message (.toolCall call) =>
    { chat with pendingAssistant := true, pendingCalls := chat.pendingCalls ++ [call] }
  | .message (.toolResult result) => flushAndAppend chat (.tool (toolMessage encoder result))

/-- The message of the instructions, if there are any. -/
def instructionMessages (instructions : Text) : List ProviderMessage :=
  if instructions ≠ [] then [.system instructions] else []

/-- `context_messages`. -/
def contextMessages (history : List HistoryTurn) (instructions : Text) : List ProviderMessage :=
  (flushAssistant
    (history.foldl (takeTurn encoder) { messages := instructionMessages instructions })).messages

/-! ### Assembly -/

/-- The variables as an assembly. -/
def Chat.assembly (chat : Chat) : Assembly where
  closed := chat.messages
  pending :=
    if chat.pendingAssistant then some (chat.pendingText, chat.pendingCalls.map langchainToolCall)
    else none

variable {encoder} {chat : Chat}

namespace Example

/-- An encoder that writes texts as they are and everything else as nothing. -/
def plainEncoder : JsonEncoder where
  encode _ := "{}".toList
  dumps _ := "{}".toList
  dumpsCompact _ := "{}".toList

/-- A call of a tool. -/
def call (id : String) : ToolCall where
  id := id.toList
  name := "read".toList
  arguments := []

/-- Its result. -/
def result (id : String) : ToolResult where
  toolCallId := id.toList
  name := "read".toList
  status := .success
  content := .string "done".toList

/-- The assistant speaks and calls twice, the results come in the other order, and it calls again. -/
def exchanges : List HistoryTurn :=
  .message (.assistant "looking".toList) ::
    (callTurns [call "a", call "b"] ++ resultTurns [result "b", result "a"] ++
      (callTurns [call "c"] ++ resultTurns [result "c"] ++ []))

/-- A history with these exchanges. -/
def history : List HistoryTurn :=
  .message (.user "why".toList) :: exchanges

/-- A frame with these exchanges. -/
def frame : Frame :=
  { Recall.Example.frame with exchanges := exchanges }

end Example

end Ads.Engine
