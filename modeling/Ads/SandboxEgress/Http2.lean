import Ads.Foundation.Runs
import Ads.SandboxEgress.RequestAuthorization

/-!
# The HTTP/2 message gate

The model of `http2.py`. `HTTP2Connection` puts a gate before the messages of the library `h2`: a
header block has to pass `_headers`, and a body is counted against its length. A message that fails
resets its stream; any other exception ends the connection.

The library is a parameter, with a state of its own and one function for each call the gate makes of
it. Frames come decoded from it, and the octets it sends are a part of its state.
-/

set_option autoImplicit false
set_option relaxedAutoImplicit false

namespace Ads.SandboxEgress.Http2

open Dns Foundation.Runs Foundation.StateExcept Python

/-- A stream identifier. -/
abbrev StreamId := ℕ

/-! ### The library -/

/-- An event of the library. -/
inductive Event
  /-- `RequestReceived`, `ResponseReceived`, `InformationalResponseReceived` or `TrailersReceived`,
  and whether it has a `stream_ended`. -/
  | headers (streamId : StreamId) (fields : Headers) (ended : Bool)
  /-- `DataReceived`. -/
  | data (streamId : StreamId) (payload : Bytes) (flowControlledLength : ℕ)
  /-- `StreamEnded`. -/
  | ended (streamId : StreamId)
  /-- `StreamReset`. -/
  | reset (streamId : StreamId)
  /-- `RemoteSettingsChanged`, and whether extended CONNECT is taken back. -/
  | settings (withdrawn : Bool)
  /-- `GracefulShutdown`. -/
  | shutdown (lastStreamId : StreamId)
  /-- Any other event. -/
  | other
deriving DecidableEq

/-- A HEADERS frame with its continuations. -/
structure HeadersFrame where
  /-- The stream. -/
  streamId : StreamId
  /-- The HPACK block. -/
  block : Bytes
  /-- END_STREAM. -/
  endStream : Bool
  /-- PRIORITY. -/
  priority : Bool

/-- A DATA frame. -/
structure DataFrame where
  /-- The stream. -/
  streamId : StreamId
  /-- The data without the padding. -/
  payload : Bytes
  /-- `flow_controlled_length`. -/
  flowControlledLength : ℕ
  /-- END_STREAM. -/
  endStream : Bool

/-- A frame from the peer. -/
inductive Frame
  /-- HEADERS. -/
  | headers (frame : HeadersFrame)
  /-- DATA. -/
  | data (frame : DataFrame)
  /-- GOAWAY, with NO_ERROR or with an error. -/
  | goaway (lastStreamId : StreamId) (noError : Bool)
  /-- Any other frame. -/
  | other (octets : Bytes)

/-- What a call of the library comes to. -/
inductive Reply (σ α : Type)
  /-- It returns. -/
  | done (state : σ) (value : α)
  /-- The stream is closed, of which the library makes some events. -/
  | closed (state : σ) (events : List Event)
  /-- `InvalidBodyLengthError`. -/
  | mismatch (state : σ)
  /-- Any other exception. -/
  | fatal

/-- `H2Connection`. -/
structure Library (σ : Type) where
  /-- `config.client_side`. -/
  clientSide : Bool
  /-- The stream is in `streams`. -/
  known : σ → StreamId → Bool
  /-- The stream is in `streams` and not closed. -/
  live : σ → StreamId → Bool
  /-- The stream was never in `streams`. -/
  fresh : σ → StreamId → Bool
  /-- The state of the stream is `IDLE`. -/
  idle : σ → StreamId → Bool
  /-- `open_inbound_streams`. -/
  openInbound : σ → ℕ
  /-- `highest_inbound_stream_id`. -/
  highestInbound : σ → StreamId
  /-- `get_next_available_stream_id`. -/
  nextStream : σ → StreamId
  /-- `remote_settings.enable_connect_protocol`. -/
  connectEnabled : σ → Bool
  /-- `max_outbound_frame_size`. -/
  maximumFrame : σ → ℕ
  /-- `local_flow_control_window`. -/
  window : σ → StreamId → Option ℤ
  /-- `_decode_headers` and `_get_or_create_stream`. -/
  openStream : σ → HeadersFrame → Reply σ Headers
  /-- `_receive_priority_frame` for the priority of a HEADERS frame. -/
  receivePriority : σ → HeadersFrame → Reply σ Unit
  /-- `H2Stream.receive_headers`. -/
  receiveHeaders : σ → StreamId → Headers → Bool → Reply σ (List Event)
  /-- `_receive_data_frame`. -/
  receiveData : σ → DataFrame → Reply σ (List Event)
  /-- `_receive_goaway_frame`. -/
  receiveGoaway : σ → σ
  /-- Any other frame. -/
  receiveOther : σ → Bytes → Reply σ (List Event)
  /-- `process_input(RECV_HEADERS)` on the stream. -/
  advance : σ → StreamId → σ
  /-- A RST_STREAM frame is sent. -/
  queueReset : σ → StreamId → σ
  /-- `reset_stream`. -/
  resetStream : σ → StreamId → σ
  /-- `acknowledge_received_data`. -/
  acknowledge : σ → ℕ → StreamId → σ
  /-- A GOAWAY frame is sent. -/
  queueGoaway : σ → StreamId → σ
  /-- `send_headers`. -/
  sendHeaders : σ → StreamId → Headers → Bool → Reply σ Unit
  /-- `send_data`. -/
  sendData : σ → StreamId → Bytes → Bool → Reply σ Unit
  /-- `end_stream`. -/
  endStream : σ → StreamId → Reply σ Unit
  /-- `initiate_upgrade_connection`. -/
  upgrade : σ → Option Bytes → σ

/-- `HTTP2Connection`. -/
structure Connection (σ : Type) where
  /-- The state of the library. -/
  library : σ
  /-- `websocket`. -/
  websocket : Bool
  /-- `local_settings.max_concurrent_streams`. -/
  maximumStreams : ℕ
  /-- `_received`. -/
  received : StreamId → Option BodyLength := fun _ ↦ none
  /-- `_sent`. -/
  sent : StreamId → Option BodyLength := fun _ ↦ none
  /-- `_methods`. -/
  methods : StreamId → Option Bytes := fun _ ↦ none
  /-- `_informationals`. -/
  informationals : Bool → StreamId → ℕ := fun _ _ ↦ 0
  /-- `peer_last_stream`. -/
  peerLastStream : Option StreamId := none
  /-- `local_last_stream`. -/
  localLastStream : Option StreamId := none

variable {σ : Type} (h2 : Library σ)

/-! ### Header blocks -/

/-- The fields of a header block. -/
def messageFields (values : Headers) : Except Raised Headers := do
  let fields ← validateHeaders values true
  failIf (fields.any fun field ↦ field.2 ≠ stripBlanks field.2)
    (.requestDenied "h2_field_whitespace")
  return fields

/-- The pseudo-headers. -/
def pseudoOf (fields : Headers) : Headers :=
  fields.filter fun field ↦ isPseudo field.1

/-- The declared length of a body. -/
def contentLength (fields : Headers) : Option ℕ :=
  (valuesOf "content-length" fields).head?.map decimalBytes

/-- The branch of `_headers` for trailers. -/
def messageTrailers (body : BodyLength) (fields : Headers) (ends : Bool) :
    Except Raised Headers := do
  let fields ← validateTrailers fields true
  failIf (¬ ends) (.requestDenied "h2_unterminated_trailers")
  body.finish
  return fields

/-- The pseudo-headers are those of a request. -/
def describesRequest (pseudo : Headers) : Bool :=
  let method := (pseudo.lookup (ascii ":method")).getD []
  let path := (pseudo.lookup (ascii ":path")).getD []
  (([":method", ":scheme", ":path"].map ascii).all fun name ↦ (pseudo.lookup name).isSome) ∧
    (pseudo.all fun field ↦ field.1 ∈
      ([":method", ":scheme", ":path", ":authority", ":protocol"].map ascii)) ∧
    isToken method ∧
    (pseudo.lookup (ascii ":scheme")).getD [] ∈ ["http", "https"].map ascii ∧
    path ≠ [] ∧ ¬ (path.any fun char ↦ char.val ≤ 32 || char.val == 127) ∧
    (path.head? = some 47 ∨ path = ascii "*" ∧ method = ascii "OPTIONS")

/-- The authorities of a request agree. -/
def checkIdentity (scheme : Bytes) (fields : Headers) : Except Raised Unit := do
  let authorities ← (fields.filter givesAuthority).mapM fun field ↦
    match decodeAscii field.2 with
    | none => throw (.requestDenied "h2_non_ascii_authority")
    | some text => authority text (if scheme = ascii "https" then 443 else 80)
  let _ ← consistentIdentity authorities none

/-- The checks of `_headers` on a request, with its method. -/
def Connection.requestMethod (connection : Connection σ) (fields : Headers) (incoming : Bool) :
    Except Raised Bytes := do
  let pseudo := pseudoOf fields
  failIf (¬ describesRequest pseudo) (.requestDenied "h2_request_pseudo_headers")
  let method := (pseudo.lookup (ascii ":method")).getD []
  if method = ascii "CONNECT" then
    let enabled :=
      if incoming then connection.websocket else h2.connectEnabled connection.library
    failIf (¬ enabled ∨ pseudo.lookup (ascii ":protocol") ≠ some (ascii "websocket") ∨
      (pseudo.lookup (ascii ":authority")).getD [] = []) (.requestDenied "h2_unsupported_connect")
  else failIf ((pseudo.lookup (ascii ":protocol")).isSome) (.requestDenied "h2_unexpected_protocol")
  checkIdentity ((pseudo.lookup (ascii ":scheme")).getD []) fields
  return method

/-- `[1-5][0-9]{2}`. -/
def isStatus (value : Bytes) : Bool :=
  value.length = 3 ∧ (value.all fun digit ↦ 48 ≤ digit.val && digit.val ≤ 57) ∧
    (value.head?.any fun digit ↦ 49 ≤ digit.val && digit.val ≤ 53)

/-- The status of a response. -/
def responseStatus (fields : Headers) : Except Raised ℕ := do
  let pseudo := pseudoOf fields
  let status := (pseudo.lookup (ascii ":status")).getD []
  failIf (pseudo = [] ∨ (pseudo.any fun field ↦ field.1 ≠ ascii ":status") ∨ ¬ isStatus status)
    (.requestDenied "h2_response_pseudo_headers")
  return decimalBytes status

/-- The expected length of the body of a response to a request with a method. -/
def responseLength (method : Option Bytes) (status : ℕ) (fields : Headers) :
    Except Raised (Option ℕ) := do
  let declared := contentLength fields
  failIf (status = 204 ∧ declared.isSome) (.requestDenied "h2_no_content_length")
  let successfulConnect : Bool := method = some (ascii "CONNECT") ∧ 200 ≤ status ∧ status < 300
  failIf (successfulConnect ∧ declared.isSome) (.requestDenied "h2_connect_content_length")
  return if (status = 204 ∨ status = 304) ∧ ¬ successfulConnect ∨ method = some (ascii "HEAD") then
    some 0
  else declared

/-- `_received` or `_sent`. -/
def Connection.messages (connection : Connection σ) (incoming : Bool) :
    StreamId → Option BodyLength :=
  if incoming then connection.received else connection.sent

/-- A message is recorded. -/
def Connection.record (connection : Connection σ) (incoming : Bool) (streamId : StreamId)
    (body : BodyLength) : Connection σ :=
  if incoming then
    { connection with received := Function.update connection.received streamId (some body) }
  else { connection with sent := Function.update connection.sent streamId (some body) }

/-- The end of `_headers`: the message starts. -/
def Connection.startMessage (connection : Connection σ) (streamId : StreamId) (fields : Headers)
    (expected : Option ℕ) (ends incoming : Bool) : Except Raised Headers × Connection σ :=
  if (valuesOf "host" fields).length > 1 then
    (throw (.requestDenied "h2_duplicate_host"), connection)
  else
    let body : BodyLength := { expected }
    match if ends then body.finish else return () with
    | .error raised => (throw raised, connection)
    | .ok _ => (return fields, connection.record incoming streamId body)

/-- The branch of `_headers` for a response. -/
def Connection.checkResponse (connection : Connection σ) (streamId : StreamId) (fields : Headers)
    (ends incoming : Bool) : Except Raised Headers × Connection σ :=
  match responseStatus fields with
  | .error raised => (throw raised, connection)
  | .ok status =>
    if status < 200 then
      let count := connection.informationals incoming streamId + 1
      if status = 101 ∨ ends ∨ (contentLength fields).isSome ∨ count > 16 then
        (throw (.requestDenied "h2_informational_response"), connection)
      else
        (return fields, { connection with
          informationals := Function.update connection.informationals incoming
            (Function.update (connection.informationals incoming) streamId count) })
    else
      match responseLength (connection.methods streamId) status fields with
      | .error raised => (throw raised, connection)
      | .ok expected => connection.startMessage streamId fields expected ends incoming

/-- `_headers`. -/
def Connection.checkHeaders (connection : Connection σ) (streamId : StreamId) (values : Headers)
    (ends incoming : Bool) : Except Raised Headers × Connection σ :=
  match messageFields values with
  | .error raised => (throw raised, connection)
  | .ok fields =>
    match connection.messages incoming streamId with
    | some body => (messageTrailers body fields ends, connection)
    | none =>
      if incoming = h2.clientSide then connection.checkResponse streamId fields ends incoming
      else
        match connection.requestMethod h2 fields incoming with
        | .error raised => (throw raised, connection)
        | .ok method =>
          { connection with methods := Function.update connection.methods streamId (some method)
            }.startMessage streamId fields (contentLength fields) ends incoming

/-! ### Received frames -/

/-- `_forget_closed`. -/
def Connection.forgetClosed (connection : Connection σ) : Connection σ :=
  let live := h2.live connection.library
  { connection with
    received := fun streamId ↦ if live streamId then connection.received streamId else none
    sent := fun streamId ↦ if live streamId then connection.sent streamId else none
    methods := fun streamId ↦ if live streamId then connection.methods streamId else none
    informationals := fun incoming streamId ↦
      if live streamId then connection.informationals incoming streamId else 0 }

/-- `_message_reset`. -/
def Connection.messageReset (connection : Connection σ) (streamId : StreamId) : Connection σ :=
  let opened :=
    if h2.idle connection.library streamId then h2.advance connection.library streamId
    else connection.library
  let library :=
    if h2.live opened streamId then h2.resetStream opened streamId
    else h2.queueReset opened streamId
  { connection with library }.forgetClosed h2

/-- What a call of the library in a receive hook comes to. -/
def Connection.settle (connection : Connection σ) (later : List Event) :
    Reply σ (List Event) → Except Raised (Connection σ × List Event)
  | .done library events => return ({ connection with library }, events ++ later)
  | .closed library events => return ({ connection with library }, events)
  | _ => throw (.exception "ProtocolError")

/-- `_receive_headers_frame` from the decoded header block on. -/
def Connection.receiveBlock (connection : Connection σ) (frame : HeadersFrame) (values : Headers)
    (priorityEvents : List Event) : Except Raised (Connection σ × List Event) :=
  if ¬ h2.live connection.library frame.streamId then
    connection.settle []
      (h2.receiveHeaders connection.library frame.streamId values frame.endStream)
  else if ¬ h2.clientSide ∧ connection.localLastStream.any (· < frame.streamId) then
    return (connection.messageReset h2 frame.streamId, [.reset frame.streamId])
  else
    match connection.checkHeaders h2 frame.streamId values frame.endStream true with
    | (.error (.requestDenied _), connection) =>
      return (connection.messageReset h2 frame.streamId, [.reset frame.streamId])
    | (.error raised, _) => throw raised
    | (.ok fields, connection) =>
      connection.settle priorityEvents
        (h2.receiveHeaders connection.library frame.streamId fields frame.endStream)

/-- `_receive_headers_frame`. -/
def Connection.receiveHeadersFrame (connection : Connection σ) (frame : HeadersFrame) :
    Except Raised (Connection σ × List Event) :=
  if ¬ h2.known connection.library frame.streamId ∧
      h2.openInbound connection.library ≥ connection.maximumStreams then
    throw (.exception "ProtocolError")
  else
    match h2.openStream connection.library frame with
    | .done library values =>
      if frame.priority then
        match h2.receivePriority library frame with
        | .done library _ =>
          { connection with library }.receiveBlock h2 frame values [.other]
        | .closed library events => return ({ connection with library }, events)
        | _ => throw (.exception "ProtocolError")
      else { connection with library }.receiveBlock h2 frame values []
    | .closed library events => return ({ connection with library }, events)
    | _ => throw (.exception "ProtocolError")

/-- The stream of a DATA frame is reset, and its octets go back to the window of the connection. -/
def Connection.refuseData (connection : Connection σ) (streamId : StreamId) (length : ℕ) :
    Connection σ × List Event :=
  let connection := connection.messageReset h2 streamId
  ({ connection with library := h2.acknowledge connection.library length streamId },
    [.reset streamId])

/-- The loop of `_receive_data_frame` over the events of the library. -/
def Connection.checkBodies (connection : Connection σ) (endStream : Bool) (events : List Event) :
    List Event → Connection σ × List Event
  | [] => (connection, events)
  | .data streamId payload length :: rest =>
    match connection.received streamId with
    | none => connection.refuseData h2 streamId length
    | some body =>
      let (body, raised) := body.add payload.length
      let connection := connection.record true streamId body
      match raised, if endStream then body.finish else return () with
      | .ok _, .ok _ => connection.checkBodies endStream events rest
      | _, _ => connection.refuseData h2 streamId length
  | _ :: rest => connection.checkBodies endStream events rest

/-- `_receive_data_frame`. -/
def Connection.receiveDataFrame (connection : Connection σ) (frame : DataFrame) :
    Except Raised (Connection σ × List Event) :=
  match h2.receiveData connection.library frame with
  | .done library events =>
    return { connection with library }.checkBodies h2 frame.endStream events events
  | .closed library events => return ({ connection with library }, events)
  | .mismatch library =>
    return { connection with library }.refuseData h2 frame.streamId frame.flowControlledLength
  | .fatal => throw (.exception "ProtocolError")

/-- `_receive_goaway_frame`. -/
def Connection.receiveGoawayFrame (connection : Connection σ) (lastStreamId : StreamId)
    (noError : Bool) : Except Raised (Connection σ × List Event) :=
  if connection.peerLastStream.any (· < lastStreamId) then throw (.exception "ProtocolError")
  else
    let connection := { connection with peerLastStream := some lastStreamId }
    if noError then return (connection, [.shutdown lastStreamId])
    else return ({ connection with library := h2.receiveGoaway connection.library }, [.other])

/-- The receive hook of a frame. -/
def Connection.receiveFrame (connection : Connection σ) :
    Frame → Except Raised (Connection σ × List Event)
  | .headers frame => connection.receiveHeadersFrame h2 frame
  | .data frame => connection.receiveDataFrame h2 frame
  | .goaway lastStreamId noError => connection.receiveGoawayFrame h2 lastStreamId noError
  | .other octets => connection.settle [] (h2.receiveOther connection.library octets)

/-- The receive hooks of some frames. -/
def Connection.receiveFrames (connection : Connection σ) :
    List Frame → Except Raised (Connection σ × List Event)
  | [] => return (connection, [])
  | frame :: rest => do
    let (connection, events) ← connection.receiveFrame h2 frame
    let (connection, later) ← connection.receiveFrames rest
    return (connection, events ++ later)

/-- `receive_data`, for the frames of one read. -/
def Connection.receiveData (connection : Connection σ) (frames : List Frame) :
    Except Raised (Connection σ × List Event) := do
  let (connection, events) ← connection.receiveFrames h2 frames
  failIf (Event.settings true ∈ events) (.exception "ProtocolError")
  return (connection.forgetClosed h2, events)

/-! ### Sent frames -/

/-- What a call of the library to send comes to. -/
def Connection.dispatch {α : Type} (connection : Connection σ) (value : α) :
    Reply σ Unit → Except Raised α × Connection σ
  | .done library _ => (return value, { connection with library }.forgetClosed h2)
  | .closed library _ => (throw (.exception "ProtocolError"), { connection with library })
  | _ => (throw (.exception "ProtocolError"), connection)

/-- `headers`, with the fields that are sent. -/
def Connection.headers (connection : Connection σ) (streamId : StreamId) (values : Headers)
    (ends : Bool) : Except Raised Headers × Connection σ :=
  if h2.clientSide ∧ connection.peerLastStream.isSome ∧
      ¬ h2.known connection.library streamId then
    (throw (.requestDenied "h2_peer_draining"), connection)
  else
    match connection.checkHeaders h2 streamId values ends false with
    | (.error raised, connection) => (throw raised, connection)
    | (.ok fields, connection) =>
      connection.dispatch h2 fields (h2.sendHeaders connection.library streamId fields ends)

/-- `data`. -/
def Connection.data (connection : Connection σ) (streamId : StreamId) (payload : Bytes)
    (ends : Bool) : Except Raised Unit × Connection σ :=
  if payload.length > min 16384 (h2.maximumFrame connection.library) then
    (throw (.exception "ValueError"), connection)
  else
    match connection.sent streamId with
    | none => (throw (.requestDenied "h2_data_without_headers"), connection)
    | some body =>
      match h2.window connection.library streamId with
      | none => (throw (.exception "ProtocolError"), connection)
      | some window =>
        if payload.length > max 0 window then
          (throw (.requestDenied "h2_send_window_unavailable"), connection)
        else
          let (body, raised) := body.add payload.length
          let connection := connection.record false streamId body
          match raised, if ends then body.finish else return () with
          | .ok _, .ok _ =>
            connection.dispatch h2 () (if payload = [] ∧ ends then
              h2.endStream connection.library streamId
            else h2.sendData connection.library streamId payload ends)
          | .error raised, _ | _, .error raised => (throw raised, connection)

/-- `deny`, for a stream that is not closed. -/
def Connection.deny (connection : Connection σ) (streamId : StreamId) : Connection σ :=
  { connection with library := h2.resetStream connection.library streamId }.forgetClosed h2

/-- `begin_shutdown`. -/
def Connection.beginShutdown (connection : Connection σ) : Connection σ :=
  if connection.localLastStream.isSome then connection
  else
    let last := h2.highestInbound connection.library
    { connection with
      localLastStream := some last
      library := h2.queueGoaway connection.library last }

/-- A sextet of URL-safe Base64. -/
def sextet (byte : Octet) : Option ℕ :=
  let code := byte.val
  if 65 ≤ code ∧ code ≤ 90 then some (code - 65)
  else if 97 ≤ code ∧ code ≤ 122 then some (code - 71)
  else if 48 ≤ code ∧ code ≤ 57 then some (code + 4)
  else if code = 45 then some 62
  else if code = 95 then some 63
  else none

/-- `b64decode` of the URL-safe alphabet without padding. -/
def decodeBase64 (text : Bytes) : Option Bytes :=
  if text.length % 4 ≠ 0 then none
  else do
    let sextets ← text.mapM sextet
    return (sextets.toChunks 4).flatMap fun chunk ↦
      let value := chunk.foldl (fun value digit ↦ value * 64 + digit) 0
      [Fin.ofNat 256 (value / 65536), Fin.ofNat 256 (value / 256), Fin.ofNat 256 value]

/-- The checks of `upgraded` on the settings. -/
def checkUpgradeSettings (clientSide : Bool) (settings : Option Bytes) : Except Raised Unit :=
  if clientSide then failIf settings.isSome (.requestDenied "h2_unexpected_upgrade_settings")
  else
    match settings with
    | none => throw (.requestDenied "h2_invalid_upgrade_settings")
    | some settings =>
      if settings.length > 1024 ∨ settings.any fun byte ↦ (sextet byte).isNone then
        throw (.requestDenied "h2_invalid_upgrade_settings")
      else
        match decodeBase64 settings with
        | none => throw (.requestDenied "h2_invalid_upgrade_settings")
        | some decoded => do
          failIf (decoded.length % 6 ≠ 0) (.requestDenied "h2_invalid_upgrade_settings")
          failIf (¬ ((decoded.toChunks 6).map (List.take 2)).Nodup)
            (.requestDenied "h2_duplicate_upgrade_settings")

/-- `upgraded`, on a connection without streams. -/
def Connection.upgraded (connection : Connection σ) (method : Bytes) (settings : Option Bytes) :
    Except Raised (Connection σ) := do
  failIf (¬ isToken method) (.requestDenied "h2_invalid_upgrade_state")
  checkUpgradeSettings h2.clientSide settings
  return { connection with
    library := h2.upgrade connection.library settings
    methods := Function.update connection.methods 1 (some method) }.record
      (!h2.clientSide) 1 { expected := some 0 }

/-! ### The leg -/

/-- A leg of the proxy: the connection, and what its owner makes of it. -/
structure Leg (σ : Type) where
  /-- `protocol`. -/
  connection : Connection σ
  /-- The owner has not given up the stream. -/
  owned : StreamId → Bool
  /-- `closed`. -/
  closed : Bool := false

/-- What passes a leg in either direction. -/
inductive Shown
  /-- A header block, with END_STREAM or without. -/
  | head (incoming : Bool) (streamId : StreamId) (fields : Headers) (ends : Bool)
  /-- Data. -/
  | data (incoming : Bool) (streamId : StreamId) (payload : Bytes)
  /-- END_STREAM. -/
  | ended (incoming : Bool) (streamId : StreamId)
  /-- A stream is reset. -/
  | reset (streamId : StreamId)
  /-- The request of an upgrade, which is complete, is on stream 1. -/
  | upgraded (method : Bytes)
deriving DecidableEq

/-- What is shown by an event. -/
def Event.shown : Event → List Shown
  | .headers streamId fields ends => [.head true streamId fields ends]
  | .data streamId payload _ => [.data true streamId payload]
  | .ended streamId => [.ended true streamId]
  | .reset streamId => [.reset streamId]
  | _ => []

/-- END_STREAM, if it is set. -/
def endOf (incoming : Bool) (streamId : StreamId) (ends : Bool) : List Shown :=
  if ends then [.ended incoming streamId] else []

/-- What happens on a leg. -/
inductive Input
  /-- Frames are received in one read. -/
  | receives (frames : List Frame)
  /-- A request is sent on a new stream. -/
  | requests (fields : Headers) (ends : Bool)
  /-- A header block is sent on a stream that exists. -/
  | sends (streamId : StreamId) (fields : Headers) (ends : Bool)
  /-- Data is sent on a stream that exists. -/
  | sendsData (streamId : StreamId) (payload : Bytes) (ends : Bool)
  /-- A stream is denied. -/
  | denies (streamId : StreamId)
  /-- Received data is acknowledged. -/
  | credits (count : ℕ) (streamId : StreamId)
  /-- The leg drains. -/
  | drains

/-- The outcome of `headers`: where it raises, the owner gives the stream up and denies it later,
as `_request` and `_retire` do. -/
def Leg.sent (leg : Leg σ) (streamId : StreamId) (ends : Bool) :
    Except Raised Headers × Connection σ → Leg σ × List Shown
  | (.error _, connection) =>
    ({ leg with connection, owned := Function.update leg.owned streamId false }, [])
  | (.ok fields, connection) =>
    ({ leg with connection, owned := Function.update leg.owned streamId true },
      .head false streamId fields ends :: endOf false streamId ends)

/-- The outcome of `data`. The owner waits for a window, and gives the stream up where anything
else raises. -/
def Leg.sentData (leg : Leg σ) (streamId : StreamId) (payload : Bytes) (ends : Bool) :
    Except Raised Unit × Connection σ → Leg σ × List Shown
  | (.error raised, connection) =>
    if raised = .requestDenied "h2_send_window_unavailable" then ({ leg with connection }, [])
    else ({ leg with connection, owned := Function.update leg.owned streamId false }, [])
  | (.ok _, connection) =>
    ({ leg with connection }, .data false streamId payload :: endOf false streamId ends)

/-- One step. A closed leg does nothing. Requests, which have pseudo-headers, are sent on the next
stream of a client; otherwise the owner sends on streams that exist. -/
def step (leg : Leg σ) (input : Input) : Leg σ × List Shown :=
  if leg.closed then (leg, [])
  else
    match input with
    | .receives frames =>
      match leg.connection.receiveData h2 frames with
      | .error _ => ({ leg with closed := true }, [])
      | .ok (connection, events) => ({ leg with connection }, events.flatMap Event.shown)
    | .requests fields ends =>
      if ¬ h2.clientSide ∨ pseudoOf fields = [] then (leg, [])
      else
        let streamId := h2.nextStream leg.connection.library
        leg.sent streamId ends (leg.connection.headers h2 streamId fields ends)
    | .sends streamId fields ends =>
      if ¬ leg.owned streamId ∨ h2.fresh leg.connection.library streamId then (leg, [])
      else leg.sent streamId ends (leg.connection.headers h2 streamId fields ends)
    | .sendsData streamId payload ends =>
      if ¬ leg.owned streamId ∨ h2.fresh leg.connection.library streamId then (leg, [])
      else leg.sentData streamId payload ends (leg.connection.data h2 streamId payload ends)
    | .denies streamId =>
      let owned := Function.update leg.owned streamId false
      if h2.live leg.connection.library streamId then
        ({ leg with connection := leg.connection.deny h2 streamId, owned }, [.reset streamId])
      else ({ leg with owned }, [])
    | .credits count streamId =>
      ({ leg with connection := { leg.connection with
          library := h2.acknowledge leg.connection.library count streamId } }, [])
    | .drains => ({ leg with connection := leg.connection.beginShutdown h2 }, [])

/-- A leg with a new connection. A server owns what it is asked for, a client what it asks for. -/
def Leg.start (initial : σ) (websocket : Bool) (maximumStreams : ℕ) : Leg σ where
  connection := { library := initial, websocket, maximumStreams }
  owned _ := !h2.clientSide

/-- The leg whose first stream is that of an upgrade, if there is one. -/
def Leg.adopt (leg : Leg σ) : Option (Bytes × Option Bytes) → Leg σ × List Shown
  | none => (leg, [])
  | some (method, settings) =>
    match leg.connection.upgraded h2 method settings with
    | .error _ => ({ leg with closed := true }, [])
    | .ok connection =>
      ({ leg with connection, owned := Function.update leg.owned 1 (!h2.clientSide) },
        [.upgraded method])

/-- A run of a leg. -/
def run (initial : σ) (websocket : Bool) (maximumStreams : ℕ)
    (upgrade : Option (Bytes × Option Bytes)) (inputs : List Input) : Leg σ × List Shown :=
  let (leg, shown) := (Leg.start h2 initial websocket maximumStreams).adopt h2 upgrade
  let (leg, later) := runFrom (step h2) leg inputs
  (leg, shown ++ later)

end Ads.SandboxEgress.Http2
