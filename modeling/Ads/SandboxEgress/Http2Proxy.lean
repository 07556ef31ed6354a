import Ads.SandboxEgress.Framing

/-!
# The proxy of HTTP/2 exchanges

The model of `http2_proxy.py`. The proxy reads events from two connections, the frontend and the
origin, and pairs the streams of the one with those of the other. An exchange has one task, which
authorizes the request, opens a stream to the origin and forwards both bodies through two bounded
queues. One input is one step of the event loop: an event of a connection that is dispatched, or a
task that goes on from the point where it awaits (`Proxy.step`). A task that is cancelled goes no
further than to its cleanup.

What may fail at a point where a task awaits (a timeout, a refused connection, a closed leg) may fail
there at any time, and `run` may come to its end at any time. Locks order such points only, so they
are no part of the state. A reset that `deny` sends is recorded as `denied`, whether or not the stream
is still open.
-/

set_option autoImplicit false
set_option relaxedAutoImplicit false

namespace Ads.SandboxEgress.Http2Proxy

open Dns

/-! ### Events -/

/-- The two connections. -/
inductive Side
  /-- The connection of the client. -/
  | front
  /-- The connection to the origin. -/
  | origin
deriving DecidableEq

/-- A `DataReceived` event. -/
structure Chunk where
  /-- `stream_id`. -/
  streamId : ℕ
  /-- `flow_controlled_length`. -/
  length : ℕ
  /-- `data`. -/
  data : Bytes
  /-- The identity of the event. -/
  number : ℕ := 0
deriving DecidableEq

/-- The events of a connection that the proxy dispatches. -/
inductive Event
  /-- `RequestReceived`. -/
  | request (streamId : ℕ) (headers : Headers)
  /-- `ResponseReceived`. -/
  | response (streamId : ℕ) (headers : Headers)
  /-- `InformationalResponseReceived`. -/
  | informational (streamId : ℕ) (headers : Headers)
  /-- `DataReceived`. -/
  | data (chunk : Chunk)
  /-- `TrailersReceived`. -/
  | trailers (streamId : ℕ) (headers : Headers)
  /-- `StreamEnded`. -/
  | ended (streamId : ℕ)
  /-- `StreamReset`. -/
  | reset (streamId : ℕ)
  /-- `GracefulShutdown`. -/
  | shutdown (lastStreamId : ℕ)
deriving DecidableEq

/-- The data of an event. -/
def Event.chunks : Event → List Chunk
  | .data chunk => [chunk]
  | _ => []

/-- `event.flow_controlled_length if isinstance(event, DataReceived) else 0`. -/
def Event.size : Event → ℕ
  | .data chunk => chunk.length
  | _ => 0

/-! ### Queues -/

/-- `_Inbox`, whose leg is known from where it is kept. -/
structure Inbox where
  /-- `stream_id`. -/
  streamId : ℕ
  /-- `events`. -/
  events : List Event := []
  /-- `closed`. -/
  closed : Bool := false
  /-- `bytes`. -/
  bytes : ℕ := 0
deriving DecidableEq

/-- The bounds of a queue leave no room for an event. -/
def Inbox.IsFull (inbox : Inbox) (event : Event) : Prop :=
  128 ≤ inbox.events.length ∨ 65535 < inbox.bytes + event.size

instance decidableIsFull (inbox : Inbox) (event : Event) : Decidable (inbox.IsFull event) :=
  inferInstanceAs (Decidable (_ ∨ _))

/-- The end of `offer`. -/
def Inbox.append (inbox : Inbox) (event : Event) : Inbox :=
  { inbox with events := inbox.events ++ [event], bytes := inbox.bytes + event.size }

/-- `take` of the first event. -/
def Inbox.pop (inbox : Inbox) (event : Event) : Inbox :=
  { inbox with events := inbox.events.tail, bytes := inbox.bytes - event.size }

/-- The data in a queue. -/
def Inbox.chunks (inbox : Inbox) : List Chunk :=
  inbox.events.flatMap Event.chunks

/-! ### Exchanges -/

/-- Where a task that forwards from a queue is. -/
inductive Progress
  /-- In `take`. -/
  | waiting
  /-- It sends data. -/
  | sending (chunk : Chunk)
  /-- It sends headers of a response. -/
  | relaying
  /-- It sends the end of the body, or trailers. -/
  | ending
  /-- It has returned or raised. -/
  | over
deriving DecidableEq

/-- The data in the hand of a task. -/
def Progress.chunks : Progress → List Chunk
  | .sending chunk => [chunk]
  | _ => []

/-- Where the task of an exchange is. -/
inductive Phase
  /-- It has not run yet. -/
  | created
  /-- In `authorize`. -/
  | authorizing
  /-- In `_upstream`. -/
  | connecting
  /-- It waits for the settings of the origin. -/
  | settling
  /-- It waits for the write lock of the origin. -/
  | locking
  /-- It drains the headers of the request. -/
  | flushing
  /-- In the group of `_upload` and `_response`. -/
  | forwarding
  /-- In the loop of `_websocket` over the opening responses. -/
  | opening
  /-- It sends the response that opens the WebSocket. -/
  | accepting
  /-- In the group of the two `pump`s. -/
  | tunnelling
  /-- In `_response` without an upload. -/
  | answering
  /-- It has come to its cleanup, or was cancelled before it ran. -/
  | over
deriving DecidableEq

/-- `_Exchange` and the local variables of its tasks. -/
structure Exchange where
  /-- `frontend_id`. -/
  frontendId : ℕ
  /-- `headers`. -/
  headers : Headers
  /-- `incoming`. -/
  incoming : Inbox
  /-- `origin_id`. -/
  originId : Option ℕ := none
  /-- `outgoing`. -/
  outgoing : Option Inbox := none
  /-- `started`. -/
  started : Bool := false
  /-- `cancelled`. -/
  cancelled : Bool := false
  /-- `retired`. -/
  retired : Bool := false
  /-- `response_ended`. -/
  responseEnded : Bool := false
  /-- `upload_complete`. -/
  uploadComplete : Bool := false
  /-- The task is `_upgrade_response`. -/
  upgraded : Bool := false
  /-- `is_websocket`. -/
  websocket : Bool := false
  /-- Where the task is. -/
  phase : Phase := .created
  /-- Where the task that reads `incoming` is. -/
  upload : Progress := .over
  /-- The task that reads `incoming` was cancelled by `_response`. -/
  uploadCancelled : Bool := false
  /-- Where the task that reads `outgoing` is. -/
  reply : Progress := .over
  /-- `continued`. -/
  continued : Bool := false
deriving DecidableEq

namespace Exchange

/-- The queue of the events of one side. -/
def inbox (exchange : Exchange) : Side → Option Inbox
  | .front => some exchange.incoming
  | .origin => exchange.outgoing

/-- Another queue for the events of one side. -/
def putInbox (exchange : Exchange) (inbox : Inbox) : Side → Exchange
  | .front => { exchange with incoming := inbox }
  | .origin => { exchange with outgoing := some inbox }

/-- The task that reads the queue of one side. -/
def reader (exchange : Exchange) : Side → Progress
  | .front => exchange.upload
  | .origin => exchange.reply

/-- `expects`. -/
def expects (exchange : Exchange) : Bool :=
  exchange.headers.any fun header ↦
    header.1 == ascii "expect" && Python.lowerBytes header.2 == ascii "100-continue"

/-- `_upload` and the `pump` of uploads: what the task does with an event. -/
def uploads (exchange : Exchange) : Event → Progress
  | .data chunk => .sending chunk
  | .ended _ => .ending
  | .trailers _ _ => if exchange.phase = .tunnelling then .over else .ending
  | _ => .over

/-- `_upload` and the `pump` of uploads, from `take` to the next `await`. -/
def takeUpload (exchange : Exchange) : Exchange :=
  match exchange.incoming.events with
  | [] => if exchange.incoming.closed then { exchange with upload := .over } else exchange
  | event :: _ =>
    { exchange with incoming := exchange.incoming.pop event, upload := exchange.uploads event }

/-- The body of the loop of `_response`. -/
def respond (exchange : Exchange) : Event → Exchange
  | .response _ _ =>
    if exchange.expects ∧ ¬ exchange.continued ∧ ¬ exchange.uploadComplete then
      { exchange with reply := .relaying, uploadCancelled := true }
    else { exchange with reply := .relaying }
  | .informational _ headers =>
    { exchange with
      reply := .relaying
      continued := exchange.continued || headers.contains (ascii ":status", ascii "100") }
  | .data chunk => { exchange with reply := .sending chunk }
  | .trailers _ _ => { exchange with reply := .ending }
  | .ended _ => { exchange with reply := .ending }
  | _ => { exchange with reply := .over }

/-- The body of the loop of the `pump` of replies. -/
def pumpReply (exchange : Exchange) : Event → Exchange
  | .data chunk => { exchange with reply := .sending chunk }
  | .ended _ => { exchange with reply := .ending }
  | _ => { exchange with reply := .over }

/-- The task is cancelled, if it has not run yet. -/
def drop (exchange : Exchange) : Exchange :=
  if exchange.phase = .created then { exchange with phase := .over } else exchange

end Exchange

/-- `int(dict(headers)[b":status"])`. -/
def statusOf (headers : Headers) : ℕ :=
  ((headers.reverse.lookup (ascii ":status")).getD []).foldl
    (fun value digit ↦ value * 10 + (digit.val - 48)) 0

/-- What the proxy calls outside of `http2_proxy.py`. -/
structure Services where
  /-- `RequestHead.http2` and `websocket.h2_request`: whether a request opens a WebSocket, unless one
  of them raises. -/
  readHead : Headers → Option Bool
  /-- `websocket.h2_response` does not raise. -/
  acceptsResponse : Headers → Headers → Bool

/-- The body of the loop of `_websocket` over the opening responses, and what follows the loop. -/
def Exchange.open (services : Services) (exchange : Exchange) : Event → Exchange
  | .informational _ _ => { exchange with reply := .relaying }
  | .response streamId headers =>
    if ¬ (200 ≤ statusOf headers ∧ statusOf headers < 300) then
      { exchange with
        phase := .answering
        outgoing := exchange.outgoing.map fun inbox ↦
          { inbox with events := .response streamId headers :: inbox.events } }
    else if services.acceptsResponse exchange.headers headers then
      { exchange with phase := .accepting, reply := .relaying }
    else { exchange with reply := .over }
  | _ => { exchange with reply := .over }

/-- `_response`, `_websocket` and the `pump` of replies, from `take` to the next `await`. -/
def Exchange.takeReply (services : Services) (exchange : Exchange) : Exchange :=
  match exchange.outgoing with
  | none => exchange
  | some inbox =>
    match inbox.events with
    | [] => if inbox.closed then { exchange with reply := .over } else exchange
    | event :: _ =>
      let taken := { exchange with outgoing := some (inbox.pop event) }
      match exchange.phase with
      | .opening => taken.open services event
      | .tunnelling => taken.pumpReply event
      | _ => taken.respond event

/-! ### The proxy -/

/-- `_Leg`, and what the events of its pinned h2 connection depend on. -/
structure Leg where
  /-- The connection is in `ConnectionState.CLOSED`. -/
  failed : Bool := false
  /-- `closed`: the reading task has ended. -/
  closed : Bool := false
  /-- The highest stream that the client of the connection has opened. -/
  highest : ℕ := 0
  /-- `peer_last_stream`. -/
  peerLast : Option ℕ := none
  /-- The streams with a final response in `_received`. -/
  answered : List ℕ := []
deriving DecidableEq

/-- `get_next_available_stream_id`, without its limit. -/
def Leg.nextStreamId (leg : Leg) : ℕ :=
  if leg.highest = 0 then 1 else leg.highest + 2

/-- What the proxy has done. -/
inductive Output
  /-- A request opened an exchange. -/
  | opened (exchange : ℕ)
  /-- `authorize` returned. -/
  | authorized (exchange : ℕ)
  /-- The headers of a request were sent to the origin. -/
  | headers (exchange originId : ℕ)
  /-- The drain began. -/
  | draining
  /-- Data was received, for an exchange or for none. -/
  | received (side : Side) (exchange : Option ℕ) (chunk : Chunk)
  /-- `acknowledge_received_data` of the length of some data. -/
  | credited (side : Side) (streamId : ℕ) (chunks : List Chunk)
  /-- The credit of some data was given up. -/
  | lost (side : Side) (streamId : ℕ) (chunks : List Chunk)
  /-- A stream was reset. -/
  | denied (side : Side) (streamId : ℕ)
deriving DecidableEq

/-- The values of `maximum_streams` that `__init__` takes. -/
abbrev StreamLimit := { count : ℕ // 1 ≤ count ∧ count ≤ 128 }

/-- `HTTP2Proxy`. An exchange is known by its index among all of them. -/
structure Proxy where
  /-- `maximum_streams`. -/
  maximumStreams : StreamLimit
  /-- `front`. -/
  front : Leg := {}
  /-- `origin`. -/
  origin : Option Leg := none
  /-- The exchanges that were made. -/
  objects : List Exchange := []
  /-- `_exchanges`. -/
  exchanges : List (ℕ × ℕ) := []
  /-- `_origin_streams`. -/
  originStreams : List (ℕ × ℕ) := []
  /-- `_drain_started` is set. -/
  draining : Bool := false
  /-- `exchanges` of the end of `run`. -/
  closing : Option (List ℕ) := none
  /-- The number of data events. -/
  numbered : ℕ := 0
  /-- What has been done, oldest first. -/
  log : List Output := []

/-- `mapping[key] = value`. -/
def assign (mapping : List (ℕ × ℕ)) (key value : ℕ) : List (ℕ × ℕ) :=
  mapping.filter (·.1 ≠ key) ++ [(key, value)]

/-- `mapping.pop(key, None)`. -/
def unassign (mapping : List (ℕ × ℕ)) (key : ℕ) : List (ℕ × ℕ) :=
  mapping.filter (·.1 ≠ key)

namespace Proxy

variable (services : Services) (proxy : Proxy)

/-- An exchange changes. -/
def update (index : ℕ) (change : Exchange → Exchange) : Proxy :=
  { proxy with objects := proxy.objects.modify index change }

/-- Something is done. -/
def emit (output : Output) : Proxy :=
  { proxy with log := proxy.log ++ [output] }

/-- The connection of a side is in `ConnectionState.CLOSED`. -/
def failed : Side → Bool
  | .front => proxy.front.failed
  | .origin => proxy.origin.any Leg.failed

/-- `_Leg.deny`. -/
def deny (side : Side) (streamId : ℕ) : Proxy :=
  if proxy.failed side then proxy else proxy.emit (.denied side streamId)

/-- `_Leg.credit` of the length of some data. -/
def credit (side : Side) (streamId : ℕ) (chunks : List Chunk) : Proxy :=
  if (chunks.map Chunk.length).sum = 0 then proxy
  else if proxy.failed side then proxy.emit (.lost side streamId chunks)
  else proxy.emit (.credited side streamId chunks)

/-- `_Inbox.offer`, and whether it raises. -/
def offer (index : ℕ) (side : Side) (inbox : Inbox) (event : Event) : Proxy × Bool :=
  if inbox.closed then (proxy.credit side inbox.streamId event.chunks, false)
  else if inbox.IsFull event then
    ((proxy.deny side inbox.streamId).credit side inbox.streamId event.chunks, true)
  else (proxy.update index (·.putInbox (inbox.append event) side), false)

/-- `_Inbox.discard`. -/
def discard (index : ℕ) (side : Side) : Proxy :=
  match (proxy.objects[index]?).bind (·.inbox side) with
  | none => proxy
  | some inbox =>
    (proxy.credit side inbox.streamId inbox.chunks).update index
      (·.putInbox { inbox with events := [], closed := true, bytes := 0 } side)

/-- The origin stream of an exchange is reset. -/
def denyOrigin (originId : Option ℕ) : Proxy :=
  match originId with
  | none => proxy
  | some originId => proxy.deny .origin originId

/-- `_cancel`. -/
def cancel (index : ℕ) : Proxy :=
  match proxy.objects[index]? with
  | none => proxy
  | some exchange =>
    ((((proxy.update index ({ · with cancelled := true })).deny .front
      exchange.frontendId).discard index .front).denyOrigin exchange.originId).discard index .origin

/-- `offer`, and `_cancel` where it raises. -/
def offerOrCancel (index : ℕ) (side : Side) (event : Event) : Proxy :=
  match (proxy.objects[index]?).bind (·.inbox side) with
  | none => proxy
  | some inbox =>
    let (next, raised) := proxy.offer index side inbox event
    if raised then next.cancel index else next

/-- A drain cancels an exchange: it has no origin stream, or one above the last that counts. -/
def Fences (index : ℕ) (originLast : Option ℕ) : Prop :=
  ∃ exchange ∈ proxy.objects[index]?, exchange.originId = none ∨
    ∃ last ∈ originLast, ∃ originId ∈ exchange.originId, last < originId

instance decidableFences (index : ℕ) (originLast : Option ℕ) :
    Decidable (proxy.Fences index originLast) :=
  inferInstanceAs (Decidable (∃ exchange ∈ proxy.objects[index]?, _))

/-- `_drain`, without its control task. -/
def drain (originLast : Option ℕ) : Proxy :=
  proxy.exchanges.foldl
    (fun proxy entry ↦ if proxy.Fences entry.2 originLast then proxy.cancel entry.2 else proxy)
    (if proxy.draining then proxy else { proxy with draining := true }.emit .draining)

/-- The branch of `_frontend_event` for a request. -/
def openExchange (streamId : ℕ) (headers : Headers) : Proxy :=
  if proxy.draining ∨ proxy.maximumStreams.val ≤ proxy.exchanges.length then
    proxy.deny .front streamId
  else
    let made : Proxy :=
      { proxy with
        objects := proxy.objects ++
          [{ frontendId := streamId, headers, incoming := { streamId } }]
        exchanges := assign proxy.exchanges streamId proxy.objects.length }
    made.emit (.opened proxy.objects.length)

/-- The data of an event is received. -/
def receive (side : Side) (index : Option ℕ) (event : Event) : Proxy :=
  match event with
  | .data chunk => proxy.emit (.received side index chunk)
  | _ => proxy

/-- The branch of `_frontend_event` and of `_origin_event` for the events of a stream. -/
def dispatchStream (side : Side) (index : Option ℕ) (streamId : ℕ) (event : Event) : Proxy :=
  match index with
  | none => (proxy.receive side none event).credit side streamId event.chunks
  | some index =>
    if event = .reset streamId then proxy.cancel index
    else (proxy.receive side (some index) event).offerOrCancel index side event

/-- `_frontend_event`. -/
def frontendEvent : Event → Proxy
  | .shutdown _ => proxy.drain none
  | .request streamId headers => proxy.openExchange streamId headers
  | .data chunk =>
    proxy.dispatchStream .front (proxy.exchanges.lookup chunk.streamId) chunk.streamId (.data chunk)
  | .trailers streamId headers =>
    proxy.dispatchStream .front (proxy.exchanges.lookup streamId) streamId
      (.trailers streamId headers)
  | .ended streamId =>
    proxy.dispatchStream .front (proxy.exchanges.lookup streamId) streamId (.ended streamId)
  | .reset streamId =>
    proxy.dispatchStream .front (proxy.exchanges.lookup streamId) streamId (.reset streamId)
  | _ => proxy

/-- The exchange of an origin stream, if it has a queue for it. -/
def originExchange (streamId : ℕ) : Option ℕ :=
  (proxy.originStreams.lookup streamId).filter fun index ↦
    ((proxy.objects[index]?).bind Exchange.outgoing).isSome

/-- `exchange.response_ended = True`. -/
def endResponse (index : Option ℕ) : Proxy :=
  match index with
  | none => proxy
  | some index => proxy.update index ({ · with responseEnded := true })

/-- `_origin_event`. -/
def originEvent : Event → Proxy
  | .shutdown lastStreamId => proxy.drain (some lastStreamId)
  | .request _ _ => proxy
  | .response streamId headers =>
    proxy.dispatchStream .origin (proxy.originExchange streamId) streamId
      (.response streamId headers)
  | .informational streamId headers =>
    proxy.dispatchStream .origin (proxy.originExchange streamId) streamId
      (.informational streamId headers)
  | .data chunk =>
    proxy.dispatchStream .origin (proxy.originExchange chunk.streamId) chunk.streamId
      (.data chunk)
  | .trailers streamId headers =>
    (proxy.endResponse (proxy.originExchange streamId)).dispatchStream .origin
      (proxy.originExchange streamId) streamId (.trailers streamId headers)
  | .ended streamId =>
    (proxy.endResponse (proxy.originExchange streamId)).dispatchStream .origin
      (proxy.originExchange streamId) streamId (.ended streamId)
  | .reset streamId =>
    proxy.dispatchStream .origin (proxy.originExchange streamId) streamId (.reset streamId)

/-- The exchange of an origin stream has no complete response. -/
def Unanswered (index : ℕ) : Prop :=
  ∃ exchange ∈ proxy.objects[index]?, exchange.responseEnded = false

instance decidableUnanswered (index : ℕ) : Decidable (proxy.Unanswered index) :=
  inferInstanceAs (Decidable (∃ exchange ∈ proxy.objects[index]?, _))

/-- `_origin_eof`. -/
def originEof : Proxy :=
  proxy.originStreams.foldl
    (fun proxy entry ↦ if proxy.Unanswered entry.2 then proxy.cancel entry.2 else proxy) proxy

/-- `_retire`, up to its first `await`. -/
def retire (index : ℕ) (complete : Bool) : Proxy :=
  match proxy.objects[index]? with
  | none => proxy
  | some exchange =>
    if exchange.retired then proxy
    else
      let proxy := proxy.update index ({ · with retired := true, phase := .over })
      let proxy :=
        if complete then proxy
        else (proxy.deny .front exchange.frontendId).denyOrigin exchange.originId
      let proxy := (proxy.discard index .front).discard index .origin
      { proxy with
        exchanges := unassign proxy.exchanges exchange.frontendId
        originStreams := match exchange.originId with
          | none => proxy.originStreams
          | some originId => unassign proxy.originStreams originId }

/-! ### The tasks of an exchange -/

/-- How the headers of a request are taken by the connection to the origin. -/
inductive Sending
  /-- They are sent. -/
  | sent
  /-- The connection raises, and may have used the stream. -/
  | refused (used : Bool)
deriving DecidableEq

/-- The start of `_request` and of `_upgrade_response`. -/
def start (index : ℕ) (exchange : Exchange) : Proxy :=
  let started := proxy.update index ({ · with started := true })
  if exchange.cancelled then started.retire index false
  else if exchange.upgraded then
    started.update index ({ · with phase := .answering, reply := .waiting })
  else
    match services.readHead exchange.headers with
    | none => started.retire index false
    | some websocket => started.update index ({ · with phase := .authorizing, websocket })

/-- `_request` after `authorize`. -/
def authorized (index : ℕ) : Proxy :=
  (proxy.update index ({ · with phase := .connecting })).emit (.authorized index)

/-- `_request` after `_upstream`, which connects if there is no origin. -/
def reached (index : ℕ) (exchange : Exchange) : Proxy :=
  let leg := proxy.origin.getD {}
  let reached : Proxy := { proxy with origin := some leg }
  if leg.closed then reached.retire index false
  else
    reached.update index
      ({ · with phase := if exchange.websocket then .settling else .locking })

/-- `_request` after the settings of the origin, which may enable extended CONNECT. -/
def settled (index : ℕ) (enabled : Bool) : Proxy :=
  if proxy.origin.any Leg.closed ∨ ¬ enabled then proxy.retire index false
  else proxy.update index ({ · with phase := .locking })

/-- The block of `_request` that holds the write lock of the origin. -/
def dispatch (index : ℕ) (sending : Sending) : Proxy :=
  match proxy.origin with
  | none => proxy
  | some leg =>
    let streamId := leg.nextStreamId
    if 2 ^ 31 - 1 < streamId then proxy.retire index false
    else
      let mapped : Proxy :=
        { proxy.update index ({ · with originId := some streamId, outgoing := some { streamId } })
          with originStreams := assign proxy.originStreams streamId index }
      if leg.failed ∨ leg.peerLast ≠ none then mapped.retire index false
      else
        match sending with
        | .sent =>
          let sent : Proxy := { mapped with origin := some { leg with highest := streamId } }
          (sent.update index ({ · with phase := .flushing })).emit (.headers index streamId)
        | .refused used =>
          let refused : Proxy :=
            { mapped with
              origin := some { leg with highest := if used then streamId else leg.highest } }
          refused.retire index false

/-- `_request` after the headers of the request are drained. -/
def flushed (index : ℕ) : Proxy :=
  proxy.update index fun exchange ↦
    if exchange.websocket then { exchange with phase := .opening, reply := .waiting }
    else { exchange with phase := .forwarding, upload := .waiting, reply := .waiting }

/-- A task takes the next event of its queue. -/
def takeNext (index : ℕ) : Side → Proxy
  | .front => proxy.update index fun exchange ↦
      if exchange.upload = .waiting ∧ ¬ exchange.uploadCancelled then exchange.takeUpload
      else exchange
  | .origin => proxy.update index fun exchange ↦
      if exchange.reply = .waiting then exchange.takeReply services else exchange

/-- The data in the hand of a task is credited, and the task goes on elsewhere. -/
def putDown (index : ℕ) (side : Side) (streamId : ℕ) (chunk : Chunk) (next : Progress) : Proxy :=
  (proxy.credit side streamId [chunk]).update index fun exchange ↦
    match side with
    | .front => { exchange with upload := next }
    | .origin => { exchange with reply := next }

/-- What a task of uploads has sent is drained. -/
def uploadSent (index : ℕ) (exchange : Exchange) : Proxy :=
  match exchange.upload with
  | .sending chunk => proxy.putDown index .front exchange.frontendId chunk .waiting
  | .ending => proxy.update index ({ · with upload := .over, uploadComplete := true })
  | _ => proxy

/-- What a task of replies has sent is drained. -/
def replySent (index : ℕ) (exchange : Exchange) : Proxy :=
  match exchange.reply with
  | .sending chunk => proxy.putDown index .origin (exchange.originId.getD 0) chunk .waiting
  | .relaying =>
    if exchange.phase = .accepting then
      if exchange.cancelled then proxy
      else
        proxy.update index
          ({ · with phase := .tunnelling, upload := .waiting, reply := .waiting })
    else proxy.update index ({ · with reply := .waiting })
  | .ending =>
    if exchange.phase = .tunnelling ∨ exchange.uploadComplete then
      proxy.update index ({ · with reply := .over })
    else proxy.update index ({ · with reply := .over, uploadCancelled := true })
  | _ => proxy

/-- A task raises where it awaits. -/
def interrupt (index : ℕ) (exchange : Exchange) (side : Side) : Proxy :=
  match side, exchange.reader side with
  | .front, .sending chunk => proxy.putDown index .front exchange.frontendId chunk .over
  | .front, _ => proxy.update index ({ · with upload := .over })
  | .origin, .sending chunk =>
    proxy.putDown index .origin (exchange.originId.getD 0) chunk .over
  | .origin, _ => proxy.update index ({ · with reply := .over })

/-- The task of an exchange comes to its cleanup, without an exception if `normal`. -/
def leave (index : ℕ) (exchange : Exchange) (normal : Bool) : Proxy :=
  match exchange.phase with
  | .created => proxy
  | .over => proxy
  | .forwarding =>
    if exchange.upload = .over ∧ exchange.reply = .over then
      proxy.retire index (normal && exchange.uploadComplete)
    else proxy
  | .tunnelling =>
    if exchange.upload = .over ∧ exchange.reply = .over then proxy.retire index normal else proxy
  | .answering =>
    if exchange.reply = .over then proxy.retire index (normal && exchange.upgraded) else proxy
  | _ => proxy.retire index false

/-! ### The end of `run` -/

/-- The end of `run`, up to its first `await`. -/
def shutdown : Proxy :=
  let cancelled := proxy.exchanges.foldl (fun proxy entry ↦ proxy.cancel entry.2) proxy
  { cancelled with
    objects := cancelled.objects.map Exchange.drop
    closing := some (proxy.exchanges.map Prod.snd) }

/-- An exchange that has not retired is discarded. -/
def discardUnretired (index : ℕ) : Proxy :=
  match proxy.objects[index]? with
  | none => proxy
  | some exchange =>
    if exchange.retired then proxy
    else (proxy.discard index .front).discard index .origin

/-- The end of `run` after its tasks, up to the legs. -/
def clear (closing : List ℕ) : Proxy :=
  { closing.foldl discardUnretired proxy with exchanges := [], originStreams := [] }

/-! ### The event loop -/

/-- One step of the event loop. -/
inductive Input
  /-- An event of a connection. -/
  | event (side : Side) (event : Event)
  /-- The connection fails: an error of the protocol closes it. -/
  | fails (side : Side)
  /-- The stream of the connection ends, or raises. -/
  | ends (side : Side) (normal : Bool)
  /-- The task of an exchange runs for the first time. -/
  | start (index : ℕ)
  /-- `authorize` returns. -/
  | authorize (index : ℕ)
  /-- `_upstream` has its connection. -/
  | reach (index : ℕ)
  /-- The settings of the origin are known. -/
  | settle (index : ℕ) (enabled : Bool)
  /-- The write lock of the origin is free. -/
  | dispatch (index : ℕ) (sending : Sending)
  /-- The headers of the request are drained. -/
  | flush (index : ℕ)
  /-- A task takes the next event of its queue. -/
  | take (index : ℕ) (side : Side)
  /-- What a task has sent is drained. -/
  | sent (index : ℕ) (side : Side)
  /-- A task raises where it awaits. -/
  | interrupt (index : ℕ) (side : Side)
  /-- The task of an exchange comes to its cleanup. -/
  | leave (index : ℕ) (normal : Bool)
  /-- `run` comes to its end. -/
  | shutdown
  /-- The tasks that `run` waits for at its end are done. -/
  | clear

/-- The connection of a side, if it reads. -/
def reading : Side → Option Leg
  | .front => if proxy.front.closed then none else some proxy.front
  | .origin => proxy.origin.filter (!·.closed)

/-- Another state of the connection of a side. -/
def putLeg (leg : Leg) : Side → Proxy
  | .front => { proxy with front := leg }
  | .origin => { proxy with origin := some leg }

end Proxy

/-- The pinned h2 connection of a leg emits an event: a request opens a stream above those before it
and comes from a client, data of a response follows its headers, and the last stream of a shutdown
never rises. -/
def Leg.Emits (leg : Leg) : Side → Event → Prop
  | .front, .request streamId _ => leg.highest < streamId
  | .origin, .request _ _ => False
  | .origin, .data chunk => chunk.streamId ∈ leg.answered
  | _, .shutdown lastStreamId => ∀ last ∈ leg.peerLast, lastStreamId ≤ last
  | _, _ => True

instance decidableEmits (leg : Leg) (side : Side) (event : Event) :
    Decidable (leg.Emits side event) := by
  unfold Leg.Emits
  split <;> infer_instance

/-- The connection of a leg has emitted an event. -/
def Leg.after (leg : Leg) : Event → Leg
  | .request streamId _ => { leg with highest := streamId }
  | .response streamId _ => { leg with answered := streamId :: leg.answered }
  | .shutdown lastStreamId => { leg with peerLast := some lastStreamId }
  | _ => leg

/-- An event with its identity. -/
def Event.labelled (number : ℕ) : Event → Event
  | .data chunk => .data { chunk with number }
  | event => event

namespace Proxy

variable (services : Services) (proxy : Proxy)

/-- The body of the loop of `_read`. -/
def read (side : Side) (event : Event) : Proxy :=
  match proxy.reading side with
  | none => proxy
  | some leg =>
    if ¬ leg.Emits side event then proxy
    else
      let event := event.labelled proxy.numbered
      let next := { proxy with numbered := proxy.numbered + 1 }.putLeg (leg.after event) side
      match side with
      | .front => next.frontendEvent event
      | .origin => next.originEvent event

/-- The end of `_read`. -/
def readEnds (side : Side) (normal : Bool) : Proxy :=
  match proxy.reading side with
  | none => proxy
  | some leg =>
    let ended := proxy.putLeg { leg with closed := true } side
    if side = .origin ∧ normal then ended.originEof else ended

/-- The connection of a side fails. -/
def fail : Side → Proxy
  | .front => { proxy with front := { proxy.front with failed := true } }
  | .origin => { proxy with origin := proxy.origin.map ({ · with failed := true }) }

/-- The task of an exchange goes on from a phase, unless it is cancelled. -/
def resume (index : ℕ) (phase : Phase) (work : Exchange → Proxy) : Proxy :=
  match proxy.objects[index]? with
  | none => proxy
  | some exchange =>
    if exchange.phase = phase ∧ ¬ exchange.cancelled then work exchange else proxy

/-- A task of an exchange goes on. -/
def onExchange (index : ℕ) (work : Exchange → Proxy) : Proxy :=
  match proxy.objects[index]? with
  | none => proxy
  | some exchange => work exchange

/-- One step of the event loop. -/
def step : Input → Proxy
  | .event side event => proxy.read side event
  | .fails side => proxy.fail side
  | .ends side normal => proxy.readEnds side normal
  | .start index => proxy.onExchange index fun exchange ↦
      if exchange.phase = .created then proxy.start services index exchange else proxy
  | .authorize index => proxy.resume index .authorizing fun _ ↦ proxy.authorized index
  | .reach index => proxy.resume index .connecting (proxy.reached index)
  | .settle index enabled => proxy.resume index .settling fun _ ↦ proxy.settled index enabled
  | .dispatch index sending => proxy.resume index .locking fun _ ↦ proxy.dispatch index sending
  | .flush index => proxy.resume index .flushing fun _ ↦ proxy.flushed index
  | .take index side => proxy.takeNext services index side
  | .sent index .front => proxy.onExchange index (proxy.uploadSent index)
  | .sent index .origin => proxy.onExchange index (proxy.replySent index)
  | .interrupt index side => proxy.onExchange index (proxy.interrupt index · side)
  | .leave index normal => proxy.onExchange index (proxy.leave index · normal)
  | .shutdown => if proxy.closing = none then proxy.shutdown else proxy
  | .clear =>
    match proxy.closing with
    | none => proxy
    | some closing => proxy.clear closing

/-- Some steps of the event loop. -/
def run (inputs : List Input) : Proxy :=
  inputs.foldl (step services) proxy

end Proxy

/-- `HTTP2Proxy.__init__`. -/
def Proxy.new (maximumStreams : StreamLimit) : Proxy :=
  { maximumStreams }

/-- `HTTP2Proxy.__init__` and `adopt_h2c` of a request with some headers. -/
def Proxy.adopted (maximumStreams : StreamLimit) (headers : Headers) : Proxy where
  maximumStreams
  front := { highest := 1 }
  origin := some { highest := 1 }
  objects := [{
    frontendId := 1
    headers
    incoming := { streamId := 1 }
    originId := some 1
    outgoing := some { streamId := 1 }
    uploadComplete := true
    upgraded := true }]
  exchanges := [(1, 0)]
  originStreams := [(1, 0)]

/-- The proxy before `run`, which may have adopted a request. -/
def Proxy.initial (maximumStreams : StreamLimit) : Option Headers → Proxy
  | none => .new maximumStreams
  | some headers => .adopted maximumStreams headers

end Ads.SandboxEgress.Http2Proxy
