import Ads.SandboxEgress.Http2

/-!
# Bodies and their lengths

`Conforming` says of what passes a leg that data follows a final head and fits the length of its
body, that END_STREAM comes where the body is complete, and that interim responses do not end a
stream. It is stated on what is shown alone: `exchangeOf` reads off it the request of a stream with
its method, and how much of either body has passed.

A leg keeps to it in every run (`bodies_conform`), and resets the stream of a frame that would not.
What the gate relies on of the library is `Library.Lawful`.
-/

set_option autoImplicit false
set_option relaxedAutoImplicit false

namespace Ads.SandboxEgress.Http2

open Dns Foundation.Runs Foundation.StateExcept Python

/-! ### What passes a leg -/

/-- A message of which the final head has passed. -/
structure Message where
  /-- The length of the body, where it has to have one. -/
  limit : Option ℕ
  /-- The octets of the body so far. -/
  total : ℕ
deriving DecidableEq

/-- The messages of a stream. -/
structure Exchange where
  /-- The method of the request. -/
  method : Option Bytes := none
  /-- The request. -/
  request : Option Message := none
  /-- The response. -/
  response : Option Message := none
deriving DecidableEq

/-- The status of a response. -/
def statusOf (fields : Headers) : ℕ :=
  decimalBytes (((pseudoOf fields).lookup (ascii ":status")).getD [])

/-- The head is that of an interim response. -/
def isInterim (fields : Headers) : Bool :=
  100 ≤ statusOf fields && statusOf fields < 200

/-- The length the body of a response has to have. -/
def responseLimit (method : Option Bytes) (fields : Headers) : Option ℕ :=
  if method = some (ascii "CONNECT") ∧ 200 ≤ statusOf fields ∧ statusOf fields < 300 then none
  else if statusOf fields = 204 ∨ statusOf fields = 304 ∨ method = some (ascii "HEAD") then some 0
  else contentLength fields

/-- More octets of the body. -/
def Message.add (message : Message) (count : ℕ) : Message :=
  { message with total := message.total + count }

/-- The messages of a stream after what is shown. The first head of a request, and the first head of
a response that is not interim, are final. -/
def Exchange.add (clientSide : Bool) (streamId : StreamId) (exchange : Exchange) :
    Shown → Exchange
  | .head incoming stream fields _ =>
    if stream ≠ streamId then exchange
    else if incoming = clientSide then
      if isInterim fields ∨ exchange.response.isSome then exchange
      else { exchange with response := some ⟨responseLimit exchange.method fields, 0⟩ }
    else if exchange.request.isSome then exchange
    else { exchange with
      method := (pseudoOf fields).lookup (ascii ":method")
      request := some ⟨contentLength fields, 0⟩ }
  | .data incoming stream payload =>
    if stream ≠ streamId then exchange
    else if incoming = clientSide then
      { exchange with response := exchange.response.map (Message.add · payload.length) }
    else { exchange with request := exchange.request.map (Message.add · payload.length) }
  | .upgraded method =>
    if streamId = 1 then { exchange with method := some method, request := some ⟨some 0, 0⟩ }
    else exchange
  | _ => exchange

/-- The messages of a stream in a trace. -/
def exchangeOf (clientSide : Bool) (streamId : StreamId) (trace : List Shown) : Exchange :=
  trace.foldl (Exchange.add clientSide streamId) {}

/-- The message in a direction. -/
def Exchange.message (exchange : Exchange) (clientSide incoming : Bool) : Option Message :=
  if incoming = clientSide then exchange.response else exchange.request

/-- What may be shown: data that fits, the end of a complete body, interim responses that do not
end the stream. -/
def Shown.Conforms (clientSide : Bool) (before : List Shown) : Shown → Prop
  | .head incoming _ fields ends => incoming = clientSide → isInterim fields → ends = false
  | .data incoming streamId payload =>
    ∃ message ∈ (exchangeOf clientSide streamId before).message clientSide incoming,
      ∀ limit ∈ message.limit, message.total + payload.length ≤ limit
  | .ended incoming streamId =>
    ∃ message ∈ (exchangeOf clientSide streamId before).message clientSide incoming,
      ∀ limit ∈ message.limit, message.total = limit
  | _ => True

/-- Everything shown conforms. -/
def Conforming (clientSide : Bool) (trace : List Shown) : Prop :=
  Along (Shown.Conforms clientSide) trace

/-- What a frame of a message would show, its header block decoded by the library. -/
def Frame.shows {σ : Type} (h2 : Library σ) (library : σ) : Frame → List Shown
  | .headers frame =>
    match h2.openStream library frame with
    | .done _ fields => .head true frame.streamId fields frame.endStream ::
        endOf true frame.streamId frame.endStream
    | _ => []
  | .data frame => .data true frame.streamId frame.payload ::
      endOf true frame.streamId frame.endStream
  | _ => []

/-- The stream of a frame of a message. -/
def Frame.stream : Frame → Option StreamId
  | .headers frame => some frame.streamId
  | .data frame => some frame.streamId
  | _ => none

/-! ### The library -/

section Laws

variable {σ : Type} (h2 : Library σ)

/-- Only a stream that was never there, and that is as it should be, comes to live. -/
structure Opens (mayOpen : StreamId → Prop) (before after : σ) : Prop where
  /-- What lives lived before, or opens. -/
  live : ∀ streamId, h2.live after streamId →
    h2.live before streamId ∨ h2.fresh before streamId ∧ mayOpen streamId
  /-- No stream becomes fresh. -/
  fresh : ∀ streamId, h2.fresh after streamId → h2.fresh before streamId

/-- No stream comes to live. -/
abbrev Stays (before after : σ) : Prop :=
  Opens h2 (fun _ ↦ False) before after

/-- The peer opens streams with this identifier. -/
def OfPeer (streamId : StreamId) : Prop :=
  streamId % 2 = if h2.clientSide then 0 else 1

/-- No message is in the events. -/
def Quiet (events : List Event) : Prop :=
  ∀ event ∈ events, event.shown = [] ∨ ∃ streamId, event = .reset streamId

/-- A call about a stream returns as it should; where it finds the stream closed, the stream does
not live, and lengths are compared on live streams. -/
def Reply.Obeys {α : Type} (before : σ) (streamId : StreamId) (returns : σ → α → Prop) :
    Reply σ α → Prop
  | .done after value => returns after value
  | .closed after events => Stays h2 before after ∧ ¬ h2.live after streamId ∧ Quiet events
  | .mismatch after => h2.live before streamId ∧ Stays h2 before after
  | .fatal => True

/-- The documented behaviour of the library that the gate relies on: a stream opens once and by the
side its identifier belongs to, messages are received and sent on open streams only, and an event
says what its frame says. -/
structure Library.Lawful : Prop where
  /-- What lives was in `streams`. -/
  live : ∀ state streamId, h2.live state streamId → ¬ h2.fresh state streamId
  /-- The next stream of a client is its own and new. -/
  nextStream : ∀ state, h2.clientSide →
    h2.fresh state (h2.nextStream state) ∧ ¬ OfPeer h2 (h2.nextStream state)
  /-- HEADERS may open the stream. -/
  openStream : ∀ state frame, (h2.openStream state frame).Obeys h2 state frame.streamId fun after _ ↦
    Opens h2 (fun streamId ↦ streamId = frame.streamId ∧ OfPeer h2 streamId) state after
  /-- A priority opens nothing. -/
  receivePriority : ∀ state frame,
    (h2.receivePriority state frame).Obeys h2 state frame.streamId fun after _ ↦
      Stays h2 state after
  /-- A header block is received on a live stream. -/
  receiveHeaders : ∀ state streamId fields ends,
    (h2.receiveHeaders state streamId fields ends).Obeys h2 state streamId fun after events ↦
      h2.live state streamId ∧ Stays h2 state after ∧
        events = .headers streamId fields ends :: if ends then [.ended streamId] else []
  /-- Data is received on a live stream. -/
  receiveData : ∀ state frame,
    (h2.receiveData state frame).Obeys h2 state frame.streamId fun after events ↦
      h2.live state frame.streamId ∧ Stays h2 state after ∧
        events = .data frame.streamId frame.payload frame.flowControlledLength ::
          if frame.endStream then [.ended frame.streamId] else []
  /-- GOAWAY opens nothing. -/
  receiveGoaway : ∀ state, Stays h2 state (h2.receiveGoaway state)
  /-- No other frame has a message. -/
  receiveOther : ∀ state octets, ∃ streamId,
    (h2.receiveOther state octets).Obeys h2 state streamId fun after events ↦
      Stays h2 state after ∧ Quiet events
  /-- Nothing opens where a stream advances. -/
  advance : ∀ state streamId, Stays h2 state (h2.advance state streamId)
  /-- RST_STREAM opens nothing. -/
  queueReset : ∀ state streamId, Stays h2 state (h2.queueReset state streamId)
  /-- A stream that is reset is closed. -/
  resetStream : ∀ state streamId, Stays h2 state (h2.resetStream state streamId) ∧
    ¬ h2.live (h2.resetStream state streamId) streamId
  /-- Credit opens nothing. -/
  acknowledge : ∀ state count streamId, Stays h2 state (h2.acknowledge state count streamId)
  /-- GOAWAY opens nothing. -/
  queueGoaway : ∀ state streamId, Stays h2 state (h2.queueGoaway state streamId)
  /-- A header block is sent on a live or a new stream. -/
  sendHeaders : ∀ state streamId fields ends,
    (h2.sendHeaders state streamId fields ends).Obeys h2 state streamId fun after _ ↦
      (h2.live state streamId ∨ h2.fresh state streamId) ∧
        Opens h2 (· = streamId) state after ∧ ¬ h2.fresh after streamId
  /-- Data is sent on a live stream. -/
  sendData : ∀ state streamId payload ends,
    (h2.sendData state streamId payload ends).Obeys h2 state streamId fun after _ ↦
      h2.live state streamId ∧ Stays h2 state after
  /-- END_STREAM is sent on a live stream. -/
  endStream : ∀ state streamId,
    (h2.endStream state streamId).Obeys h2 state streamId fun after _ ↦
      h2.live state streamId ∧ Stays h2 state after
  /-- An upgrade opens stream 1. -/
  upgrade : ∀ state settings, h2.fresh state 1 →
    Opens h2 (· = 1) state (h2.upgrade state settings) ∧ ¬ h2.fresh (h2.upgrade state settings) 1

end Laws

/-! ### Header blocks that pass -/

/-- A header block of HTTP/2 that passes is as it was. -/
theorem validateHeaders_h2 {headers result : Headers} (hvalid : validateHeaders headers true = .ok result) :
    result = headers := by
  have hlower : ∀ (items : Headers) (gate final : HeaderGate),
      items.foldlM (HeaderGate.take true) gate = .ok final →
        ∀ item ∈ items, lowerBytes item.1 = item.1 := by
    intro items
    induction items with
    | nil => exact fun _ _ _ ↦ nofun
    | cons item rest ih =>
      intro gate final hrun
      rw [List.foldlM_cons] at hrun
      obtain ⟨next, htake, hrest⟩ := except_bind_eq_ok.mp hrun
      have hitem : lowerBytes item.1 = item.1 := by
        unfold HeaderGate.take at htake
        dsimp only at htake
        split_ifs at htake with _ _ hcase
        all_goals exact (not_not.mp (not_and.mp hcase rfl)).symm
      exact List.forall_mem_cons.mpr ⟨hitem, ih next final hrest⟩
  rw [validateHeaders_eq hvalid]
  obtain ⟨gate, hgate, -⟩ := except_bind_eq_ok.mp hvalid
  calc headers.map (fun header ↦ (lowerBytes header.1, header.2)) = headers.map id :=
        List.map_congr_left fun header hheader ↦
          Prod.ext (hlower headers {} gate hgate header hheader) rfl
    _ = headers := List.map_id headers

/-- Trailers that pass are as they were and have no pseudo-headers. -/
theorem validateTrailers_h2 {headers result : Headers}
    (hvalid : validateTrailers headers true = .ok result) :
    result = headers ∧ pseudoOf headers = [] := by
  obtain ⟨values, hvalues, hrest⟩ := except_bind_eq_ok.mp hvalid
  obtain rfl := validateHeaders_h2 hvalues
  split_ifs at hrest with _ hforbidden
  obtain rfl := except_pure_eq_ok.mp hrest
  refine ⟨rfl, List.filter_eq_nil_iff.mpr fun field hfield hpseudo ↦ hforbidden ?_⟩
  exact List.any_eq_true.mpr ⟨field, hfield, by rw [hpseudo]; rfl⟩

/-- The fields of a block that passes are those of the block. -/
theorem messageFields_eq {values fields : Headers} (hfields : messageFields values = .ok fields) :
    fields = values := by
  obtain ⟨result, hvalid, hrest⟩ := except_bind_eq_ok.mp hfields
  obtain ⟨_, -, hpure⟩ := except_bind_eq_ok.mp hrest
  rw [← except_pure_eq_ok.mp hpure]
  exact validateHeaders_h2 hvalid

/-- `finish` returns where the body is complete. -/
theorem finish_eq_ok {body : BodyLength} :
    body.finish = .ok () ↔ ∀ limit ∈ body.expected, body.received = limit := by
  unfold BodyLength.finish
  cases hexpected : body.expected with
  | none => simp [pure, Except.pure]
  | some limit =>
    by_cases hlimit : body.received = limit <;> simp [hlimit, pure, Except.pure]

/-- `add` returns where the octets fit. -/
theorem add_eq_ok {body after : BodyLength} {count : ℕ} (hadd : body.add count = (after, .ok ())) :
    after = { body with received := body.received + count } ∧
      ∀ limit ∈ body.expected, body.received + count ≤ limit := by
  unfold BodyLength.add at hadd
  by_cases hbound : body.received + count > 2 ^ 63 - 1
  · rw [if_pos hbound] at hadd
    cases (Prod.mk.inj hadd).2
  rw [if_neg hbound] at hadd
  obtain ⟨hafter, hraised⟩ := Prod.mk.inj hadd
  refine ⟨hafter.symm, fun limit hlimit ↦ ?_⟩
  by_contra hover
  rw [if_pos ((Option.any_eq_true _ _).mpr ⟨limit, hlimit, decide_eq_true (not_le.mp hover)⟩)]
    at hraised
  cases hraised

/-- Three digits of which the first is not zero are at least a hundred. -/
theorem le_decimalBytes_of_isStatus {value : Bytes} (hvalue : isStatus value) :
    100 ≤ decimalBytes value := by
  unfold isStatus at hvalue
  obtain ⟨hlength, -, hhead⟩ := of_decide_eq_true hvalue
  obtain ⟨first, second, third, rfl⟩ := List.length_eq_three.mp hlength
  have hfirst : 49 ≤ first.val := by
    simp only [List.head?_cons, Option.any_some, Bool.and_eq_true, decide_eq_true_eq] at hhead
    exact hhead.1
  simp only [decimalBytes, List.foldl_cons, List.foldl_nil]
  omega

/-- The status that is read is the status. -/
theorem responseStatus_eq {fields : Headers} {status : ℕ}
    (hstatus : responseStatus fields = .ok status) : status = statusOf fields ∧ 100 ≤ status := by
  obtain ⟨_, hfail, hpure⟩ := except_bind_eq_ok.mp hstatus
  obtain rfl := except_pure_eq_ok.mp hpure
  have hpseudo := not_or.mp (failIf_eq_ok.mp hfail)
  exact ⟨rfl, le_decimalBytes_of_isStatus (not_not.mp (not_or.mp hpseudo.2).2)⟩

/-- The expected length of a response is its limit. -/
theorem responseLength_eq {method : Option Bytes} {fields : Headers} {expected : Option ℕ}
    (hlength : responseLength method (statusOf fields) fields = .ok expected) :
    expected = responseLimit method fields := by
  unfold responseLength at hlength
  dsimp only at hlength
  obtain ⟨_, -, hrest⟩ := except_bind_eq_ok.mp hlength
  obtain ⟨_, hconnect, hpure⟩ := except_bind_eq_ok.mp hrest
  rw [← except_pure_eq_ok.mp hpure]
  have hdeclared := failIf_eq_ok.mp hconnect
  unfold responseLimit
  by_cases hsuccess : method = some (ascii "CONNECT") ∧ 200 ≤ statusOf fields ∧ statusOf fields < 300
  · -- A successful CONNECT declares no length, and its method is not HEAD.
    rw [if_pos hsuccess, if_neg]
    · have hnone : ¬ (contentLength fields).isSome := fun hsome ↦
        hdeclared ⟨decide_eq_true hsuccess, hsome⟩
      simpa using hnone
    · rintro (⟨-, hnot⟩ | hhead)
      · exact hnot (decide_eq_true hsuccess)
      · have hmethods := hsuccess.1.symm.trans hhead
        revert hmethods
        decide
  · rw [if_neg hsuccess]
    simp only [hsuccess, decide_false, Bool.false_eq_true, not_false_eq_true, and_true, or_assoc]

/-- The method that is read is that of the request. -/
theorem requestMethod_eq {σ : Type} {h2 : Library σ} {connection : Connection σ} {fields : Headers}
    {incoming : Bool} {method : Bytes}
    (hmethod : connection.requestMethod h2 fields incoming = .ok method) :
    (pseudoOf fields).lookup (ascii ":method") = some method := by
  unfold Connection.requestMethod at hmethod
  dsimp only at hmethod
  obtain ⟨_, hfail, hrest⟩ := except_bind_eq_ok.mp hmethod
  have hdescribes := not_not.mp (failIf_eq_ok.mp hfail)
  unfold describesRequest at hdescribes
  have hall := (of_decide_eq_true hdescribes).1
  have hsome : ((pseudoOf fields).lookup (ascii ":method")).isSome :=
    List.all_eq_true.mp hall (ascii ":method") (by simp)
  obtain ⟨found, hfound⟩ := Option.isSome_iff_exists.mp hsome
  have hreturns : ∀ {first : Except Raised Unit} {second : Except Raised Unit} {result : Bytes},
      (do first; second; return result) = .ok method → result = method := by
    intro first second result hrun
    obtain ⟨_, -, hrun⟩ := except_bind_eq_ok.mp hrun
    obtain ⟨_, -, hrun⟩ := except_bind_eq_ok.mp hrun
    exact except_pure_eq_ok.mp hrun
  rw [hfound] at hrest ⊢
  split_ifs at hrest <;> exact congrArg some (hreturns hrest)

section Gate

variable {σ : Type} {h2 : Library σ}

/-- What `_headers` lets through: trailers of a complete message, an interim response, or the head
of a response or of a request. -/
inductive Passes (h2 : Library σ) (connection : Connection σ) (streamId : StreamId)
    (ends incoming : Bool) : Headers → Connection σ → Prop
  /-- Trailers. -/
  | trailers {body : BodyLength} {fields : Headers}
    (hmessage : connection.messages incoming streamId = some body)
    (hpseudo : pseudoOf fields = []) (hcomplete : body.finish = .ok ()) :
    Passes h2 connection streamId ends incoming fields connection
  /-- An interim response. -/
  | interim {fields : Headers} {informationals : Bool → StreamId → ℕ}
    (hresponse : incoming = h2.clientSide) (hinterim : isInterim fields) (hends : ends = false) :
    Passes h2 connection streamId ends incoming fields { connection with informationals }
  /-- A response. -/
  | response {fields : Headers} {expected : Option ℕ} (hresponse : incoming = h2.clientSide)
    (hmessage : connection.messages incoming streamId = none) (hfinal : ¬ isInterim fields)
    (hexpected : expected = responseLimit (connection.methods streamId) fields)
    (hcomplete : ends → BodyLength.finish { expected } = .ok ()) :
    Passes h2 connection streamId ends incoming fields
      (connection.record incoming streamId { expected })
  /-- A request. -/
  | request {fields : Headers} {method : Bytes} (hrequest : incoming ≠ h2.clientSide)
    (hmessage : connection.messages incoming streamId = none)
    (hmethod : (pseudoOf fields).lookup (ascii ":method") = some method)
    (hcomplete : ends → BodyLength.finish { expected := contentLength fields } = .ok ()) :
    Passes h2 connection streamId ends incoming fields
      ({ connection with methods := Function.update connection.methods streamId (some method)
        }.record incoming streamId { expected := contentLength fields })

/-- A message that starts is recorded, and complete where it ends at once. -/
theorem startMessage_eq {connection after : Connection σ} {streamId : StreamId} {fields : Headers}
    {expected : Option ℕ} {ends incoming : Bool} {outcome : Except Raised Headers}
    (hstart : connection.startMessage streamId fields expected ends incoming = (outcome, after)) :
    (∃ raised, outcome = .error raised ∧ after = connection) ∨
      outcome = .ok fields ∧ after = connection.record incoming streamId { expected } ∧
        (ends → BodyLength.finish { expected } = .ok ()) := by
  unfold Connection.startMessage at hstart
  dsimp only at hstart
  split_ifs at hstart with hhosts hends
  · obtain ⟨rfl, rfl⟩ := Prod.mk.inj hstart
    exact Or.inl ⟨_, rfl, rfl⟩
  · cases hfinish : BodyLength.finish { expected } with
    | error raised =>
      rw [hfinish] at hstart
      obtain ⟨rfl, rfl⟩ := Prod.mk.inj hstart
      exact Or.inl ⟨_, rfl, rfl⟩
    | ok _ =>
      rw [hfinish] at hstart
      obtain ⟨rfl, rfl⟩ := Prod.mk.inj hstart
      exact Or.inr ⟨rfl, rfl, fun _ ↦ rfl⟩
  · obtain ⟨rfl, rfl⟩ := Prod.mk.inj hstart
    exact Or.inr ⟨rfl, rfl, fun htrue ↦ absurd htrue hends⟩

/-- What `_headers` does: a block passes, or it is refused, where at most the method of a request is
kept. -/
theorem checkHeaders_eq {connection after : Connection σ} {streamId : StreamId} {values : Headers}
    {ends incoming : Bool} {outcome : Except Raised Headers}
    (hcheck : connection.checkHeaders h2 streamId values ends incoming = (outcome, after)) :
    (∃ raised, outcome = .error raised ∧ (after = connection ∨
      incoming ≠ h2.clientSide ∧ connection.messages incoming streamId = none ∧ ∃ method,
        after = { connection with
          methods := Function.update connection.methods streamId (some method) })) ∨
      outcome = .ok values ∧ Passes h2 connection streamId ends incoming values after := by
  unfold Connection.checkHeaders at hcheck
  cases hfields : messageFields values with
  | error raised =>
    rw [hfields] at hcheck
    obtain ⟨rfl, rfl⟩ := Prod.mk.inj hcheck
    exact Or.inl ⟨_, rfl, Or.inl rfl⟩
  | ok fields =>
  obtain rfl := messageFields_eq hfields
  rw [hfields] at hcheck
  cases hmessage : connection.messages incoming streamId with
  | some body =>
    rw [hmessage] at hcheck
    obtain ⟨rfl, rfl⟩ := Prod.mk.inj hcheck
    cases htrailers : messageTrailers body fields ends with
    | error raised => exact Or.inl ⟨_, rfl, Or.inl rfl⟩
    | ok result =>
      obtain ⟨trailers, hvalid, hrest⟩ := except_bind_eq_ok.mp htrailers
      obtain ⟨_, -, hrest⟩ := except_bind_eq_ok.mp hrest
      obtain ⟨_, hfinish, hpure⟩ := except_bind_eq_ok.mp hrest
      obtain rfl := except_pure_eq_ok.mp hpure
      obtain ⟨rfl, hpseudo⟩ := validateTrailers_h2 hvalid
      exact Or.inr ⟨rfl, .trailers hmessage hpseudo hfinish⟩
  | none =>
  rw [hmessage] at hcheck
  dsimp only at hcheck
  by_cases hresponse : incoming = h2.clientSide
  · rw [if_pos hresponse] at hcheck
    unfold Connection.checkResponse at hcheck
    cases hstatus : responseStatus fields with
    | error raised =>
      rw [hstatus] at hcheck
      obtain ⟨rfl, rfl⟩ := Prod.mk.inj hcheck
      exact Or.inl ⟨_, rfl, Or.inl rfl⟩
    | ok status =>
    obtain ⟨rfl, hlower⟩ := responseStatus_eq hstatus
    rw [hstatus] at hcheck
    dsimp only at hcheck
    split_ifs at hcheck with hinterim hrefused
    · obtain ⟨rfl, rfl⟩ := Prod.mk.inj hcheck
      exact Or.inl ⟨_, rfl, Or.inl rfl⟩
    · obtain ⟨rfl, rfl⟩ := Prod.mk.inj hcheck
      have hends : ends = false := by
        have hnot := (not_or.mp (not_or.mp hrefused).2).1
        simpa using hnot
      exact Or.inr ⟨rfl, .interim hresponse (by simp [isInterim, hlower, hinterim]) hends⟩
    · cases hlength : responseLength (connection.methods streamId) (statusOf fields) fields with
      | error raised =>
        rw [hlength] at hcheck
        obtain ⟨rfl, rfl⟩ := Prod.mk.inj hcheck
        exact Or.inl ⟨_, rfl, Or.inl rfl⟩
      | ok expected =>
        rw [hlength] at hcheck
        rcases startMessage_eq hcheck with ⟨raised, rfl, rfl⟩ | ⟨rfl, rfl, hcomplete⟩
        · exact Or.inl ⟨_, rfl, Or.inl rfl⟩
        · have hfinal : ¬ isInterim fields := by simpa [isInterim, hlower] using hinterim
          exact Or.inr ⟨rfl, .response hresponse hmessage hfinal (responseLength_eq hlength)
            hcomplete⟩
  · rw [if_neg hresponse] at hcheck
    cases hmethod : connection.requestMethod h2 fields incoming with
    | error raised =>
      rw [hmethod] at hcheck
      obtain ⟨rfl, rfl⟩ := Prod.mk.inj hcheck
      exact Or.inl ⟨_, rfl, Or.inl rfl⟩
    | ok method =>
      rw [hmethod] at hcheck
      rcases startMessage_eq hcheck with ⟨raised, rfl, rfl⟩ | ⟨rfl, rfl, hcomplete⟩
      · exact Or.inl ⟨_, rfl, Or.inr ⟨hresponse, rfl, method, rfl⟩⟩
      · exact Or.inr ⟨rfl, .request hresponse hmessage (requestMethod_eq hmethod) hcomplete⟩

/-! ### Messages and what is shown -/

/-- The message that is counted. -/
def messageOf (body : BodyLength) : Message :=
  ⟨body.expected, body.received⟩

/-- The messages after more is shown. -/
theorem exchangeOf_append {clientSide : Bool} {streamId : StreamId} {trace later : List Shown} :
    exchangeOf clientSide streamId (trace ++ later) =
      later.foldl (Exchange.add clientSide streamId) (exchangeOf clientSide streamId trace) :=
  List.foldl_append

/-- A head does nothing to other streams. -/
theorem add_head_of_ne {clientSide incoming ends : Bool} {streamId stream : StreamId}
    {fields : Headers} {exchange : Exchange} (hne : stream ≠ streamId) :
    exchange.add clientSide streamId (.head incoming stream fields ends) = exchange :=
  if_pos hne

/-- Trailers do nothing. -/
theorem add_head_of_message {clientSide incoming ends : Bool} {streamId : StreamId}
    {fields : Headers} {exchange : Exchange}
    (hmessage : (exchange.message clientSide incoming).isSome) :
    exchange.add clientSide streamId (.head incoming streamId fields ends) = exchange := by
  unfold Exchange.message at hmessage
  unfold Exchange.add
  dsimp only
  rw [if_neg (not_not.mpr rfl)]
  by_cases hresponse : incoming = clientSide
  · rw [if_pos hresponse] at hmessage ⊢
    rw [if_pos (Or.inr hmessage)]
  · rw [if_neg hresponse] at hmessage ⊢
    rw [if_pos hmessage]

/-- An interim response does nothing. -/
theorem add_head_of_interim {clientSide ends : Bool} {streamId : StreamId} {fields : Headers}
    {exchange : Exchange} (hinterim : isInterim fields) :
    exchange.add clientSide streamId (.head clientSide streamId fields ends) = exchange := by
  simp [Exchange.add, hinterim]

/-- The head of a response. -/
theorem add_head_response {clientSide ends : Bool} {streamId : StreamId} {fields : Headers}
    {exchange : Exchange} (hfinal : ¬ isInterim fields) (hnone : exchange.response = none) :
    exchange.add clientSide streamId (.head clientSide streamId fields ends) =
      { exchange with response := some ⟨responseLimit exchange.method fields, 0⟩ } := by
  simp [Exchange.add, hfinal, hnone]

/-- The head of a request. -/
theorem add_head_request {clientSide incoming ends : Bool} {streamId : StreamId} {fields : Headers}
    {exchange : Exchange} (hrequest : incoming ≠ clientSide) (hnone : exchange.request = none) :
    exchange.add clientSide streamId (.head incoming streamId fields ends) =
      { exchange with
        method := (pseudoOf fields).lookup (ascii ":method")
        request := some ⟨contentLength fields, 0⟩ } := by
  simp [Exchange.add, hrequest, hnone]

/-- Data does nothing to other streams. -/
theorem add_data_of_ne {clientSide incoming : Bool} {streamId stream : StreamId} {payload : Bytes}
    {exchange : Exchange} (hne : stream ≠ streamId) :
    exchange.add clientSide streamId (.data incoming stream payload) = exchange :=
  if_pos hne

/-- END_STREAM is no part of a message. -/
theorem foldl_endOf {clientSide incoming ends : Bool} {streamId stream : StreamId}
    {exchange : Exchange} :
    (endOf incoming stream ends).foldl (Exchange.add clientSide streamId) exchange = exchange := by
  cases ends <;> rfl

/-- Data is counted in its direction. -/
theorem message_add_data (clientSide incoming : Bool) (streamId : StreamId) (payload : Bytes)
    (exchange : Exchange) :
    (exchange.add clientSide streamId (.data incoming streamId payload)).message clientSide incoming =
        (exchange.message clientSide incoming).map (Message.add · payload.length) ∧
      (exchange.add clientSide streamId (.data incoming streamId payload)).message clientSide
        (!incoming) = exchange.message clientSide (!incoming) ∧
      (exchange.add clientSide streamId (.data incoming streamId payload)).method =
        exchange.method := by
  cases clientSide <;> cases incoming <;> simp [Exchange.add, Exchange.message]

/-- The messages are looked up by direction. -/
theorem messages_record (connection : Connection σ) (incoming : Bool) (streamId : StreamId)
    (body : BodyLength) :
    (connection.record incoming streamId body).messages incoming streamId = some body ∧
      (connection.record incoming streamId body).messages (!incoming) =
        connection.messages (!incoming) := by
  cases incoming <;> simp [Connection.record, Connection.messages]

/-- Two connections agree on a stream. -/
structure Agree (streamId : StreamId) (connection after : Connection σ) : Prop where
  /-- `_received`. -/
  received : after.received streamId = connection.received streamId
  /-- `_sent`. -/
  sent : after.sent streamId = connection.sent streamId
  /-- `_methods`. -/
  methods : after.methods streamId = connection.methods streamId

/-- A record is of one stream. -/
theorem Agree.record {connection : Connection σ} {incoming : Bool} {streamId other : StreamId}
    {body : BodyLength} (hother : other ≠ streamId) :
    Agree other connection (connection.record incoming streamId body) := by
  cases incoming <;> constructor <;> simp [Connection.record, Function.update_of_ne hother]

/-- What passes is of one stream. -/
theorem Passes.agree {connection after : Connection σ} {streamId other : StreamId} {fields : Headers}
    {ends incoming : Bool} (hpasses : Passes h2 connection streamId ends incoming fields after)
    (hother : other ≠ streamId) : Agree other connection after := by
  cases hpasses with
  | trailers => exact ⟨rfl, rfl, rfl⟩
  | interim => exact ⟨rfl, rfl, rfl⟩
  | response => exact Agree.record hother
  | request =>
    cases incoming <;> constructor <;> simp [Connection.record, Function.update_of_ne hother]

/-- What passes leaves the library alone. -/
theorem Passes.library_eq {connection after : Connection σ} {streamId : StreamId}
    {fields : Headers} {ends incoming : Bool}
    (hpasses : Passes h2 connection streamId ends incoming fields after) :
    after.library = connection.library := by
  cases hpasses <;> cases incoming <;> rfl

/-- What passes leaves the messages of the other direction alone. -/
theorem Passes.messages_not {connection after : Connection σ} {streamId : StreamId}
    {fields : Headers} {ends incoming : Bool}
    (hpasses : Passes h2 connection streamId ends incoming fields after) :
    after.messages (!incoming) = connection.messages (!incoming) := by
  cases hpasses <;> cases incoming <;> rfl

/-- A block without pseudo-headers is not interim. -/
theorem not_isInterim_of_pseudoOf_nil {fields : Headers} (hpseudo : pseudoOf fields = []) :
    ¬ isInterim fields := by
  simp [isInterim, statusOf, hpseudo, decimalBytes]

/-- What passes keeps the record of the stream in step with what is shown. -/
theorem Passes.exchange {connection after : Connection σ} {streamId : StreamId} {fields : Headers}
    {ends incoming : Bool} {exchange : Exchange}
    (hpasses : Passes h2 connection streamId ends incoming fields after)
    (hmethod : connection.methods streamId = exchange.method ∨
      connection.messages incoming streamId = none ∧ incoming ≠ h2.clientSide)
    (hmessage : exchange.message h2.clientSide incoming =
      (connection.messages incoming streamId).map messageOf) :
    let next := exchange.add h2.clientSide streamId (.head incoming streamId fields ends)
    after.methods streamId = next.method ∧
      next.message h2.clientSide incoming = (after.messages incoming streamId).map messageOf ∧
      next.message h2.clientSide (!incoming) = exchange.message h2.clientSide (!incoming) ∧
      (ends → ∃ message ∈ next.message h2.clientSide incoming,
        ∀ limit ∈ message.limit, message.total = limit) ∧
      (incoming = h2.clientSide → isInterim fields → ends = false) := by
  intro next
  cases hpasses with
  | trailers hfound hpseudo hcomplete =>
    rw [hfound] at hmessage hmethod
    have hsame : next = exchange := add_head_of_message (by rw [hmessage]; rfl)
    rw [hsame]
    refine ⟨hmethod.resolve_right fun hnone ↦ (nomatch hnone.1), by rw [hmessage, hfound], rfl,
      fun _ ↦ ⟨_, hmessage, finish_eq_ok.mp hcomplete⟩, fun _ hinterim ↦ ?_⟩
    exact absurd hinterim (not_isInterim_of_pseudoOf_nil hpseudo)
  | interim hresponse hinterim hends =>
    subst hresponse
    have hsame : next = exchange := add_head_of_interim hinterim
    rw [hsame]
    refine ⟨hmethod.resolve_right fun hnone ↦ hnone.2 rfl, hmessage, rfl, fun htrue ↦ ?_,
      fun _ _ ↦ hends⟩
    rw [hends] at htrue
    cases htrue
  | @response _ expected hresponse hfound hfinal hexpected hcomplete =>
    subst hresponse
    have hsame := hmethod.resolve_right fun hnone ↦ hnone.2 rfl
    rw [hfound] at hmessage
    have hnext : next = { exchange with
        response := some ⟨responseLimit exchange.method fields, 0⟩ } := by
      refine add_head_response hfinal ?_
      unfold Exchange.message at hmessage
      rwa [if_pos rfl] at hmessage
    rw [hsame] at hexpected
    have hfinal' : next.message h2.clientSide h2.clientSide = some (messageOf { expected }) := by
      rw [hnext, hexpected]
      exact if_pos rfl
    refine ⟨?_, ?_, ?_, fun hends ↦ ⟨_, hfinal', finish_eq_ok.mp (hcomplete hends)⟩,
      fun _ hinterim ↦ absurd hinterim hfinal⟩
    · rw [hnext, ← hsame]
      cases h2.clientSide <;> rfl
    · rw [hfinal', (messages_record _ _ _ _).1]
      rfl
    · rw [hnext]
      cases h2.clientSide <;> rfl
  | @request _ method hrequest hfound hlookup hcomplete =>
    rw [hfound] at hmessage
    have hnext : next = { exchange with
        method := (pseudoOf fields).lookup (ascii ":method")
        request := some ⟨contentLength fields, 0⟩ } := by
      refine add_head_request hrequest ?_
      unfold Exchange.message at hmessage
      rwa [if_neg hrequest] at hmessage
    have hfinal : next.message h2.clientSide incoming =
        some (messageOf { expected := contentLength fields }) := by
      rw [hnext]
      exact if_neg hrequest
    refine ⟨?_, ?_, ?_, fun hends ↦ ⟨_, hfinal, finish_eq_ok.mp (hcomplete hends)⟩,
      fun hresponse ↦ absurd hresponse hrequest⟩
    · rw [hnext, hlookup]
      cases incoming <;> exact Function.update_self _ _ _
    · rw [hfinal, (messages_record _ _ _ _).1]
      rfl
    · rw [hnext]
      revert hrequest
      cases h2.clientSide <;> cases incoming <;> intro hrequest <;>
        first | rfl | exact absurd rfl hrequest

/-! ### The invariant -/

/-- The invariant of a leg: what is shown conforms, and the counts of a live stream are those of
what is shown, where the owner has not given it up. -/
structure Sound (h2 : Library σ) (trace : List Shown) (connection : Connection σ)
    (owned : StreamId → Bool) : Prop where
  /-- What is shown conforms. -/
  conforming : Conforming h2.clientSide trace
  /-- Nothing is shown of a fresh stream. -/
  unused : ∀ streamId, h2.fresh connection.library streamId →
    exchangeOf h2.clientSide streamId trace = {} ∧ connection.received streamId = none
  /-- Nothing is kept of a stream that the peer may open. -/
  silent : ∀ streamId, h2.fresh connection.library streamId → OfPeer h2 streamId →
    connection.sent streamId = none ∧ connection.methods streamId = none
  /-- The method is that of the request. -/
  method : ∀ streamId, h2.live connection.library streamId →
    connection.methods streamId = (exchangeOf h2.clientSide streamId trace).method
  /-- What is received is counted. -/
  received : ∀ streamId, h2.live connection.library streamId →
    (exchangeOf h2.clientSide streamId trace).message h2.clientSide true =
      (connection.received streamId).map messageOf
  /-- What is sent is counted. -/
  sent : ∀ streamId, h2.live connection.library streamId → owned streamId →
    (exchangeOf h2.clientSide streamId trace).message h2.clientSide false =
      (connection.sent streamId).map messageOf
  /-- A client owns streams it has sent a request on. -/
  asked : h2.clientSide → ∀ streamId, owned streamId →
    ¬ h2.fresh connection.library streamId ∧
      (h2.live connection.library streamId → connection.sent streamId ≠ none)

variable {trace : List Shown} {connection : Connection σ} {owned : StreamId → Bool}

/-- A call by which the peer may open a stream. -/
theorem Sound.library {after : σ} {mayOpen : StreamId → Prop}
    (hsound : Sound h2 trace connection owned) (hopens : Opens h2 mayOpen connection.library after)
    (hpeer : ∀ streamId, mayOpen streamId → OfPeer h2 streamId) :
    Sound h2 trace { connection with library := after } owned where
  conforming := hsound.conforming
  unused streamId hfresh := hsound.unused streamId (hopens.fresh streamId hfresh)
  silent streamId hfresh := hsound.silent streamId (hopens.fresh streamId hfresh)
  method streamId hlive := by
    rcases hopens.live streamId hlive with hold | ⟨hfresh, hopen⟩
    · exact hsound.method streamId hold
    · rw [(hsound.unused streamId hfresh).1]
      exact (hsound.silent streamId hfresh (hpeer streamId hopen)).2
  received streamId hlive := by
    rcases hopens.live streamId hlive with hold | ⟨hfresh, -⟩
    · exact hsound.received streamId hold
    · obtain ⟨hnone, hreceived⟩ := hsound.unused streamId hfresh
      show _ = (connection.received streamId).map messageOf
      rw [hnone, hreceived]
      exact ite_self _
  sent streamId hlive howned := by
    rcases hopens.live streamId hlive with hold | ⟨hfresh, hopen⟩
    · exact hsound.sent streamId hold howned
    · show _ = (connection.sent streamId).map messageOf
      rw [(hsound.unused streamId hfresh).1,
        (hsound.silent streamId hfresh (hpeer streamId hopen)).1]
      exact ite_self _
  asked hclient streamId howned := by
    obtain ⟨hused, hsent⟩ := hsound.asked hclient streamId howned
    refine ⟨fun hfresh ↦ hused (hopens.fresh streamId hfresh), fun hlive ↦ ?_⟩
    exact hsent ((hopens.live streamId hlive).resolve_right fun hfresh ↦ hused hfresh.1)

/-- A call by which no stream opens. -/
theorem Sound.stays {after : σ} (hsound : Sound h2 trace connection owned)
    (hstays : Stays h2 connection.library after) :
    Sound h2 trace { connection with library := after } owned :=
  hsound.library hstays fun _ ↦ False.elim

/-- What is forgotten is of streams that do not live. -/
theorem Sound.forgetClosed (hlawful : h2.Lawful) (hsound : Sound h2 trace connection owned) :
    Sound h2 trace (connection.forgetClosed h2) owned where
  conforming := hsound.conforming
  unused streamId hfresh := by
    refine ⟨(hsound.unused streamId hfresh).1, if_neg fun hlive ↦ ?_⟩
    exact hlawful.live _ _ hlive hfresh
  silent streamId hfresh _ := by
    have hdead : ¬ h2.live connection.library streamId :=
      fun hlive ↦ hlawful.live _ _ hlive hfresh
    exact ⟨if_neg hdead, if_neg hdead⟩
  method streamId hlive := (if_pos hlive).trans (hsound.method streamId hlive)
  received streamId hlive :=
    (hsound.received streamId hlive).trans (congrArg _ (if_pos hlive).symm)
  sent streamId hlive howned :=
    (hsound.sent streamId hlive howned).trans (congrArg _ (if_pos hlive).symm)
  asked hclient streamId howned := by
    obtain ⟨hused, hsent⟩ := hsound.asked hclient streamId howned
    refine ⟨hused, fun hlive hnone ↦ hsent hlive ?_⟩
    exact (if_pos hlive).symm.trans hnone

/-- The counts of one stream are lost, which does not live any more. -/
theorem Sound.off {after : Connection σ} {streamId : StreamId} {owned' : StreamId → Bool}
    (hsound : Sound h2 trace connection owned)
    (hstays : Stays h2 connection.library after.library)
    (hdead : ¬ h2.live after.library streamId)
    (hagree : ∀ other ≠ streamId, Agree other connection after)
    (howned : ∀ other, owned' other → owned other)
    (hfresh : h2.fresh after.library streamId →
      ¬ OfPeer h2 streamId ∧ after.received streamId = none) :
    Sound h2 trace after owned' where
  conforming := hsound.conforming
  unused other hother := by
    obtain ⟨hnone, hreceived⟩ := hsound.unused other (hstays.fresh other hother)
    refine ⟨hnone, ?_⟩
    by_cases hsame : other = streamId
    · subst hsame
      exact (hfresh hother).2
    · exact (hagree other hsame).received.trans hreceived
  silent other hother hpeer := by
    by_cases hsame : other = streamId
    · subst hsame
      exact absurd hpeer (hfresh hother).1
    · obtain ⟨hsent, hmethod⟩ := hsound.silent other (hstays.fresh other hother) hpeer
      exact ⟨(hagree other hsame).sent.trans hsent, (hagree other hsame).methods.trans hmethod⟩
  method other hlive := by
    have hsame : other ≠ streamId := fun hsame ↦ hdead (hsame ▸ hlive)
    rw [(hagree other hsame).methods]
    exact hsound.method other ((hstays.live other hlive).resolve_right And.right)
  received other hlive := by
    have hsame : other ≠ streamId := fun hsame ↦ hdead (hsame ▸ hlive)
    rw [(hagree other hsame).received]
    exact hsound.received other ((hstays.live other hlive).resolve_right And.right)
  sent other hlive hother := by
    have hsame : other ≠ streamId := fun hsame ↦ hdead (hsame ▸ hlive)
    rw [(hagree other hsame).sent]
    exact hsound.sent other ((hstays.live other hlive).resolve_right And.right) (howned other hother)
  asked hclient other hother := by
    obtain ⟨hused, hsent⟩ := hsound.asked hclient other (howned other hother)
    refine ⟨fun hnew ↦ hused (hstays.fresh other hnew), fun hlive ↦ ?_⟩
    have hsame : other ≠ streamId := fun hsame ↦ hdead (hsame ▸ hlive)
    rw [(hagree other hsame).sent]
    exact hsent ((hstays.live other hlive).resolve_right And.right)

/-- Nothing opens where nothing happens. -/
theorem Opens.refl {mayOpen : StreamId → Prop} {state : σ} : Opens h2 mayOpen state state :=
  ⟨fun _ hlive ↦ Or.inl hlive, fun _ hfresh ↦ hfresh⟩

/-- Nothing opens in two steps of which neither opens anything. -/
theorem Opens.trans {before between after : σ} (hfirst : Stays h2 before between)
    (hsecond : Stays h2 between after) : Stays h2 before after where
  live streamId hlive := hfirst.live streamId ((hsecond.live streamId hlive).resolve_right And.right)
  fresh streamId hfresh := hfirst.fresh streamId (hsecond.fresh streamId hfresh)

/-- Nothing opens, so nothing else opens. -/
theorem Opens.mono {before after : σ} {mayOpen : StreamId → Prop}
    (hstays : Stays h2 before after) : Opens h2 mayOpen before after where
  live streamId hlive := Or.inl ((hstays.live streamId hlive).resolve_right And.right)
  fresh := hstays.fresh

/-- The library after `_message_reset`. -/
theorem messageReset_eq (hlawful : h2.Lawful) (connection : Connection σ) (streamId : StreamId) :
    ∃ after, connection.messageReset h2 streamId =
        ({ connection with library := after }).forgetClosed h2 ∧
      Stays h2 connection.library after ∧ ¬ h2.live after streamId := by
  have hopened : ∃ opened, (if h2.idle connection.library streamId then
        h2.advance connection.library streamId else connection.library) = opened ∧
      Stays h2 connection.library opened := by
    split_ifs
    · exact ⟨_, rfl, hlawful.advance _ _⟩
    · exact ⟨_, rfl, Opens.refl⟩
  obtain ⟨opened, hopened, hstays⟩ := hopened
  refine ⟨_, rfl, ?_⟩
  rw [hopened]
  split_ifs with hlive
  · obtain ⟨hreset, hdead⟩ := hlawful.resetStream opened streamId
    exact ⟨hstays.trans hreset, hdead⟩
  · have hqueued := hlawful.queueReset opened streamId
    refine ⟨hstays.trans hqueued, fun hafter ↦ hlive ?_⟩
    exact (hqueued.live streamId hafter).resolve_right And.right

/-- A stream whose counts are lost is reset. -/
theorem Sound.messageReset {after : Connection σ} {streamId : StreamId} (hlawful : h2.Lawful)
    (hsound : Sound h2 trace connection owned)
    (hstays : Stays h2 connection.library after.library)
    (hagree : ∀ other ≠ streamId, Agree other connection after)
    (hused : ¬ h2.fresh connection.library streamId) :
    Sound h2 trace (after.messageReset h2 streamId) owned ∧
      ¬ h2.live (after.messageReset h2 streamId).library streamId := by
  obtain ⟨library, hreset, hlibrary, hdead⟩ := messageReset_eq hlawful after streamId
  have hall : Stays h2 connection.library library := hstays.trans hlibrary
  have hoff : Sound h2 trace { after with library } owned :=
    hsound.off hall hdead (fun other hother ↦
      ⟨(hagree other hother).received, (hagree other hother).sent, (hagree other hother).methods⟩)
      (fun _ howned ↦ howned) fun hfresh ↦ absurd (hall.fresh streamId hfresh) hused
  rw [hreset]
  exact ⟨hoff.forgetClosed hlawful, hdead⟩

/-- A trace is followed by what does not change the messages. -/
theorem Sound.shows {later : List Shown} (hsound : Sound h2 trace connection owned)
    (hconforming : Conforming h2.clientSide (trace ++ later))
    (hsame : ∀ streamId, exchangeOf h2.clientSide streamId (trace ++ later) =
      exchangeOf h2.clientSide streamId trace) : Sound h2 (trace ++ later) connection owned where
  conforming := hconforming
  unused streamId := by
    rw [hsame]
    exact hsound.unused streamId
  silent := hsound.silent
  method streamId := by
    rw [hsame]
    exact hsound.method streamId
  received streamId := by
    rw [hsame]
    exact hsound.received streamId
  sent streamId := by
    rw [hsame]
    exact hsound.sent streamId
  asked := hsound.asked

/-- Quiet events change nothing. -/
theorem Sound.quiet {events : List Event} (hsound : Sound h2 trace connection owned)
    (hquiet : Quiet events) :
    Sound h2 (trace ++ events.flatMap Event.shown) connection owned := by
  induction events generalizing trace with
  | nil => rwa [List.flatMap_nil, List.append_nil]
  | cons event rest ih =>
    have hrest : Quiet rest := fun later hlater ↦ hquiet later (List.mem_cons_of_mem _ hlater)
    rw [List.flatMap_cons, ← List.append_assoc]
    refine ih ?_ hrest
    rcases hquiet event List.mem_cons_self with hnone | ⟨streamId, rfl⟩
    · rwa [hnone, List.append_nil]
    · exact hsound.shows (hsound.conforming.snoc trivial) fun _ ↦ exchangeOf_append

/-- Something is shown of one stream, and its counts are brought up to it. -/
theorem Sound.renew {trace' : List Shown} {after : Connection σ} {owned' : StreamId → Bool}
    (streamId : StreamId) (hsound : Sound h2 trace connection owned)
    (hconforming : Conforming h2.clientSide trace')
    (hopens : Opens h2 (· = streamId) connection.library after.library)
    (hused : ¬ h2.fresh after.library streamId)
    (hothers : ∀ other ≠ streamId, exchangeOf h2.clientSide other trace' =
      exchangeOf h2.clientSide other trace)
    (hagree : ∀ other ≠ streamId, Agree other connection after)
    (howned : ∀ other ≠ streamId, owned' other = owned other)
    (hstream : h2.live after.library streamId →
      after.methods streamId = (exchangeOf h2.clientSide streamId trace').method ∧
      (exchangeOf h2.clientSide streamId trace').message h2.clientSide true =
        (after.received streamId).map messageOf ∧
      (owned' streamId → (exchangeOf h2.clientSide streamId trace').message h2.clientSide false =
        (after.sent streamId).map messageOf ∧ (h2.clientSide → after.sent streamId ≠ none))) :
    Sound h2 trace' after owned' := by
  have hne : ∀ other, h2.fresh after.library other → other ≠ streamId :=
    fun other hfresh hsame ↦ hused (hsame ▸ hfresh)
  constructor
  case conforming => exact hconforming
  case unused =>
    intro other hfresh
    rw [hothers other (hne other hfresh), (hagree other (hne other hfresh)).received]
    exact hsound.unused other (hopens.fresh other hfresh)
  case silent =>
    intro other hfresh
    rw [(hagree other (hne other hfresh)).sent, (hagree other (hne other hfresh)).methods]
    exact hsound.silent other (hopens.fresh other hfresh)
  case method =>
    intro other hlive
    by_cases hsame : other = streamId
    · subst hsame
      exact (hstream hlive).1
    · rw [hothers other hsame, (hagree other hsame).methods]
      exact hsound.method other
        ((hopens.live other hlive).resolve_right fun hopen ↦ hsame hopen.2)
  case received =>
    intro other hlive
    by_cases hsame : other = streamId
    · subst hsame
      exact (hstream hlive).2.1
    · rw [hothers other hsame, (hagree other hsame).received]
      exact hsound.received other
        ((hopens.live other hlive).resolve_right fun hopen ↦ hsame hopen.2)
  case sent =>
    intro other hlive hother
    by_cases hsame : other = streamId
    · subst hsame
      exact ((hstream hlive).2.2 hother).1
    · rw [hothers other hsame, (hagree other hsame).sent]
      exact hsound.sent other ((hopens.live other hlive).resolve_right fun hopen ↦ hsame hopen.2)
        (howned other hsame ▸ hother)
  case asked =>
    intro hclient other hother
    by_cases hsame : other = streamId
    · subst hsame
      exact ⟨hused, fun hlive ↦ ((hstream hlive).2.2 hother).2 hclient⟩
    · obtain ⟨hold, hsent⟩ := hsound.asked hclient other (howned other hsame ▸ hother)
      refine ⟨fun hfresh ↦ hold (hopens.fresh other hfresh), fun hlive ↦ ?_⟩
      rw [(hagree other hsame).sent]
      exact hsent ((hopens.live other hlive).resolve_right fun hopen ↦ hsame hopen.2)

/-- A frame and its END_STREAM conform. -/
theorem Conforming.endOf {shown : Shown} {streamId : StreamId} {ends incoming : Bool}
    (htrace : Conforming h2.clientSide trace) (hshown : shown.Conforms h2.clientSide trace)
    (hends : ends → ∃ message ∈ (exchangeOf h2.clientSide streamId (trace ++ [shown])).message
      h2.clientSide incoming, ∀ limit ∈ message.limit, message.total = limit) :
    Conforming h2.clientSide (trace ++ shown :: endOf incoming streamId ends) := by
  rw [List.append_cons]
  cases ends with
  | false =>
    show Along _ (_ ++ [])
    rw [List.append_nil]
    exact Along.snoc htrace hshown
  | true => exact Along.snoc (Along.snoc htrace hshown) (hends rfl)

/-- A head that passes is shown. -/
theorem Sound.head {after : Connection σ} {library : σ} {streamId : StreamId} {fields : Headers}
    {ends incoming : Bool} {owned' : StreamId → Bool} (hsound : Sound h2 trace connection owned)
    (hpasses : Passes h2 connection streamId ends incoming fields after)
    (hopens : Opens h2 (· = streamId) connection.library library)
    (hused : ¬ h2.fresh library streamId)
    (hmethod : connection.methods streamId = (exchangeOf h2.clientSide streamId trace).method ∨
      connection.messages incoming streamId = none ∧ incoming ≠ h2.clientSide)
    (hmessage : (exchangeOf h2.clientSide streamId trace).message h2.clientSide incoming =
      (connection.messages incoming streamId).map messageOf)
    (hopposite : (incoming → owned' streamId) → 
      (exchangeOf h2.clientSide streamId trace).message h2.clientSide (!incoming) =
        (connection.messages (!incoming) streamId).map messageOf)
    (howned : ∀ other ≠ streamId, owned' other = owned other)
    (hasked : h2.clientSide → owned' streamId → after.sent streamId ≠ none) :
    Sound h2 (trace ++ .head incoming streamId fields ends :: endOf incoming streamId ends)
      { after with library } owned' := by
  obtain ⟨hmethod', hsame, hother, hcomplete, hinterim⟩ := hpasses.exchange hmethod hmessage
  have hexchange : exchangeOf h2.clientSide streamId
      (trace ++ .head incoming streamId fields ends :: endOf incoming streamId ends) =
      (exchangeOf h2.clientSide streamId trace).add h2.clientSide streamId
        (.head incoming streamId fields ends) := by
    rw [exchangeOf_append, List.foldl_cons, foldl_endOf]
  refine hsound.renew streamId ?_ hopens hused ?_ ?_ howned ?_
  · refine Conforming.endOf hsound.conforming hinterim fun hends ↦ ?_
    rw [exchangeOf_append]
    exact hcomplete hends
  · intro other hne
    rw [exchangeOf_append, List.foldl_cons, foldl_endOf, add_head_of_ne hne.symm]
  · intro other hne
    have hagree := hpasses.agree hne
    exact ⟨hagree.received, hagree.sent, hagree.methods⟩
  · intro _
    rw [hexchange]
    have hboth : (incoming → owned' streamId) →
        ((exchangeOf h2.clientSide streamId trace).add h2.clientSide streamId
          (.head incoming streamId fields ends)).message h2.clientSide (!incoming) =
        (after.messages (!incoming) streamId).map messageOf := by
      intro hkept
      rw [hother, hpasses.messages_not]
      exact hopposite hkept
    refine ⟨hmethod', ?_, fun hkept ↦ ⟨?_, fun hclient ↦ hasked hclient hkept⟩⟩
    · cases incoming with
      | true => exact hsame
      | false => exact hboth nofun
    · cases incoming with
      | true => exact hboth fun _ ↦ hkept
      | false => exact hsame

/-- Data that fits is shown. -/
theorem Sound.data {library : σ} {streamId : StreamId} {payload : Bytes} {body : BodyLength}
    {ends : Bool} (incoming : Bool) (hlawful : h2.Lawful) (hsound : Sound h2 trace connection owned)
    (hlive : h2.live connection.library streamId) (hkept : incoming = false → owned streamId)
    (hbody : connection.messages incoming streamId = some body)
    (hfits : ∀ limit ∈ body.expected, body.received + payload.length ≤ limit)
    (hends : ends → ∀ limit ∈ body.expected, body.received + payload.length = limit)
    (hstays : Stays h2 connection.library library) :
    Sound h2 (trace ++ .data incoming streamId payload :: endOf incoming streamId ends)
      { connection.record incoming streamId
          { body with received := body.received + payload.length } with library } owned := by
  have hmessage : (exchangeOf h2.clientSide streamId trace).message h2.clientSide incoming =
      some (messageOf body) := by
    cases incoming with
    | true =>
      rw [hsound.received streamId hlive]
      exact congrArg _ hbody
    | false =>
      rw [hsound.sent streamId hlive (hkept rfl)]
      exact congrArg _ hbody
  obtain ⟨hcounted, hother, hmethod⟩ := message_add_data h2.clientSide incoming streamId payload
    (exchangeOf h2.clientSide streamId trace)
  rw [hmessage] at hcounted
  refine hsound.renew streamId ?_ hstays.mono ?_ ?_ ?_ (fun _ _ ↦ rfl) ?_
  · refine Conforming.endOf hsound.conforming ⟨messageOf body, hmessage, hfits⟩ fun hlast ↦ ?_
    rw [exchangeOf_append]
    exact ⟨_, hcounted, hends hlast⟩
  · exact fun hfresh ↦ hlawful.live _ _ hlive (hstays.fresh streamId hfresh)
  · intro other hne
    rw [exchangeOf_append, List.foldl_cons, foldl_endOf, add_data_of_ne hne.symm]
  · intro other hne
    have hagree : Agree other connection (connection.record incoming streamId
        { body with received := body.received + payload.length }) := Agree.record hne
    exact ⟨hagree.received, hagree.sent, hagree.methods⟩
  · intro _
    rw [exchangeOf_append, List.foldl_cons, foldl_endOf, hmethod]
    have hrecorded := (messages_record connection incoming streamId
      { body with received := body.received + payload.length }).1
    cases incoming with
    | true =>
      refine ⟨hsound.method streamId hlive, ?_, fun howned ↦ ?_⟩
      · rw [hcounted]
        exact (congrArg (Option.map messageOf) hrecorded).symm
      · refine ⟨hother.trans (hsound.sent streamId hlive howned), fun hclient ↦ ?_⟩
        exact (hsound.asked hclient streamId howned).2 hlive
    | false =>
      refine ⟨hsound.method streamId hlive, hother.trans (hsound.received streamId hlive),
        fun _ ↦ ⟨?_, fun _ ↦ ?_⟩⟩
      · rw [hcounted]
        exact (congrArg (Option.map messageOf) hrecorded).symm
      · intro hnone
        cases hrecorded.symm.trans hnone

/-! ### Received frames -/

/-- A reset is shown and changes nothing. -/
theorem quiet_reset {streamId : StreamId} : Quiet [.reset streamId] := by
  intro event hevent
  exact Or.inr ⟨streamId, List.mem_singleton.mp hevent⟩

/-- What a call in a receive hook comes to. -/
theorem settle_eq_ok {reply : Reply σ (List Event)} {later events : List Event}
    {after : Connection σ} (hsettle : connection.settle later reply = .ok (after, events)) :
    ∃ library, after = { connection with library } ∧
      (reply = .closed library events ∨
        ∃ found, reply = .done library found ∧ events = found ++ later) := by
  cases reply with
  | done library found =>
    obtain ⟨rfl, rfl⟩ := Prod.mk.inj (Except.ok.inj hsettle)
    exact ⟨library, rfl, Or.inr ⟨found, rfl, rfl⟩⟩
  | closed library found =>
    obtain ⟨rfl, rfl⟩ := Prod.mk.inj (Except.ok.inj hsettle)
    exact ⟨library, rfl, Or.inl rfl⟩
  | mismatch => cases hsettle
  | fatal => cases hsettle

/-- The events of a frame of a message. -/
theorem flatMap_shown_ended {streamId : StreamId} {ends : Bool} :
    (if ends then [Event.ended streamId] else []).flatMap Event.shown =
      endOf true streamId ends := by
  cases ends <;> rfl

/-- `_receive_headers_frame` from the decoded block on: what is shown is the block, or the stream
does not live. -/
theorem Sound.receiveBlock {frame : HeadersFrame} {values : Headers}
    {priorityEvents events : List Event} {after : Connection σ} (hlawful : h2.Lawful)
    (hsound : Sound h2 trace connection owned)
    (hpriority : priorityEvents.flatMap Event.shown = [])
    (hreceive : connection.receiveBlock h2 frame values priorityEvents = .ok (after, events)) :
    Sound h2 (trace ++ events.flatMap Event.shown) after owned ∧
      (events.flatMap Event.shown = .head true frame.streamId values frame.endStream ::
          endOf true frame.streamId frame.endStream ∨
        ¬ h2.live after.library frame.streamId) := by
  have hreply := hlawful.receiveHeaders connection.library frame.streamId values frame.endStream
  unfold Connection.receiveBlock at hreceive
  by_cases hlive : h2.live connection.library frame.streamId
  swap
  · rw [if_pos hlive] at hreceive
    obtain ⟨library, rfl, hclosed | ⟨found, hdone, -⟩⟩ := settle_eq_ok hreceive
    · rw [hclosed] at hreply
      obtain ⟨hstays, hdead, hquiet⟩ := hreply
      exact ⟨(hsound.stays hstays).quiet hquiet, Or.inr hdead⟩
    · rw [hdone] at hreply
      exact absurd hreply.1 hlive
  have hused : ¬ h2.fresh connection.library frame.streamId := hlawful.live _ _ hlive
  rw [if_neg (not_not.mpr hlive)] at hreceive
  -- A stream is reset whose counts may be lost.
  have hreset : ∀ refused : Connection σ, refused.library = connection.library →
      (∀ other ≠ frame.streamId, Agree other connection refused) →
      pure (refused.messageReset h2 frame.streamId, [Event.reset frame.streamId]) =
        (Except.ok (after, events) : Except Raised _) →
      Sound h2 (trace ++ events.flatMap Event.shown) after owned ∧
        ¬ h2.live after.library frame.streamId := by
    intro refused hlibrary hagree hpure
    obtain ⟨rfl, rfl⟩ := Prod.mk.inj (Except.ok.inj hpure)
    obtain ⟨hafter, hdead⟩ := hsound.messageReset hlawful (hlibrary ▸ Opens.refl) hagree hused
    exact ⟨hafter.quiet quiet_reset, hdead⟩
  by_cases hdrains : ¬ h2.clientSide ∧ connection.localLastStream.any (· < frame.streamId)
  · rw [if_pos hdrains] at hreceive
    obtain ⟨hafter, hdead⟩ := hreset connection rfl (fun _ _ ↦ ⟨rfl, rfl, rfl⟩) hreceive
    exact ⟨hafter, Or.inr hdead⟩
  rw [if_neg hdrains] at hreceive
  obtain ⟨⟨outcome, checked⟩, hcheck⟩ :
      ∃ result, connection.checkHeaders h2 frame.streamId values frame.endStream true = result :=
    ⟨_, rfl⟩
  rw [hcheck] at hreceive
  rcases checkHeaders_eq hcheck with ⟨raised, rfl, hkept⟩ | ⟨rfl, hpasses⟩
  · cases raised with
    | exception name => cases hreceive
    | requestDenied reason =>
      have hagree : ∀ other ≠ frame.streamId, Agree other connection checked := by
        intro other hother
        rcases hkept with rfl | ⟨-, -, method, rfl⟩
        · exact ⟨rfl, rfl, rfl⟩
        · exact ⟨rfl, rfl, Function.update_of_ne hother _ _⟩
      have hlibrary : checked.library = connection.library := by
        rcases hkept with rfl | ⟨-, -, method, rfl⟩ <;> rfl
      obtain ⟨hafter, hdead⟩ := hreset checked hlibrary hagree hreceive
      exact ⟨hafter, Or.inr hdead⟩
  · dsimp only at hreceive
    rw [hpasses.library_eq] at hreceive
    obtain ⟨library, rfl, hclosed | ⟨found, hdone, rfl⟩⟩ := settle_eq_ok hreceive
    · rw [hclosed] at hreply
      obtain ⟨hstays, hdead, hquiet⟩ := hreply
      refine ⟨Sound.quiet ?_ hquiet, Or.inr hdead⟩
      refine hsound.off hstays hdead (fun other hother ↦ ?_) (fun _ howned ↦ howned)
        fun hfresh ↦ absurd (hstays.fresh _ hfresh) hused
      have hagree := hpasses.agree hother
      exact ⟨hagree.received, hagree.sent, hagree.methods⟩
    · rw [hdone] at hreply
      obtain ⟨-, hstays, rfl⟩ := hreply
      have hshown : (Event.headers frame.streamId values frame.endStream ::
            (if frame.endStream then [Event.ended frame.streamId] else []) ++
              priorityEvents).flatMap Event.shown =
          .head true frame.streamId values frame.endStream ::
            endOf true frame.streamId frame.endStream := by
        rw [List.cons_append, List.flatMap_cons, List.flatMap_append, hpriority, List.append_nil,
          flatMap_shown_ended]
        rfl
      rw [hshown]
      refine ⟨hsound.head hpasses hstays.mono (fun hfresh ↦ hused (hstays.fresh _ hfresh))
        (Or.inl (hsound.method _ hlive)) (hsound.received _ hlive)
        (fun hkept ↦ hsound.sent _ hlive (hkept rfl)) (fun _ _ ↦ rfl) fun hclient howned ↦ ?_,
        Or.inl rfl⟩
      have hsent : checked.sent = connection.sent := hpasses.messages_not
      rw [hsent]
      exact (hsound.asked hclient _ howned).2 hlive

/-- What a frame leads to: the invariant, and that its message is shown or its stream does not
live. -/
def Handled (h2 : Library σ) (trace : List Shown) (connection : Connection σ)
    (owned : StreamId → Bool) (frame : Frame) (after : Connection σ) (events : List Event) : Prop :=
  Sound h2 (trace ++ events.flatMap Event.shown) after owned ∧
    (events.flatMap Event.shown = frame.shows h2 connection.library ∨
      ∀ streamId ∈ frame.stream, ¬ h2.live after.library streamId)

/-- `_receive_headers_frame`. -/
theorem Sound.receiveHeadersFrame {frame : HeadersFrame} {events : List Event}
    {after : Connection σ} (hlawful : h2.Lawful) (hsound : Sound h2 trace connection owned)
    (hreceive : connection.receiveHeadersFrame h2 frame = .ok (after, events)) :
    Handled h2 trace connection owned (.headers frame) after events := by
  have hopen := hlawful.openStream connection.library frame
  unfold Connection.receiveHeadersFrame at hreceive
  by_cases hmany : ¬ h2.known connection.library frame.streamId ∧
      h2.openInbound connection.library ≥ connection.maximumStreams
  · rw [if_pos hmany] at hreceive
    cases hreceive
  rw [if_neg hmany] at hreceive
  cases hreply : h2.openStream connection.library frame with
  | mismatch library =>
    rw [hreply] at hreceive
    cases hreceive
  | fatal =>
    rw [hreply] at hreceive
    cases hreceive
  | closed library found =>
    rw [hreply] at hreceive hopen
    obtain ⟨rfl, rfl⟩ := Prod.mk.inj (Except.ok.inj hreceive)
    obtain ⟨hstays, hdead, hquiet⟩ := hopen
    refine ⟨(hsound.stays hstays).quiet hquiet, Or.inr fun streamId hstream ↦ ?_⟩
    obtain rfl := Option.some.inj hstream
    exact hdead
  | done library values =>
    rw [hreply] at hreceive hopen
    have hopened := hsound.library hopen fun _ hpeer ↦ hpeer.2
    -- The block of the frame, after its priority.
    have hblock : ∀ {between : Connection σ} {priorityEvents : List Event},
        Sound h2 trace between owned → priorityEvents.flatMap Event.shown = [] →
        between.receiveBlock h2 frame values priorityEvents = .ok (after, events) →
          Handled h2 trace connection owned (.headers frame) after events := by
      intro between priorityEvents hbetween hquiet hrest
      obtain ⟨hafter, hshown⟩ := hbetween.receiveBlock hlawful hquiet hrest
      refine ⟨hafter, hshown.imp (fun hsame ↦ ?_) fun hdead streamId hstream ↦ ?_⟩
      · rw [hsame]
        show _ = match h2.openStream connection.library frame with
          | .done _ fields => _
          | _ => _
        rw [hreply]
      · obtain rfl := Option.some.inj hstream
        exact hdead
    dsimp only at hreceive
    by_cases hpriority : frame.priority
    · rw [if_pos hpriority] at hreceive
      have hpriority := hlawful.receivePriority library frame
      cases hfound : h2.receivePriority library frame with
      | mismatch library =>
        rw [hfound] at hreceive
        cases hreceive
      | fatal =>
        rw [hfound] at hreceive
        cases hreceive
      | closed later found =>
        rw [hfound] at hreceive hpriority
        obtain ⟨rfl, rfl⟩ := Prod.mk.inj (Except.ok.inj hreceive)
        obtain ⟨hstays, hdead, hquiet⟩ := hpriority
        refine ⟨(hopened.stays hstays).quiet hquiet, Or.inr fun streamId hstream ↦ ?_⟩
        obtain rfl := Option.some.inj hstream
        exact hdead
      | done later _ =>
        rw [hfound] at hreceive hpriority
        exact hblock (hopened.stays hpriority) rfl hreceive
    · rw [if_neg hpriority] at hreceive
      exact hblock hopened rfl hreceive

/-- The stream of a DATA frame is reset, whose counts may be lost. -/
theorem Sound.refuseData (after : Connection σ) {streamId : StreamId} (length : ℕ)
    (hlawful : h2.Lawful) (hsound : Sound h2 trace connection owned)
    (hstays : Stays h2 connection.library after.library)
    (hagree : ∀ other ≠ streamId, Agree other connection after)
    (hused : ¬ h2.fresh connection.library streamId) :
    Sound h2 (trace ++ (after.refuseData h2 streamId length).2.flatMap Event.shown)
        (after.refuseData h2 streamId length).1 owned ∧
      ¬ h2.live (after.refuseData h2 streamId length).1.library streamId := by
  obtain ⟨hreset, hdead⟩ := hsound.messageReset hlawful hstays hagree hused
  have hcredit := hlawful.acknowledge (after.messageReset h2 streamId).library length streamId
  refine ⟨(hreset.stays hcredit).quiet quiet_reset, fun hlive ↦ hdead ?_⟩
  exact (hcredit.live streamId hlive).resolve_right And.right

/-- The loop over the events of a DATA frame: the frame is refused, whatever was counted, or its
data fits. -/
theorem checkBodies_eq {streamId : StreamId} {payload : Bytes} {length : ℕ} {ends : Bool}
    {events : List Event} {result : Connection σ × List Event}
    (hcheck : connection.checkBodies h2 ends events (.data streamId payload length ::
      if ends then [.ended streamId] else []) = result) :
    (∃ refused : Connection σ, refused.library = connection.library ∧
      (∀ other ≠ streamId, Agree other connection refused) ∧
      result = refused.refuseData h2 streamId length) ∨
    ∃ body, connection.received streamId = some body ∧
      (∀ limit ∈ body.expected, body.received + payload.length ≤ limit) ∧
      (ends → ∀ limit ∈ body.expected, body.received + payload.length = limit) ∧
      result = (connection.record true streamId
        { body with received := body.received + payload.length }, events) := by
  unfold Connection.checkBodies at hcheck
  cases hbody : connection.received streamId with
  | none =>
    rw [hbody] at hcheck
    exact Or.inl ⟨connection, rfl, fun _ _ ↦ ⟨rfl, rfl, rfl⟩, hcheck.symm⟩
  | some body =>
    rw [hbody] at hcheck
    dsimp only at hcheck
    obtain ⟨⟨counted, raised⟩, hadd⟩ : ∃ after, body.add payload.length = after := ⟨_, rfl⟩
    rw [hadd] at hcheck
    dsimp only at hcheck
    have hrefused : result = (connection.record true streamId counted).refuseData h2 streamId length →
        ∃ refused : Connection σ, refused.library = connection.library ∧
          (∀ other ≠ streamId, Agree other connection refused) ∧
          result = refused.refuseData h2 streamId length :=
      fun hresult ↦ ⟨connection.record true streamId counted, rfl,
        fun _ hother ↦ Agree.record hother, hresult⟩
    cases raised with
    | error failure => exact Or.inl (hrefused hcheck.symm)
    | ok _ =>
      obtain ⟨rfl, hfits⟩ := add_eq_ok hadd
      cases ends with
      | false =>
        refine Or.inr ⟨body, rfl, hfits, nofun, ?_⟩
        rw [← hcheck]
        rfl
      | true =>
        rw [if_pos rfl] at hcheck
        cases hfinish : BodyLength.finish { body with received := body.received + payload.length } with
        | error failure =>
          rw [hfinish] at hcheck
          exact Or.inl (hrefused hcheck.symm)
        | ok _ =>
          rw [hfinish] at hcheck
          refine Or.inr ⟨body, rfl, hfits, fun _ ↦ finish_eq_ok.mp hfinish, ?_⟩
          rw [← hcheck]
          rfl

/-- `_receive_data_frame`. -/
theorem Sound.receiveDataFrame {frame : DataFrame} {events : List Event} {after : Connection σ}
    (hlawful : h2.Lawful) (hsound : Sound h2 trace connection owned)
    (hreceive : connection.receiveDataFrame h2 frame = .ok (after, events)) :
    Handled h2 trace connection owned (.data frame) after events := by
  have hreply := hlawful.receiveData connection.library frame
  unfold Connection.receiveDataFrame at hreceive
  -- The frame is refused, whatever was counted.
  have hrefuse : h2.live connection.library frame.streamId → ∀ refused : Connection σ,
      Stays h2 connection.library refused.library →
      (∀ other ≠ frame.streamId, Agree other connection refused) →
      (after, events) = refused.refuseData h2 frame.streamId frame.flowControlledLength →
        Handled h2 trace connection owned (.data frame) after events := by
    intro hlive refused hstays hagree hsame
    obtain ⟨hafter, hdead⟩ := hsound.refuseData refused frame.flowControlledLength hlawful hstays
      hagree (hlawful.live _ _ hlive)
    rw [← hsame] at hafter hdead
    refine ⟨hafter, Or.inr fun streamId hstream ↦ ?_⟩
    obtain rfl := Option.some.inj hstream
    exact hdead
  cases hfound : h2.receiveData connection.library frame with
  | fatal =>
    rw [hfound] at hreceive
    cases hreceive
  | closed library found =>
    rw [hfound] at hreceive hreply
    obtain ⟨rfl, rfl⟩ := Prod.mk.inj (Except.ok.inj hreceive)
    obtain ⟨hstays, hdead, hquiet⟩ := hreply
    refine ⟨(hsound.stays hstays).quiet hquiet, Or.inr fun streamId hstream ↦ ?_⟩
    obtain rfl := Option.some.inj hstream
    exact hdead
  | mismatch library =>
    rw [hfound] at hreceive hreply
    obtain ⟨hlive, hstays⟩ := hreply
    exact hrefuse hlive { connection with library } hstays (fun _ _ ↦ ⟨rfl, rfl, rfl⟩)
      (Except.ok.inj hreceive).symm
  | done library found =>
    rw [hfound] at hreceive hreply
    obtain ⟨hlive, hstays, rfl⟩ := hreply
    rcases checkBodies_eq (Except.ok.inj hreceive) with
      ⟨refused, hlibrary, hagree, hresult⟩ | ⟨body, hbody, hfits, hends, hresult⟩
    · refine hrefuse hlive refused (hlibrary ▸ hstays) (fun other hother ↦ ?_) hresult
      have hsame := hagree other hother
      exact ⟨hsame.received, hsame.sent, hsame.methods⟩
    · obtain ⟨rfl, rfl⟩ := Prod.mk.inj hresult
      have hshown : (Event.data frame.streamId frame.payload frame.flowControlledLength ::
            if frame.endStream then [Event.ended frame.streamId] else []).flatMap Event.shown =
          .data true frame.streamId frame.payload ::
            endOf true frame.streamId frame.endStream := by
        rw [List.flatMap_cons, flatMap_shown_ended]
        rfl
      refine ⟨?_, Or.inl hshown⟩
      rw [hshown]
      exact hsound.data true hlawful hlive nofun hbody hfits hends hstays

/-- A frame is handled. -/
theorem Sound.receiveFrame {frame : Frame} {events : List Event} {after : Connection σ}
    (hlawful : h2.Lawful) (hsound : Sound h2 trace connection owned)
    (hreceive : connection.receiveFrame h2 frame = .ok (after, events)) :
    Handled h2 trace connection owned frame after events := by
  cases frame with
  | headers frame => exact hsound.receiveHeadersFrame hlawful hreceive
  | data frame => exact hsound.receiveDataFrame hlawful hreceive
  | goaway lastStreamId noError =>
    unfold Connection.receiveFrame Connection.receiveGoawayFrame at hreceive
    dsimp only at hreceive
    have hnoted : Sound h2 trace { connection with peerLastStream := some lastStreamId } owned :=
      ⟨hsound.conforming, hsound.unused, hsound.silent, hsound.method, hsound.received, hsound.sent,
        hsound.asked⟩
    refine ⟨?_, Or.inr nofun⟩
    split_ifs at hreceive
    · obtain ⟨rfl, rfl⟩ := Prod.mk.inj (Except.ok.inj hreceive)
      exact hnoted.quiet fun event hevent ↦ Or.inl (List.mem_singleton.mp hevent ▸ rfl)
    · obtain ⟨rfl, rfl⟩ := Prod.mk.inj (Except.ok.inj hreceive)
      exact (hnoted.stays (hlawful.receiveGoaway _)).quiet fun event hevent ↦
        Or.inl (List.mem_singleton.mp hevent ▸ rfl)
  | other octets =>
    obtain ⟨streamId, hreply⟩ := hlawful.receiveOther connection.library octets
    obtain ⟨library, rfl, hclosed | ⟨found, hdone, rfl⟩⟩ := settle_eq_ok hreceive
    · rw [hclosed] at hreply
      exact ⟨(hsound.stays hreply.1).quiet hreply.2.2, Or.inr nofun⟩
    · rw [hdone] at hreply
      rw [List.append_nil]
      exact ⟨(hsound.stays hreply.1).quiet hreply.2, Or.inr nofun⟩

/-- The frames of a read are handled. -/
theorem Sound.receiveFrames {frames : List Frame} {events : List Event} {after : Connection σ}
    (hlawful : h2.Lawful) (hsound : Sound h2 trace connection owned)
    (hreceive : connection.receiveFrames h2 frames = .ok (after, events)) :
    Sound h2 (trace ++ events.flatMap Event.shown) after owned := by
  induction frames generalizing trace connection events with
  | nil =>
    obtain ⟨rfl, rfl⟩ := Prod.mk.inj (Except.ok.inj hreceive)
    rwa [List.flatMap_nil, List.append_nil]
  | cons frame rest ih =>
    obtain ⟨⟨between, first⟩, hfirst, hrest⟩ := except_bind_eq_ok.mp hreceive
    obtain ⟨⟨final, later⟩, hlater, hpure⟩ := except_bind_eq_ok.mp hrest
    obtain ⟨rfl, rfl⟩ := Prod.mk.inj (except_pure_eq_ok.mp hpure)
    rw [List.flatMap_append, ← List.append_assoc]
    exact ih (hsound.receiveFrame hlawful hfirst).1 hlater

/-! ### Sent frames -/

/-- The owner gives up a stream, whatever was counted of what it sent. -/
theorem Sound.giveUp {after : Connection σ} (streamId : StreamId)
    (hsound : Sound h2 trace connection owned) (hlibrary : after.library = connection.library)
    (hreceived : after.received = connection.received)
    (hmethods : after.methods = connection.methods)
    (hagree : ∀ other ≠ streamId, Agree other connection after)
    (hfresh : h2.fresh connection.library streamId → OfPeer h2 streamId →
      after.sent streamId = connection.sent streamId) :
    Sound h2 trace after (Function.update owned streamId false) where
  conforming := hsound.conforming
  unused := by
    rw [hlibrary, hreceived]
    exact hsound.unused
  silent other hnew hpeer := by
    rw [hlibrary] at hnew
    rw [hmethods]
    refine ⟨?_, (hsound.silent other hnew hpeer).2⟩
    by_cases hsame : other = streamId
    · subst hsame
      exact (hfresh hnew hpeer).trans (hsound.silent other hnew hpeer).1
    · exact (hagree other hsame).sent.trans (hsound.silent other hnew hpeer).1
  method := by
    rw [hlibrary, hmethods]
    exact hsound.method
  received := by
    rw [hlibrary, hreceived]
    exact hsound.received
  sent other hlive howned := by
    by_cases hsame : other = streamId
    · rw [hsame, Function.update_self] at howned
      cases howned
    · rw [hlibrary] at hlive
      rw [Function.update_of_ne hsame] at howned
      rw [(hagree other hsame).sent]
      exact hsound.sent other hlive howned
  asked hclient other howned := by
    by_cases hsame : other = streamId
    · rw [hsame, Function.update_self] at howned
      cases howned
    · rw [Function.update_of_ne hsame] at howned
      rw [hlibrary, (hagree other hsame).sent]
      exact hsound.asked hclient other howned

/-- `headers` on a stream of the owner, or for a request on a new one. -/
theorem Sound.headers {streamId : StreamId} {values : Headers} {ends : Bool}
    {outcome : Except Raised Headers} {after : Connection σ} (hlawful : h2.Lawful)
    (hsound : Sound h2 trace connection owned)
    (hnew : h2.fresh connection.library streamId →
      h2.clientSide ∧ ¬ OfPeer h2 streamId ∧ pseudoOf values ≠ [])
    (howned : ¬ h2.fresh connection.library streamId → owned streamId)
    (hheaders : connection.headers h2 streamId values ends = (outcome, after)) :
    (∀ raised, outcome = .error raised →
      Sound h2 trace after (Function.update owned streamId false)) ∧
    ∀ fields, outcome = .ok fields →
      Sound h2 (trace ++ .head false streamId fields ends :: endOf false streamId ends) after
        (Function.update owned streamId true) := by
  -- A stream that does not live, whatever was counted.
  have hoff : ∀ refused : Connection σ, Stays h2 connection.library refused.library →
      ¬ h2.live refused.library streamId → refused.received = connection.received →
      (∀ other ≠ streamId, Agree other connection refused) →
      Sound h2 trace refused (Function.update owned streamId false) := by
    intro refused hstays hdead hreceived hagree
    refine hsound.off hstays hdead hagree (fun other hkept ↦ ?_) fun hfresh ↦ ?_
    · by_cases hsame : other = streamId
      · rw [hsame, Function.update_self] at hkept
        cases hkept
      · rwa [Function.update_of_ne hsame] at hkept
    · have hold := hstays.fresh streamId hfresh
      rw [hreceived]
      exact ⟨(hnew hold).2.1, (hsound.unused streamId hold).2⟩
  have hlost : Sound h2 trace connection (Function.update owned streamId false) :=
    hsound.giveUp streamId rfl rfl rfl (fun _ _ ↦ ⟨rfl, rfl, rfl⟩) fun _ _ ↦ rfl
  -- A client that owns a live stream has sent its request.
  have hlive_sent : h2.live connection.library streamId → h2.clientSide →
      connection.sent streamId ≠ none := by
    intro hlive hclient
    have hkept := howned (hlawful.live _ _ hlive)
    exact (hsound.asked hclient streamId hkept).2 hlive
  unfold Connection.headers at hheaders
  by_cases hdraining : h2.clientSide ∧ connection.peerLastStream.isSome ∧
      ¬ h2.known connection.library streamId
  · rw [if_pos hdraining] at hheaders
    obtain ⟨rfl, rfl⟩ := Prod.mk.inj hheaders
    exact ⟨fun _ _ ↦ hlost, nofun⟩
  rw [if_neg hdraining] at hheaders
  obtain ⟨⟨checked, between⟩, hcheck⟩ :
      ∃ result, connection.checkHeaders h2 streamId values ends false = result := ⟨_, rfl⟩
  rw [hcheck] at hheaders
  rcases checkHeaders_eq hcheck with ⟨raised, rfl, hkept⟩ | ⟨rfl, hpasses⟩
  · obtain ⟨rfl, rfl⟩ := Prod.mk.inj hheaders
    refine ⟨fun _ _ ↦ ?_, nofun⟩
    rcases hkept with rfl | ⟨hrequest, hnone, method, rfl⟩
    · exact hlost
    · refine hoff _ Opens.refl (fun hlive ↦ ?_) rfl fun other hother ↦
        ⟨rfl, rfl, Function.update_of_ne hother _ _⟩
      exact hlive_sent hlive (by simpa using hrequest.symm) hnone
  -- A request is new, or trailers follow it; a response is kept.
  dsimp only at hheaders
  rw [hpasses.library_eq] at hheaders
  have hreply := hlawful.sendHeaders connection.library streamId values ends
  have hreceived : between.received = connection.received := hpasses.messages_not
  have hrefused : ∀ library, Stays h2 connection.library library →
      ¬ h2.live library streamId →
      Sound h2 trace { between with library } (Function.update owned streamId false) :=
    fun library hstays hdead ↦ hoff _ hstays hdead hreceived fun other hother ↦
      ⟨(hpasses.agree hother).received, (hpasses.agree hother).sent, (hpasses.agree hother).methods⟩
  have hunsent : Sound h2 trace between (Function.update owned streamId false) := by
    by_cases hlive : h2.live connection.library streamId
    · have hmethods : between.methods = connection.methods := by
        cases hpasses with
        | trailers => rfl
        | interim => rfl
        | response => rfl
        | request hrequest hnone =>
          exact absurd hnone (hlive_sent hlive (by simpa using hrequest.symm))
      exact hsound.giveUp streamId hpasses.library_eq hreceived hmethods
        (fun other ↦ hpasses.agree) fun hfresh ↦ absurd hfresh (hlawful.live _ _ hlive)
    · exact hoff between (by rw [hpasses.library_eq]; exact Opens.refl)
        (by rw [hpasses.library_eq]; exact hlive) hreceived fun other ↦ hpasses.agree
  cases hfound : h2.sendHeaders connection.library streamId values ends with
  | mismatch library =>
    rw [hfound] at hheaders
    obtain ⟨rfl, rfl⟩ := Prod.mk.inj hheaders
    exact ⟨fun _ _ ↦ hunsent, nofun⟩
  | fatal =>
    rw [hfound] at hheaders
    obtain ⟨rfl, rfl⟩ := Prod.mk.inj hheaders
    exact ⟨fun _ _ ↦ hunsent, nofun⟩
  | closed library found =>
    rw [hfound] at hheaders hreply
    obtain ⟨rfl, rfl⟩ := Prod.mk.inj hheaders
    exact ⟨fun _ _ ↦ hrefused library hreply.1 hreply.2.1, nofun⟩
  | done library _ =>
    rw [hfound] at hheaders hreply
    obtain ⟨rfl, rfl⟩ := Prod.mk.inj hheaders
    obtain ⟨hopen, hopens, hused⟩ := hreply
    refine ⟨nofun, fun fields hfields ↦ ?_⟩
    obtain rfl := Except.ok.inj hfields
    refine Sound.forgetClosed hlawful ?_
    have howned' : ∀ other ≠ streamId, Function.update owned streamId true other = owned other :=
      fun other hother ↦ Function.update_of_ne hother _ _
    by_cases hfresh : h2.fresh connection.library streamId
    · obtain ⟨hclient, -, hpseudo⟩ := hnew hfresh
      obtain ⟨hunused, hnothing⟩ := hsound.unused streamId hfresh
      -- What passes on a new stream of a client is a request.
      have hrequest : false ≠ h2.clientSide := by
        rw [hclient]
        exact nofun
      have hnone : connection.messages false streamId = none ∧
          between.sent streamId ≠ none := by
        cases hpasses with
        | trailers _ hnil => exact absurd hnil hpseudo
        | interim hresponse => exact absurd hresponse hrequest
        | response hresponse => exact absurd hresponse hrequest
        | request _ hnone =>
          refine ⟨hnone, ?_⟩
          show Function.update _ _ _ _ ≠ _
          rw [Function.update_self]
          exact nofun
      refine hsound.head hpasses hopens hused (Or.inr ⟨hnone.1, hrequest⟩) ?_ (fun _ ↦ ?_) howned'
        fun _ _ ↦ hnone.2
      · rw [hunused, hnone.1]
        exact ite_self _
      · rw [hunused]
        show _ = (connection.received streamId).map messageOf
        rw [hnothing]
        exact ite_self _
    · have hlive := hopen.resolve_right hfresh
      have hkept := howned hfresh
      refine hsound.head hpasses hopens hused (Or.inl (hsound.method _ hlive))
        (hsound.sent _ hlive hkept) (fun _ ↦ hsound.received _ hlive) howned' fun hclient _ ↦ ?_
      have hsent := hlive_sent hlive hclient
      cases hpasses with
      | trailers => exact hsent
      | interim => exact hsent
      | response _ hnone => exact absurd hnone hsent
      | request _ hnone => exact absurd hnone hsent

/-- What `add` raises is no want of a window. -/
theorem add_error {body after : BodyLength} {count : ℕ} {raised : Raised}
    (hadd : body.add count = (after, .error raised)) :
    raised ≠ .requestDenied "h2_send_window_unavailable" := by
  unfold BodyLength.add at hadd
  by_cases hbound : body.received + count > 2 ^ 63 - 1
  · rw [if_pos hbound] at hadd
    obtain rfl := Except.error.inj (Prod.mk.inj hadd).2
    decide
  · rw [if_neg hbound] at hadd
    have hraised := (Prod.mk.inj hadd).2
    split_ifs at hraised
    · obtain rfl := Except.error.inj hraised
      decide
    · cases hraised

/-- What `finish` raises is no want of a window. -/
theorem finish_error {body : BodyLength} {raised : Raised} (hfinish : body.finish = .error raised) :
    raised ≠ .requestDenied "h2_send_window_unavailable" := by
  unfold BodyLength.finish at hfinish
  split_ifs at hfinish
  · obtain rfl := Except.error.inj hfinish
    decide
  · cases hfinish

/-- What `data` does: it raises for want of a window, or it raises, whatever was counted, or the
data fits and is sent. -/
theorem data_eq {streamId : StreamId} {payload : Bytes} {ends : Bool}
    {outcome : Except Raised Unit} {after : Connection σ}
    (hdata : connection.data h2 streamId payload ends = (outcome, after)) :
    (outcome = .error (.requestDenied "h2_send_window_unavailable") ∧ after = connection) ∨
    (∃ raised, outcome = .error raised ∧ raised ≠ .requestDenied "h2_send_window_unavailable" ∧
      (after = connection ∨ ∃ body, after = connection.record false streamId body)) ∨
    ∃ body, connection.sent streamId = some body ∧
      (∀ limit ∈ body.expected, body.received + payload.length ≤ limit) ∧
      (ends → ∀ limit ∈ body.expected, body.received + payload.length = limit) ∧
      (connection.record false streamId
          { body with received := body.received + payload.length }).dispatch h2 ()
        (if payload = [] ∧ ends then h2.endStream connection.library streamId
          else h2.sendData connection.library streamId payload ends) = (outcome, after) := by
  unfold Connection.data at hdata
  by_cases hframe : payload.length > min 16384 (h2.maximumFrame connection.library)
  · rw [if_pos hframe] at hdata
    obtain ⟨rfl, rfl⟩ := Prod.mk.inj hdata
    exact Or.inr (Or.inl ⟨_, rfl, by decide, Or.inl rfl⟩)
  rw [if_neg hframe] at hdata
  cases hbody : connection.sent streamId with
  | none =>
    rw [hbody] at hdata
    obtain ⟨rfl, rfl⟩ := Prod.mk.inj hdata
    exact Or.inr (Or.inl ⟨_, rfl, by decide, Or.inl rfl⟩)
  | some body =>
  rw [hbody] at hdata
  dsimp only at hdata
  cases hwindow : h2.window connection.library streamId with
  | none =>
    rw [hwindow] at hdata
    obtain ⟨rfl, rfl⟩ := Prod.mk.inj hdata
    exact Or.inr (Or.inl ⟨_, rfl, by decide, Or.inl rfl⟩)
  | some window =>
  rw [hwindow] at hdata
  dsimp only at hdata
  by_cases hlarge : (payload.length : ℤ) > max 0 window
  · rw [if_pos hlarge] at hdata
    obtain ⟨rfl, rfl⟩ := Prod.mk.inj hdata
    exact Or.inl ⟨rfl, rfl⟩
  rw [if_neg hlarge] at hdata
  obtain ⟨⟨counted, raised⟩, hadd⟩ : ∃ result, body.add payload.length = result := ⟨_, rfl⟩
  rw [hadd] at hdata
  dsimp only at hdata
  cases raised with
  | error failure =>
    obtain ⟨rfl, rfl⟩ := Prod.mk.inj hdata
    exact Or.inr (Or.inl ⟨_, rfl, add_error hadd, Or.inr ⟨_, rfl⟩⟩)
  | ok _ =>
  obtain ⟨rfl, hfits⟩ := add_eq_ok hadd
  cases ends with
  | false => exact Or.inr (Or.inr ⟨body, rfl, hfits, nofun, hdata⟩)
  | true =>
    rw [if_pos rfl] at hdata
    cases hfinish : BodyLength.finish { body with received := body.received + payload.length } with
    | error failure =>
      rw [hfinish] at hdata
      obtain ⟨rfl, rfl⟩ := Prod.mk.inj hdata
      exact Or.inr (Or.inl ⟨_, rfl, finish_error hfinish, Or.inr ⟨_, rfl⟩⟩)
    | ok _ =>
      rw [hfinish] at hdata
      exact Or.inr (Or.inr ⟨body, rfl, hfits, fun _ ↦ finish_eq_ok.mp hfinish, hdata⟩)

/-- `data` on a stream of the owner. -/
theorem Sound.sendsData {streamId : StreamId} {payload : Bytes} {ends : Bool}
    {outcome : Except Raised Unit} {after : Connection σ} (hlawful : h2.Lawful)
    (hsound : Sound h2 trace connection owned)
    (hused : ¬ h2.fresh connection.library streamId) (howned : owned streamId)
    (hdata : connection.data h2 streamId payload ends = (outcome, after)) :
    (outcome = .error (.requestDenied "h2_send_window_unavailable") ∧ after = connection) ∨
    (∃ raised, outcome = .error raised ∧ raised ≠ .requestDenied "h2_send_window_unavailable" ∧
      Sound h2 trace after (Function.update owned streamId false)) ∨
    outcome = .ok () ∧ Sound h2
      (trace ++ .data false streamId payload :: endOf false streamId ends) after owned := by
  have hcounted : ∀ body, Sound h2 trace (connection.record false streamId body)
      (Function.update owned streamId false) := fun body ↦
    hsound.giveUp streamId rfl rfl rfl (fun _ hother ↦ Agree.record hother)
      fun hfresh ↦ absurd hfresh hused
  rcases data_eq hdata with hwindow | ⟨raised, rfl, hraised, hafter⟩ |
      ⟨body, hbody, hfits, hends, hsend⟩
  · exact Or.inl hwindow
  · refine Or.inr (Or.inl ⟨raised, rfl, hraised, ?_⟩)
    rcases hafter with rfl | ⟨body, rfl⟩
    · exact hsound.giveUp streamId rfl rfl rfl (fun _ _ ↦ ⟨rfl, rfl, rfl⟩) fun _ _ ↦ rfl
    · exact hcounted body
  have hreply : (if payload = [] ∧ ends then h2.endStream connection.library streamId
      else h2.sendData connection.library streamId payload ends).Obeys h2 connection.library streamId
        fun after _ ↦ h2.live connection.library streamId ∧ Stays h2 connection.library after := by
    split_ifs
    · exact hlawful.endStream _ _
    · exact hlawful.sendData _ _ _ _
  revert hsend hreply
  generalize (if payload = [] ∧ ends then h2.endStream connection.library streamId
    else h2.sendData connection.library streamId payload ends) = reply
  intro hsend hreply
  cases reply with
  | done library _ =>
    obtain ⟨hlive, hstays⟩ := hreply
    obtain ⟨rfl, rfl⟩ := Prod.mk.inj hsend
    exact Or.inr (Or.inr ⟨rfl, Sound.forgetClosed hlawful
      (hsound.data false hlawful hlive (fun _ ↦ howned) hbody hfits hends hstays)⟩)
  | closed library found =>
    obtain ⟨hstays, hdead, -⟩ := hreply
    obtain ⟨rfl, rfl⟩ := Prod.mk.inj hsend
    refine Or.inr (Or.inl ⟨_, rfl, by decide, (hcounted _).off hstays hdead (fun _ _ ↦ ⟨rfl, rfl, rfl⟩)
      (fun _ hkept ↦ hkept) fun hfresh ↦ absurd (hstays.fresh _ hfresh) hused⟩)
  | mismatch library =>
    obtain ⟨rfl, rfl⟩ := Prod.mk.inj hsend
    exact Or.inr (Or.inl ⟨_, rfl, by decide, hcounted _⟩)
  | fatal =>
    obtain ⟨rfl, rfl⟩ := Prod.mk.inj hsend
    exact Or.inr (Or.inl ⟨_, rfl, by decide, hcounted _⟩)

/-! ### Runs -/

/-- A step keeps the invariant. -/
theorem Sound.step {leg : Leg σ} (hlawful : h2.Lawful)
    (hsound : Sound h2 trace leg.connection leg.owned) (input : Input) :
    Sound h2 (trace ++ (step h2 leg input).2) (step h2 leg input).1.connection
      (step h2 leg input).1.owned := by
  have hstays : Sound h2 (trace ++ []) leg.connection leg.owned := by rwa [List.append_nil]
  -- What is sent, or given up.
  have hsends : ∀ {streamId : StreamId} {fields : Headers} {ends : Bool},
      (h2.fresh leg.connection.library streamId →
        h2.clientSide ∧ ¬ OfPeer h2 streamId ∧ pseudoOf fields ≠ []) →
      (¬ h2.fresh leg.connection.library streamId → leg.owned streamId) →
      let result := leg.sent streamId ends (leg.connection.headers h2 streamId fields ends)
      Sound h2 (trace ++ result.2) result.1.connection result.1.owned := by
    intro streamId fields ends hnew howned
    obtain ⟨⟨outcome, after⟩, hheaders⟩ :
        ∃ result, leg.connection.headers h2 streamId fields ends = result := ⟨_, rfl⟩
    obtain ⟨hraised, hsent⟩ := hsound.headers hlawful hnew howned hheaders
    rw [hheaders]
    cases outcome with
    | error raised =>
      show Sound h2 (trace ++ []) after _
      rw [List.append_nil]
      exact hraised raised rfl
    | ok sent => exact hsent sent rfl
  unfold Http2.step
  by_cases hclosed : leg.closed
  · rw [if_pos hclosed]
    exact hstays
  rw [if_neg hclosed]
  cases input with
  | receives frames =>
    dsimp only
    cases hreceive : leg.connection.receiveData h2 frames with
    | error raised => exact hstays
    | ok result =>
      obtain ⟨⟨between, events⟩, hframes, hrest⟩ := except_bind_eq_ok.mp hreceive
      obtain ⟨_, -, hpure⟩ := except_bind_eq_ok.mp hrest
      obtain rfl := except_pure_eq_ok.mp hpure
      exact (hsound.receiveFrames hlawful hframes).forgetClosed hlawful
  | requests fields ends =>
    dsimp only
    by_cases hskip : ¬ h2.clientSide ∨ pseudoOf fields = []
    · rw [if_pos hskip]
      exact hstays
    · rw [if_neg hskip]
      obtain ⟨hclient, hpseudo⟩ := not_or.mp hskip
      obtain ⟨hfresh, hpeer⟩ := hlawful.nextStream leg.connection.library (not_not.mp hclient)
      exact hsends (fun _ ↦ ⟨not_not.mp hclient, hpeer, hpseudo⟩) fun hused ↦ absurd hfresh hused
  | sends streamId fields ends =>
    dsimp only
    by_cases hskip : ¬ leg.owned streamId ∨ h2.fresh leg.connection.library streamId
    · rw [if_pos hskip]
      exact hstays
    · rw [if_neg hskip]
      obtain ⟨howned, hused⟩ := not_or.mp hskip
      exact hsends (fun hfresh ↦ absurd hfresh hused) fun _ ↦ not_not.mp howned
  | sendsData streamId payload ends =>
    dsimp only
    by_cases hskip : ¬ leg.owned streamId ∨ h2.fresh leg.connection.library streamId
    · rw [if_pos hskip]
      exact hstays
    rw [if_neg hskip]
    obtain ⟨howned, hused⟩ := not_or.mp hskip
    obtain ⟨⟨outcome, after⟩, hdata⟩ :
        ∃ result, leg.connection.data h2 streamId payload ends = result := ⟨_, rfl⟩
    rw [hdata]
    rcases hsound.sendsData hlawful hused (not_not.mp howned) hdata with
      ⟨rfl, rfl⟩ | ⟨raised, rfl, hraised, hafter⟩ | ⟨rfl, hafter⟩
    · exact hstays
    · unfold Leg.sentData
      dsimp only
      rw [if_neg hraised, List.append_nil]
      exact hafter
    · exact hafter
  | denies streamId =>
    have hkept : Sound h2 trace leg.connection (Function.update leg.owned streamId false) :=
      hsound.giveUp streamId rfl rfl rfl (fun _ _ ↦ ⟨rfl, rfl, rfl⟩) fun _ _ ↦ rfl
    dsimp only
    split_ifs with hlive
    · obtain ⟨hreset, hdead⟩ := hlawful.resetStream leg.connection.library streamId
      have hoff : Sound h2 trace { leg.connection with
          library := h2.resetStream leg.connection.library streamId } _ := hkept.stays hreset
      exact (hoff.forgetClosed hlawful).quiet quiet_reset
    · rwa [List.append_nil]
  | credits count streamId =>
    rw [List.append_nil]
    exact hsound.stays (hlawful.acknowledge _ _ _)
  | drains =>
    rw [List.append_nil]
    show Sound h2 trace (leg.connection.beginShutdown h2) leg.owned
    unfold Connection.beginShutdown
    split_ifs
    · exact hsound
    · have hqueued := hsound.stays (hlawful.queueGoaway leg.connection.library
        (h2.highestInbound leg.connection.library))
      exact ⟨hqueued.conforming, hqueued.unused, hqueued.silent, hqueued.method, hqueued.received,
        hqueued.sent, hqueued.asked⟩

/-- A new leg. -/
theorem Sound.start {initial : σ} (websocket : Bool) (maximumStreams : ℕ) (hlawful : h2.Lawful)
    (hinitial : ∀ streamId, h2.fresh initial streamId) :
    Sound h2 [] (Leg.start h2 initial websocket maximumStreams).connection
      (Leg.start h2 initial websocket maximumStreams).owned where
  conforming := Along.nil
  unused _ _ := ⟨rfl, rfl⟩
  silent _ _ _ := ⟨rfl, rfl⟩
  method streamId hlive := absurd (hinitial streamId) (hlawful.live _ _ hlive)
  received streamId hlive := absurd (hinitial streamId) (hlawful.live _ _ hlive)
  sent streamId hlive := absurd (hinitial streamId) (hlawful.live _ _ hlive)
  asked hclient streamId howned := by
    have hserver : (!h2.clientSide) = true := howned
    rw [hclient] at hserver
    cases hserver

/-- The first stream of an upgrade. -/
theorem Sound.adopt {leg : Leg σ} (hlawful : h2.Lawful)
    (hsound : Sound h2 [] leg.connection leg.owned) (hfresh : h2.fresh leg.connection.library 1)
    (hunused : leg.connection.received 1 = none ∧ leg.connection.sent 1 = none)
    (upgrade : Option (Bytes × Option Bytes)) :
    Sound h2 (leg.adopt h2 upgrade).2 (leg.adopt h2 upgrade).1.connection
      (leg.adopt h2 upgrade).1.owned := by
  cases upgrade with
  | none => exact hsound
  | some offer =>
    obtain ⟨method, settings⟩ := offer
    unfold Leg.adopt
    dsimp only
    cases hupgraded : leg.connection.upgraded h2 method settings with
    | error raised => exact hsound
    | ok connection =>
      obtain ⟨_, -, hrest⟩ := except_bind_eq_ok.mp hupgraded
      obtain ⟨_, -, hpure⟩ := except_bind_eq_ok.mp hrest
      obtain rfl := except_pure_eq_ok.mp hpure
      obtain ⟨hopens, hused⟩ := hlawful.upgrade leg.connection.library settings hfresh
      have hlibrary : ∀ {before : Connection σ} {incoming : Bool} {body : BodyLength},
          (before.record incoming 1 body).library = before.library := by
        intro before incoming body
        cases incoming <;> rfl
      dsimp only
      refine hsound.renew 1 ?_ ?_ ?_ (fun other hother ↦ ?_) (fun other hother ↦ ?_)
        (fun other hother ↦ Function.update_of_ne hother _ _) fun _ ↦ ?_
      · exact Along.snoc Along.nil trivial
      · rwa [hlibrary]
      · rwa [hlibrary]
      · exact if_neg hother
      · cases h2.clientSide <;> constructor <;>
          simp [Connection.record, Function.update_of_ne hother]
      · have hexchange : exchangeOf h2.clientSide 1 [.upgraded method] =
            { method := some method, request := some ⟨some 0, 0⟩ } := rfl
        have hmethod : Function.update leg.connection.methods 1 (some method) 1 = some method :=
          Function.update_self _ _ _
        have hreceived : Function.update leg.connection.received 1 (some ⟨some 0, 0⟩) 1 =
            some ⟨some 0, 0⟩ := Function.update_self _ _ _
        rw [hexchange]
        cases hside : h2.clientSide with
        | true =>
          refine ⟨hmethod, ?_, fun howned ↦ ?_⟩
          · exact (congrArg (Option.map messageOf) hunused.1).symm
          · rw [Function.update_self] at howned
            cases howned
        | false =>
          refine ⟨hmethod, ?_, fun _ ↦ ⟨?_, nofun⟩⟩
          · exact (congrArg (Option.map messageOf) hreceived).symm
          · exact (congrArg (Option.map messageOf) hunused.2).symm

/-- The invariant holds after every run. -/
theorem Sound.run {initial : σ} (websocket : Bool) (maximumStreams : ℕ)
    (upgrade : Option (Bytes × Option Bytes)) (inputs : List Input) (hlawful : h2.Lawful)
    (hinitial : ∀ streamId, h2.fresh initial streamId) :
    Sound h2 (run h2 initial websocket maximumStreams upgrade inputs).2
      (run h2 initial websocket maximumStreams upgrade inputs).1.connection
      (run h2 initial websocket maximumStreams upgrade inputs).1.owned := by
  have hstart :=
    (Sound.start websocket maximumStreams hlawful hinitial).adopt hlawful (hinitial 1) ⟨rfl, rfl⟩
      upgrade
  refine run_induction (fun _ (leg : Leg σ) later ↦ Sound h2
    (((Leg.start h2 initial websocket maximumStreams).adopt h2 upgrade).2 ++ later)
      leg.connection leg.owned) ?_ (fun _ input leg later hleg ↦ ?_) inputs
  · rwa [List.append_nil]
  · rw [← List.append_assoc]
    exact hleg.step hlawful input

/-- A frame that would not conform resets its stream, or the connection fails. -/
theorem Sound.resets {leg : Leg σ} {frame : Frame} (hlawful : h2.Lawful)
    (hsound : Sound h2 trace leg.connection leg.owned)
    (hviolates : ¬ Conforming h2.clientSide
      (trace ++ frame.shows h2 leg.connection.library)) :
    (Http2.step h2 leg (.receives [frame])).1.closed ∨ ∀ streamId ∈ frame.stream,
      ¬ h2.live (Http2.step h2 leg (.receives [frame])).1.connection.library streamId := by
  unfold Http2.step
  by_cases hclosed : leg.closed
  · rw [if_pos hclosed]
    exact Or.inl hclosed
  rw [if_neg hclosed]
  dsimp only
  cases hreceive : leg.connection.receiveData h2 [frame] with
  | error raised => exact Or.inl rfl
  | ok result =>
    obtain ⟨⟨between, events⟩, hframes, hrest⟩ := except_bind_eq_ok.mp hreceive
    obtain ⟨_, -, hpure⟩ := except_bind_eq_ok.mp hrest
    obtain rfl := except_pure_eq_ok.mp hpure
    obtain ⟨⟨handled, found⟩, hframe, hnothing⟩ := except_bind_eq_ok.mp hframes
    obtain ⟨rfl, -⟩ := Prod.mk.inj (Except.ok.inj hnothing)
    obtain ⟨hafter, hshown | hdead⟩ := hsound.receiveFrame hlawful hframe
    · exact absurd (hshown ▸ hafter.conforming) hviolates
    · exact Or.inr hdead

end Gate

/-- On every leg, whatever is received, sent, denied and acknowledged in whatever order, what passes
conforms; and a frame that would not conform resets its stream, if it does not end the connection. -/
theorem bodies_conform {σ : Type} (h2 : Library σ) (hlawful : h2.Lawful) (initial : σ)
    (hinitial : ∀ streamId, h2.fresh initial streamId) (websocket : Bool) (maximumStreams : ℕ)
    (upgrade : Option (Bytes × Option Bytes)) (inputs : List Input) :
    let result := run h2 initial websocket maximumStreams upgrade inputs
    Conforming h2.clientSide result.2 ∧
      ∀ frame : Frame,
        ¬ Conforming h2.clientSide
          (result.2 ++ frame.shows h2 result.1.connection.library) →
            let leg := (step h2 result.1 (.receives [frame])).1
            leg.closed ∨ ∀ streamId ∈ frame.stream, ¬ h2.live leg.connection.library streamId := by
  have hsound := Sound.run websocket maximumStreams upgrade inputs hlawful hinitial
  exact ⟨hsound.conforming, fun _ hviolates ↦ hsound.resets hlawful hviolates⟩

/-! ### A server -/

/-- The streams of a connection. -/
structure Streams where
  /-- The streams that are not closed. -/
  live : List StreamId
  /-- All streams so far. -/
  used : List StreamId

/-- The length of an HPACK string without Huffman coding, of at most 16510 octets. -/
def encodeLength (length : ℕ) : Bytes :=
  if length < 127 then [Fin.ofNat 256 length]
  else [127, Fin.ofNat 256 (128 + (length - 127) % 128), Fin.ofNat 256 ((length - 127) / 128)]

/-- An HPACK string without Huffman coding, and the octets after it. -/
def decodeString : Bytes → Option (Bytes × Bytes)
  | first :: rest =>
    if first.val < 127 then some (rest.splitAt first.val)
    else
      match rest with
      | low :: high :: after => some (after.splitAt (127 + (low.val - 128) + high.val * 128))
      | _ => none
  | [] => none

/-- A field of an HPACK block that has literals without indexing only. -/
def encodeLiteral (field : Bytes × Bytes) : Bytes :=
  0 :: encodeLength field.1.length ++ field.1 ++ encodeLength field.2.length ++ field.2

/-- The fields of an HPACK block that has literals without indexing only, at most so many. -/
def decodeLiterals : ℕ → Bytes → Headers
  | fuel + 1, 0 :: literal =>
    match decodeString literal with
    | some (name, rest) =>
      match decodeString rest with
      | some (value, after) => (name, value) :: decodeLiterals fuel after
      | none => []
    | none => []
  | _, _ => []

/-- A call about a live stream. -/
def Streams.reply {α : Type} (streams : Streams) (streamId : StreamId) (value : α) :
    Reply Streams α :=
  if streamId ∈ streams.live ∧ streamId ∈ streams.used then .done streams value
  else .closed streams []

/-- A server that keeps count of its streams. -/
def server : Library Streams where
  clientSide := false
  known streams streamId := streamId ∈ streams.live
  live streams streamId := streamId ∈ streams.live ∧ streamId ∈ streams.used
  fresh streams streamId := streamId ∉ streams.used
  idle _ _ := false
  openInbound streams := streams.live.length
  highestInbound streams := streams.used.foldl max 0
  nextStream _ := 2
  connectEnabled _ := false
  maximumFrame _ := 16384
  window streams streamId := if streamId ∈ streams.live then some 65535 else none
  openStream streams frame :=
    let fields := decodeLiterals 128 frame.block
    if frame.streamId ∈ streams.used then streams.reply frame.streamId fields
    else if frame.streamId % 2 = 1 then
      .done ⟨frame.streamId :: streams.live, frame.streamId :: streams.used⟩ fields
    else .fatal
  receivePriority streams _ := .done streams ()
  receiveHeaders streams streamId fields ends := streams.reply streamId
    (.headers streamId fields ends :: if ends then [.ended streamId] else [])
  receiveData streams frame := streams.reply frame.streamId
    (.data frame.streamId frame.payload frame.flowControlledLength ::
      if frame.endStream then [.ended frame.streamId] else [])
  receiveGoaway streams := streams
  receiveOther streams _ := .done streams []
  advance streams _ := streams
  queueReset streams _ := streams
  resetStream streams streamId := { streams with live := streams.live.filter (· ≠ streamId) }
  acknowledge streams _ _ := streams
  queueGoaway streams _ := streams
  sendHeaders streams streamId _ _ := streams.reply streamId ()
  sendData streams streamId _ _ := streams.reply streamId ()
  endStream streams streamId := streams.reply streamId ()
  upgrade streams _ := ⟨1 :: streams.live, 1 :: streams.used⟩

/-- A call about a live stream opens nothing. -/
theorem Streams.reply_obeys {α : Type} {streams : Streams} {streamId : StreamId} {value : α}
    {returns : Streams → α → Prop}
    (hreturns : server.live streams streamId → returns streams value) :
    (streams.reply streamId value).Obeys server streams streamId returns := by
  unfold Streams.reply
  split_ifs with hlive
  · exact hreturns (decide_eq_true hlive)
  · exact ⟨Opens.refl, fun hother ↦ hlive (of_decide_eq_true hother), nofun⟩

/-- The server is as the gate expects. -/
theorem server_lawful : server.Lawful where
  live streams streamId hlive hfresh := by
    exact (of_decide_eq_true hfresh) (of_decide_eq_true hlive).2
  nextStream _ := nofun
  openStream streams frame := by
    unfold server
    dsimp only
    split_ifs with hused hodd
    · exact Streams.reply_obeys fun _ ↦ Opens.refl
    · refine ⟨fun streamId hlive ↦ ?_, fun streamId hfresh ↦ ?_⟩
      · by_cases hsame : streamId = frame.streamId
        · exact Or.inr ⟨decide_eq_true (hsame ▸ hused), hsame, hsame ▸ hodd⟩
        · obtain ⟨hmem, hold⟩ := of_decide_eq_true hlive
          exact Or.inl (decide_eq_true ⟨(List.mem_cons.mp hmem).resolve_left hsame,
            (List.mem_cons.mp hold).resolve_left hsame⟩)
      · exact decide_eq_true fun hmem ↦ of_decide_eq_true hfresh (List.mem_cons_of_mem _ hmem)
    · trivial
  receivePriority _ _ := Opens.refl
  receiveHeaders _ _ _ _ := Streams.reply_obeys fun hlive ↦ ⟨hlive, Opens.refl, rfl⟩
  receiveData _ _ := Streams.reply_obeys fun hlive ↦ ⟨hlive, Opens.refl, rfl⟩
  receiveGoaway _ := Opens.refl
  receiveOther _ _ := ⟨0, Opens.refl, nofun⟩
  advance _ _ := Opens.refl
  queueReset _ _ := Opens.refl
  resetStream streams streamId := by
    refine ⟨⟨fun other hlive ↦ ?_, fun other hfresh ↦ hfresh⟩, fun hlive ↦ ?_⟩
    · obtain ⟨hmem, hused⟩ := of_decide_eq_true hlive
      exact Or.inl (decide_eq_true ⟨(List.mem_filter.mp hmem).1, hused⟩)
    · obtain ⟨hmem, -⟩ := of_decide_eq_true hlive
      exact of_decide_eq_true (List.mem_filter.mp hmem).2 rfl
  acknowledge _ _ _ := Opens.refl
  queueGoaway _ _ := Opens.refl
  sendHeaders streams streamId _ _ := Streams.reply_obeys fun hlive ↦
    ⟨Or.inl hlive, Opens.refl, fun hfresh ↦
      of_decide_eq_true hfresh (of_decide_eq_true hlive).2⟩
  sendData _ _ _ _ := Streams.reply_obeys fun hlive ↦ ⟨hlive, Opens.refl⟩
  endStream _ _ := Streams.reply_obeys fun hlive ↦ ⟨hlive, Opens.refl⟩
  upgrade streams settings hfirst := by
    refine ⟨⟨fun streamId hlive ↦ ?_, fun streamId hfresh ↦ ?_⟩, fun hfresh ↦ ?_⟩
    · by_cases hsame : streamId = 1
      · exact Or.inr ⟨hsame ▸ hfirst, hsame⟩
      · obtain ⟨hmem, hold⟩ := of_decide_eq_true hlive
        exact Or.inl (decide_eq_true ⟨(List.mem_cons.mp hmem).resolve_left hsame,
          (List.mem_cons.mp hold).resolve_left hsame⟩)
    · exact decide_eq_true fun hmem ↦ of_decide_eq_true hfresh (List.mem_cons_of_mem _ hmem)
    · have hnot : 1 ∉ 1 :: streams.used := of_decide_eq_true hfresh
      exact hnot List.mem_cons_self

/-- A body of the declared length is received. -/
theorem bodies_conform_post : ∃ shown,
    (run server ⟨[], []⟩ true 64 none
      [.receives [.headers ⟨1, [(":method", "POST"), (":scheme", "https"), (":path", "/"),
          (":authority", "origin.example"), ("content-length", "3")].flatMap fun field ↦
            encodeLiteral (ascii field.1, ascii field.2), false, false⟩],
        .receives [.data ⟨1, ascii "abc", 3, true⟩]]).2 = shown ∧
      .ended true 1 ∈ shown ∧ Conforming false shown :=
  ⟨_, rfl, by decide +kernel,
    (bodies_conform server server_lawful ⟨[], []⟩ (fun _ ↦ rfl) true 64 none _).1⟩

end Ads.SandboxEgress.Http2
