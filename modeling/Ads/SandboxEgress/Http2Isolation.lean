import Ads.SandboxEgress.CanonicalHost
import Ads.SandboxEgress.Http2Bodies

/-!
# Streams of HTTP/2 are isolated

A header block that the library decodes on an open connection is shown, or its stream alone is reset
(`Isolated`). The gate breaks this in one case: on the leg of a server, a request head whose first
value of `:authority` or `host` that is no authority has a port of more than 4300 digits. The gate
handles `RequestDenied` and `UnicodeError`, but `int` raises `ValueError`, which ends the connection
with all its streams (`receive_isolated_iff`).
-/

set_option autoImplicit false
set_option relaxedAutoImplicit false

namespace Ads.SandboxEgress.Http2

open Dns Foundation.StateExcept Python

variable {σ : Type} (h2 : Library σ)

/-! ### The library -/

/-- An event concerns no other stream. -/
def Event.Concerns (streamId : StreamId) : Event → Prop
  | .headers stream _ _ => stream = streamId
  | .data stream _ _ => stream = streamId
  | .ended stream => stream = streamId
  | .reset stream => stream = streamId
  | .settings _ => False
  | .shutdown _ => False
  | .other => True

/-- The other streams live as before. -/
def Spares (streamId : StreamId) (before after : σ) : Prop :=
  ∀ other ≠ streamId, h2.live after other = h2.live before other

/-- A call about a stream leaves the other streams alone. -/
def Reply.Spares {α : Type} (before : σ) (streamId : StreamId) : Reply σ α → Prop
  | .done after _ => Http2.Spares h2 streamId before after
  | .closed after events =>
    Http2.Spares h2 streamId before after ∧ ∀ event ∈ events, event.Concerns streamId
  | _ => True

/-- A call raises nothing that ends the connection. -/
def Reply.Returns {α : Type} : Reply σ α → Prop
  | .done _ _ => True
  | .closed _ _ => True
  | .mismatch _ => False
  | .fatal => False

/-- What the library does about a stream leaves the other streams alone. -/
structure Library.Separate : Prop where
  /-- A stream opens. -/
  openStream : ∀ state frame, (h2.openStream state frame).Spares h2 state frame.streamId
  /-- A stream gets a priority. -/
  receivePriority : ∀ state frame, (h2.receivePriority state frame).Spares h2 state frame.streamId
  /-- A stream receives a header block. -/
  receiveHeaders : ∀ state streamId fields ends,
    (h2.receiveHeaders state streamId fields ends).Spares h2 state streamId
  /-- A stream advances. -/
  advance : ∀ state streamId, Spares h2 streamId state (h2.advance state streamId)
  /-- RST_STREAM is sent on a closed stream. -/
  queueReset : ∀ state streamId, Spares h2 streamId state (h2.queueReset state streamId)
  /-- A stream is reset. -/
  resetStream : ∀ state streamId, Spares h2 streamId state (h2.resetStream state streamId)

/-- The library raises nothing for a header block that passes the gate on a live stream. -/
def Library.Accepts : Prop :=
  ∀ (connection after : Connection σ) (streamId : StreamId) (values fields : Headers) (ends : Bool),
    h2.live connection.library streamId →
    connection.checkHeaders h2 streamId values ends true = (.ok fields, after) →
      (h2.receiveHeaders after.library streamId fields ends).Returns

/-! ### The block of a frame -/

/-- The connection at the gate of a header block, with the fields of the block. -/
def Connection.decoded (connection : Connection σ) (frame : HeadersFrame) :
    Option (Connection σ × Headers) :=
  match h2.openStream connection.library frame with
  | .done library values =>
    if frame.priority then
      match h2.receivePriority library frame with
      | .done library _ => some ({ connection with library }, values)
      | _ => none
    else some ({ connection with library }, values)
  | _ => none

/-- A frame that is valid where it arrives: there is room for its stream, it is decoded and opens its
stream, its priority is none that ends the connection, and a stream that is closed takes it. -/
structure Connection.Admits (connection : Connection σ) (frame : HeadersFrame) : Prop where
  /-- The stream is known or not one too many. -/
  room : h2.known connection.library frame.streamId ∨
    h2.openInbound connection.library < connection.maximumStreams
  /-- The frame is decoded and its stream opened. -/
  opens : (h2.openStream connection.library frame).Returns
  /-- The priority is valid. -/
  priority : ∀ library values, h2.openStream connection.library frame = .done library values →
    frame.priority → (h2.receivePriority library frame).Returns
  /-- The library deals with a block on a closed stream. -/
  closed : ∀ found values, connection.decoded h2 frame = some (found, values) →
    ¬ h2.live found.library frame.streamId →
      (h2.receiveHeaders found.library frame.streamId values frame.endStream).Returns

/-- The block is shown or its stream is closed, all events are of the stream, and the other streams
live as before with all that is known of them. -/
def Isolated (connection : Connection σ) (frame : HeadersFrame)
    (result : Except Raised (Connection σ × List Event)) : Prop :=
  ∃ after events, result = .ok (after, events) ∧
    (events.flatMap Event.shown = (Frame.headers frame).shows h2 connection.library ∨
      ¬ h2.live after.library frame.streamId) ∧
    (∀ event ∈ events, event.Concerns frame.streamId) ∧
    ∀ other ≠ frame.streamId, h2.live after.library other = h2.live connection.library other ∧
      (h2.live connection.library other → Agree other connection after)

/-! ### What the gate raises -/

/-- The authority of a field of a request with a scheme. -/
def fieldAuthority (scheme : Bytes) (field : Bytes × Bytes) : Except Raised (Option Authority) :=
  match decodeAscii field.2 with
  | none => throw (.requestDenied "h2_non_ascii_authority")
  | some text => authority text (if scheme = ascii "https" then 443 else 80)

/-- The first value of `:authority` or `host` that is no authority has an oversized port. -/
def OversizedAuthority (fields : Headers) : Prop :=
  ∃ before field after text, fields.filter givesAuthority = before ++ field :: after ∧
    (∀ earlier ∈ before, ∃ result,
      fieldAuthority (((pseudoOf fields).lookup (ascii ":scheme")).getD []) earlier = .ok result) ∧
    decodeAscii field.2 = some text ∧ oversizedPort text

/-- A CONNECT request is one of WebSocket, where it is enabled, and no other request has a
`:protocol`. -/
def Connection.allowsMethod (connection : Connection σ) (pseudo : Headers) : Bool :=
  if (pseudo.lookup (ascii ":method")).getD [] = ascii "CONNECT" then
    connection.websocket ∧ pseudo.lookup (ascii ":protocol") = some (ascii "websocket") ∧
      (pseudo.lookup (ascii ":authority")).getD [] ≠ []
  else pseudo.lookup (ascii ":protocol") = none

/-- The block is the head of a request on the leg of a server, whose authority is oversized. -/
structure Connection.Oversized (connection : Connection σ) (frame : HeadersFrame)
    (values : Headers) : Prop where
  /-- The leg is that of a server. -/
  server : h2.clientSide = false
  /-- The stream is open. -/
  live : h2.live connection.library frame.streamId
  /-- The stream is none of those after a GOAWAY. -/
  kept : ¬ connection.localLastStream.any (· < frame.streamId)
  /-- The block is the first of its stream. -/
  first : connection.received frame.streamId = none
  /-- The fields are well-formed. -/
  fields : messageFields values = .ok values
  /-- The pseudo-headers are those of a request. -/
  request : describesRequest (pseudoOf values)
  /-- The method is allowed. -/
  method : connection.allowsMethod (pseudoOf values)
  /-- The authority is oversized. -/
  authority : OversizedAuthority values

/-- The frame carries such a block. -/
def Connection.ReceivesOversized (connection : Connection σ) (frame : HeadersFrame) : Prop :=
  ∃ found values, connection.decoded h2 frame = some (found, values) ∧
    found.Oversized h2 frame values

section Gate

variable {h2}

/-- A loop raises nothing but `RequestDenied`, if its rounds do not. -/
theorem denying_foldlM {α β : Type} {round : β → α → Except Raised β}
    (hround : ∀ state item, Denying (round state item)) (items : List α) (state : β) :
    Denying (items.foldlM round state) := by
  induction items generalizing state with
  | nil => exact Denying.pure state
  | cons item rest ih =>
    rw [List.foldlM_cons]
    exact (hround state item).bind fun next _ ↦ ih next

/-- `validate_headers` raises nothing but `RequestDenied`. -/
theorem validateHeaders_denying (headers : Headers) (second : Bool) :
    Denying (validateHeaders headers second) := by
  refine Denying.bind (denying_foldlM (fun gate header ↦ ?_) headers _) fun gate _ ↦
    Denying.bind ?_ fun _ _ ↦ Denying.pure _
  · unfold HeaderGate.take
    dsimp only
    split_ifs
    all_goals first
      | exact Denying.requestDenied _
      | exact Denying.pure _
  · unfold checkFraming
    dsimp only
    split_ifs
    all_goals first
      | exact Denying.requestDenied _
      | exact Denying.pure _

/-- `BodyLength.finish` raises nothing but `RequestDenied`. -/
theorem finish_denying (body : BodyLength) : Denying body.finish := by
  unfold BodyLength.finish
  split_ifs
  · exact Denying.requestDenied _
  · exact Denying.pure _

/-- The fields of a block are refused with `RequestDenied`. -/
theorem messageFields_denying (values : Headers) : Denying (messageFields values) :=
  (validateHeaders_denying values true).bind fun _ _ ↦
    (Denying.failIf _).bind fun _ _ ↦ Denying.pure _

/-- Trailers are refused with `RequestDenied`. -/
theorem messageTrailers_denying (body : BodyLength) (fields : Headers) (ends : Bool) :
    Denying (messageTrailers body fields ends) := by
  refine Denying.bind ((validateHeaders_denying fields true).bind fun values _ ↦ ?_) fun _ _ ↦
    (Denying.failIf _).bind fun _ _ ↦ (finish_denying body).bind fun _ _ ↦ Denying.pure _
  split_ifs
  · exact Denying.requestDenied _
  · exact Denying.requestDenied _
  · exact Denying.pure _

/-- The start of a message is refused with `RequestDenied`. -/
theorem startMessage_denying (connection : Connection σ) (streamId : StreamId) (fields : Headers)
    (expected : Option ℕ) (ends incoming : Bool) :
    Denying (connection.startMessage streamId fields expected ends incoming).1 := by
  unfold Connection.startMessage
  dsimp only
  by_cases hhosts : (valuesOf "host" fields).length > 1
  · rw [if_pos hhosts]
    exact Denying.requestDenied _
  · rw [if_neg hhosts]
    cases hfinish : (if ends then BodyLength.finish { expected } else return ()) with
    | ok _ => exact Denying.pure _
    | error raised =>
      cases ends with
      | false => cases hfinish
      | true =>
        obtain ⟨reason, rfl⟩ := (finish_denying _).eq_requestDenied hfinish
        exact Denying.requestDenied reason

/-- A response is refused with `RequestDenied`. -/
theorem checkResponse_denying (connection : Connection σ) (streamId : StreamId) (fields : Headers)
    (ends incoming : Bool) :
    Denying (connection.checkResponse streamId fields ends incoming).1 := by
  have hstatus : Denying (responseStatus fields) :=
    (Denying.failIf _).bind fun _ _ ↦ Denying.pure _
  unfold Connection.checkResponse
  cases hread : responseStatus fields with
  | error raised =>
    obtain ⟨reason, rfl⟩ := hstatus.eq_requestDenied hread
    exact Denying.requestDenied reason
  | ok status =>
    dsimp only
    by_cases hinterim : status < 200
    · rw [if_pos hinterim]
      split_ifs
      · exact Denying.requestDenied _
      · exact Denying.pure _
    · rw [if_neg hinterim]
      have hlength : Denying (responseLength (connection.methods streamId) status fields) :=
        (Denying.failIf _).bind fun _ _ ↦ (Denying.failIf _).bind fun _ _ ↦ Denying.pure _
      cases hexpected : responseLength (connection.methods streamId) status fields with
      | error raised =>
        obtain ⟨reason, rfl⟩ := hlength.eq_requestDenied hexpected
        exact Denying.requestDenied reason
      | ok expected => exact startMessage_denying connection streamId fields expected ends incoming

/-- The authority of a field raises nothing but `RequestDenied` if and only if it is not
oversized. -/
theorem fieldAuthority_denying_iff (scheme : Bytes) (field : Bytes × Bytes) :
    Denying (fieldAuthority scheme field) ↔
      ¬ ∃ text, decodeAscii field.2 = some text ∧ oversizedPort text := by
  unfold fieldAuthority
  cases hdecoded : decodeAscii field.2 with
  | none =>
    refine ⟨fun _ ↦ ?_, fun _ ↦ Denying.requestDenied _⟩
    rintro ⟨text, htext, -⟩
    cases htext
  | some text =>
    refine (authority_denying_iff text _).trans ⟨fun hshort ↦ ?_, fun hshort ↦ ?_⟩
    · rintro ⟨other, hother, hlong⟩
      obtain rfl := Option.some.inj hother
      rw [hshort] at hlong
      cases hlong
    · by_contra hlong
      exact hshort ⟨text, rfl, Bool.not_eq_false _ ▸ hlong⟩

/-- The authorities of a request raise nothing but `RequestDenied` if and only if none is oversized
before one is refused. -/
theorem checkIdentity_denying_iff (fields : Headers) :
    Denying (checkIdentity (((pseudoOf fields).lookup (ascii ":scheme")).getD []) fields) ↔
      ¬ OversizedAuthority fields := by
  generalize hscheme : ((pseudoOf fields).lookup (ascii ":scheme")).getD [] = scheme
  have hidentity : ∀ authorities, Denying (consistentIdentity authorities none) := by
    intro authorities
    have hname : Denying (Option.mapM canonicalHost none) := Denying.pure none
    exact (Denying.failIf _).bind fun _ _ ↦ hname.bind fun _ _ ↦
      (Denying.failIf _).bind fun _ _ ↦ Denying.pure _
  have hread : Denying ((fields.filter givesAuthority).mapM (fieldAuthority scheme)) ↔
      ¬ OversizedAuthority fields := by
    constructor
    · rintro hdenying ⟨before, field, after, text, hfields, hbefore, htext, hlong⟩
      rw [hscheme] at hbefore
      have hfield : ¬ Denying (fieldAuthority scheme field) := fun hother ↦
        (fieldAuthority_denying_iff scheme field).mp hother ⟨text, htext, hlong⟩
      unfold Denying at hfield
      push Not at hfield
      obtain ⟨name, hname⟩ := hfield
      exact hdenying name
        (except_mapM_eq_error.mpr ⟨before, field, after, hfields, hbefore, hname⟩)
    · intro hshort name hraised
      obtain ⟨before, field, after, hfields, hbefore, hname⟩ := except_mapM_eq_error.mp hraised
      have hfield : ¬ Denying (fieldAuthority scheme field) := fun hother ↦ hother name hname
      rw [fieldAuthority_denying_iff, not_not] at hfield
      obtain ⟨text, htext, hlong⟩ := hfield
      rw [← hscheme] at hbefore
      exact hshort ⟨before, field, after, text, hfields, hbefore, htext, hlong⟩
  rw [← hread]
  constructor
  · intro hdenying name hraised
    exact hdenying name (except_bind_eq_error.mpr (Or.inl hraised))
  · intro hdenying
    exact hdenying.bind fun authorities _ ↦ (hidentity authorities).bind fun _ _ ↦ Denying.pure _

/-- What follows a refusal counts where nothing is refused. -/
theorem denying_failIf_iff {α : Type} {condition : Prop} [Decidable condition] {reason : String}
    {rest : Except Raised α} :
    Denying (failIf condition (.requestDenied reason) >>= fun _ ↦ rest) ↔
      (¬ condition → Denying rest) := by
  unfold failIf
  split_ifs with hcondition
  · exact ⟨fun _ hnot ↦ absurd hcondition hnot, fun _ ↦ Denying.requestDenied reason⟩
  · exact ⟨fun hrest _ ↦ hrest, fun hrest ↦ hrest hcondition⟩

/-- The checks on a request raise nothing but `RequestDenied` if and only if they do not come to an
oversized authority. -/
theorem requestMethod_denying_iff (h2 : Library σ) (connection : Connection σ) (fields : Headers) :
    Denying (connection.requestMethod h2 fields true) ↔
      ¬ (describesRequest (pseudoOf fields) ∧ connection.allowsMethod (pseudoOf fields) ∧
        OversizedAuthority fields) := by
  have hidentity : ∀ method : Bytes, Denying (checkIdentity
      (((pseudoOf fields).lookup (ascii ":scheme")).getD []) fields >>= fun _ ↦ pure method) ↔
        ¬ OversizedAuthority fields := by
    intro method
    rw [← checkIdentity_denying_iff]
    constructor
    · intro hdenying name hraised
      exact hdenying name (except_bind_eq_error.mpr (Or.inl hraised))
    · intro hdenying
      exact hdenying.bind fun _ _ ↦ Denying.pure _
  unfold Connection.requestMethod
  dsimp only
  rw [denying_failIf_iff, not_not, if_pos rfl, not_and]
  refine imp_congr_right fun hrequest ↦ ?_
  unfold Connection.allowsMethod
  by_cases hconnect : ((pseudoOf fields).lookup (ascii ":method")).getD [] = ascii "CONNECT"
  · rw [if_pos hconnect, if_pos hconnect, denying_failIf_iff, hidentity, not_and, decide_eq_true_eq,
      not_or, not_or, not_not, not_not]
  · rw [if_neg hconnect, if_neg hconnect, denying_failIf_iff, hidentity, not_and, decide_eq_true_eq,
      Option.not_isSome_iff_eq_none]

/-- `_headers` raises nothing but `RequestDenied` on a received block if and only if the block is not
the head of a request with an oversized authority. -/
theorem checkHeaders_denying_iff (h2 : Library σ) (connection : Connection σ) (streamId : StreamId)
    (values : Headers) (ends : Bool) :
    Denying (connection.checkHeaders h2 streamId values ends true).1 ↔
      ¬ (h2.clientSide = false ∧ connection.received streamId = none ∧
        messageFields values = .ok values ∧ describesRequest (pseudoOf values) ∧
        connection.allowsMethod (pseudoOf values) ∧ OversizedAuthority values) := by
  unfold Connection.checkHeaders
  cases hfields : messageFields values with
  | error raised =>
    obtain ⟨reason, rfl⟩ := (messageFields_denying values).eq_requestDenied hfields
    refine ⟨fun _ hall ↦ ?_, fun _ ↦ Denying.requestDenied reason⟩
    cases hall.2.2.1
  | ok fields =>
  obtain rfl := messageFields_eq hfields
  cases hmessage : connection.received streamId with
  | some body =>
    have hsome : connection.messages true streamId = some body := hmessage
    dsimp only
    rw [hsome]
    refine ⟨fun _ hall ↦ ?_, fun _ ↦ messageTrailers_denying body fields ends⟩
    cases hall.2.1
  | none =>
  have hnone : connection.messages true streamId = none := hmessage
  dsimp only
  rw [hnone]
  dsimp only
  by_cases hclient : true = h2.clientSide
  · rw [if_pos hclient]
    refine ⟨fun _ hall ↦ ?_, fun _ ↦ checkResponse_denying connection streamId fields ends true⟩
    rw [hall.1] at hclient
    cases hclient
  rw [if_neg hclient]
  have hserver : h2.clientSide = false := by
    cases hside : h2.clientSide with
    | true => exact absurd hside.symm hclient
    | false => rfl
  have hmethod := requestMethod_denying_iff h2 connection fields
  constructor
  · rintro hdenying ⟨-, -, -, hall⟩
    have hraises : ¬ Denying (connection.requestMethod h2 fields true) :=
      fun hother ↦ hmethod.mp hother hall
    unfold Denying at hraises
    push Not at hraises
    obtain ⟨name, hname⟩ := hraises
    rw [hname] at hdenying
    exact hdenying name rfl
  · intro hshort
    have hdenying := hmethod.mpr fun hall ↦ hshort ⟨hserver, rfl, rfl, hall⟩
    cases hread : connection.requestMethod h2 fields true with
    | error raised =>
      obtain ⟨reason, rfl⟩ := hdenying.eq_requestDenied hread
      exact Denying.requestDenied reason
    | ok method => exact startMessage_denying _ streamId fields _ ends true

/-! ### Isolation -/

/-- A frame changes nothing about other streams. -/
structure Apart (h2 : Library σ) (streamId : StreamId) (connection after : Connection σ) : Prop where
  /-- The other streams live as before. -/
  spares : Spares h2 streamId connection.library after.library
  /-- What is known of the live ones stays. -/
  agree : ∀ other ≠ streamId, h2.live connection.library other → Agree other connection after

/-- Nothing changes in two steps of which neither changes anything. -/
theorem Apart.trans {streamId : StreamId} {first second third : Connection σ}
    (hfirst : Apart h2 streamId first second) (hsecond : Apart h2 streamId second third) :
    Apart h2 streamId first third where
  spares other hother := (hsecond.spares other hother).trans (hfirst.spares other hother)
  agree other hother hlive := by
    have hbefore := hfirst.agree other hother hlive
    have hafter := hsecond.agree other hother (by rwa [hfirst.spares other hother])
    exact ⟨hafter.received.trans hbefore.received, hafter.sent.trans hbefore.sent,
      hafter.methods.trans hbefore.methods⟩

/-- The library alone changes. -/
theorem Apart.library {streamId : StreamId} {connection : Connection σ} (library : σ)
    (hspares : Spares h2 streamId connection.library library) :
    Apart h2 streamId connection { connection with library } where
  spares := hspares
  agree _ _ _ := ⟨rfl, rfl, rfl⟩

/-- What is known of closed streams is forgotten. -/
theorem Apart.forgetClosed (streamId : StreamId) (connection : Connection σ) :
    Apart h2 streamId connection (connection.forgetClosed h2) where
  spares _ _ := rfl
  agree other _ hlive := by
    refine ⟨?_, ?_, ?_⟩ <;> exact if_pos hlive

/-- A stream is reset. -/
theorem Apart.messageReset (hseparate : h2.Separate) (connection : Connection σ)
    (streamId : StreamId) : Apart h2 streamId connection (connection.messageReset h2 streamId) := by
  have hopened : Spares h2 streamId connection.library
      (if h2.idle connection.library streamId then h2.advance connection.library streamId
        else connection.library) := by
    split_ifs
    · exact hseparate.advance _ _
    · exact fun _ _ ↦ rfl
  have hreset : ∀ opened, Spares h2 streamId opened
      (if h2.live opened streamId then h2.resetStream opened streamId
        else h2.queueReset opened streamId) := by
    intro opened
    split_ifs
    · exact hseparate.resetStream _ _
    · exact hseparate.queueReset _ _
  exact (Apart.library _ fun other hother ↦
    (hreset _ other hother).trans (hopened other hother)).trans (Apart.forgetClosed streamId _)

/-- The gate changes nothing about other streams. -/
theorem Apart.checkHeaders {connection after : Connection σ} {streamId : StreamId}
    {values : Headers} {ends : Bool} {outcome : Except Raised Headers}
    (hcheck : connection.checkHeaders h2 streamId values ends true = (outcome, after)) :
    Apart h2 streamId connection after ∧ after.library = connection.library := by
  rcases checkHeaders_eq hcheck with ⟨raised, rfl, rfl | ⟨-, -, method, rfl⟩⟩ | ⟨rfl, hpasses⟩
  · exact ⟨⟨fun _ _ ↦ rfl, fun _ _ _ ↦ ⟨rfl, rfl, rfl⟩⟩, rfl⟩
  · exact ⟨⟨fun _ _ ↦ rfl, fun other hother _ ↦ ⟨rfl, rfl, Function.update_of_ne hother _ _⟩⟩, rfl⟩
  · have hlibrary := hpasses.library_eq
    refine ⟨⟨fun _ _ ↦ ?_, fun other hother _ ↦ hpasses.agree hother⟩, hlibrary⟩
    rw [hlibrary]

/-- A header block is shown or its stream does not live, its events are of the stream, and nothing
changes about other streams. -/
def Settles (h2 : Library σ) (streamId : StreamId) (shown : List Shown) (connection : Connection σ)
    (result : Except Raised (Connection σ × List Event)) : Prop :=
  ∃ after events, result = .ok (after, events) ∧
    (events.flatMap Event.shown = shown ∨ ¬ h2.live after.library streamId) ∧
    (∀ event ∈ events, event.Concerns streamId) ∧ Apart h2 streamId connection after

/-- A block that is not shown is settled after a step that changes nothing about other streams. -/
theorem Settles.trans {streamId : StreamId} {shown : List Shown} {connection between : Connection σ}
    {result : Except Raised (Connection σ × List Event)}
    (hfirst : Apart h2 streamId connection between)
    (hsecond : Settles h2 streamId shown between result) :
    Settles h2 streamId shown connection result := by
  obtain ⟨after, events, hresult, hshown, hevents, hapart⟩ := hsecond
  exact ⟨after, events, hresult, hshown, hevents, hfirst.trans hapart⟩

/-- A stream that is reset is settled. -/
theorem Settles.reset (hlawful : h2.Lawful) (hseparate : h2.Separate) (connection : Connection σ)
    (streamId : StreamId) (shown : List Shown) :
    Settles h2 streamId shown connection
      (.ok (connection.messageReset h2 streamId, [.reset streamId])) := by
  obtain ⟨library, hreset, -, hdead⟩ := messageReset_eq hlawful connection streamId
  refine ⟨_, _, rfl, Or.inr ?_, ?_, Apart.messageReset hseparate connection streamId⟩
  · rw [hreset]
    exact hdead
  · intro event hevent
    rw [List.mem_singleton.mp hevent]
    rfl

/-- A block that the library receives is settled. -/
theorem Settles.receiveHeaders (hlawful : h2.Lawful) (hseparate : h2.Separate)
    (connection : Connection σ) (streamId : StreamId) (fields : Headers) (ends : Bool)
    {later : List Event} (hlater : ∀ event ∈ later, event = .other)
    (hreturns : (h2.receiveHeaders connection.library streamId fields ends).Returns) :
    Settles h2 streamId (.head true streamId fields ends :: endOf true streamId ends) connection
      (connection.settle later (h2.receiveHeaders connection.library streamId fields ends)) := by
  have hreply := hlawful.receiveHeaders connection.library streamId fields ends
  have hspares := hseparate.receiveHeaders connection.library streamId fields ends
  cases hcall : h2.receiveHeaders connection.library streamId fields ends with
  | mismatch library =>
    rw [hcall] at hreturns
    exact hreturns.elim
  | fatal =>
    rw [hcall] at hreturns
    exact hreturns.elim
  | closed library events =>
    rw [hcall] at hreply hspares
    obtain ⟨-, hdead, -⟩ := hreply
    exact ⟨_, _, rfl, Or.inr hdead, hspares.2, Apart.library _ hspares.1⟩
  | done library events =>
    rw [hcall] at hreply hspares
    obtain ⟨-, -, rfl⟩ := hreply
    refine ⟨_, _, rfl, Or.inl ?_, ?_, Apart.library _ hspares⟩
    · have hquiet : later.flatMap Event.shown = [] := by
        refine List.flatMap_eq_nil_iff.mpr fun event hevent ↦ ?_
        rw [hlater event hevent]
        rfl
      rw [List.cons_append, List.flatMap_cons, List.flatMap_append, hquiet, List.append_nil,
        flatMap_shown_ended]
      rfl
    · intro event hevent
      rcases List.mem_append.mp hevent with hmessage | hpriority
      · rcases List.mem_cons.mp hmessage with rfl | hended
        · rfl
        · cases ends with
          | false => cases hended
          | true =>
            rw [List.mem_singleton.mp hended]
            rfl
      · rw [hlater event hpriority]
        trivial

/-- A decoded block is settled, or it is oversized and ends the connection. -/
theorem receiveBlock_settles (hlawful : h2.Lawful) (hseparate : h2.Separate)
    (haccepts : h2.Accepts) (connection : Connection σ) (frame : HeadersFrame) (values : Headers)
    {later : List Event} (hlater : ∀ event ∈ later, event = .other)
    (hclosed : ¬ h2.live connection.library frame.streamId →
      (h2.receiveHeaders connection.library frame.streamId values frame.endStream).Returns) :
    (Settles h2 frame.streamId (.head true frame.streamId values frame.endStream ::
        endOf true frame.streamId frame.endStream) connection
      (connection.receiveBlock h2 frame values later) ∧
        ¬ connection.Oversized h2 frame values) ∨
      (∃ name, connection.receiveBlock h2 frame values later = .error (.exception name)) ∧
        connection.Oversized h2 frame values := by
  unfold Connection.receiveBlock
  by_cases hlive : h2.live connection.library frame.streamId
  swap
  · rw [if_pos hlive]
    exact Or.inl ⟨Settles.receiveHeaders hlawful hseparate connection frame.streamId values
      frame.endStream nofun (hclosed hlive), fun hover ↦ hlive hover.live⟩
  rw [if_neg (not_not.mpr hlive)]
  by_cases hdrains : ¬ h2.clientSide ∧ connection.localLastStream.any (· < frame.streamId)
  · rw [if_pos hdrains]
    exact Or.inl ⟨Settles.reset hlawful hseparate connection frame.streamId _,
      fun hover ↦ hover.kept hdrains.2⟩
  rw [if_neg hdrains]
  have hdenying := checkHeaders_denying_iff h2 connection frame.streamId values
    frame.endStream
  have hover : connection.Oversized h2 frame values ↔
      ¬ Denying (connection.checkHeaders h2 frame.streamId values frame.endStream true).1 := by
    rw [hdenying, not_not]
    constructor
    · intro hover
      exact ⟨hover.server, hover.first, hover.fields, hover.request, hover.method, hover.authority⟩
    · rintro ⟨hserver, hfirst, hfields, hrequest, hmethod, hauthority⟩
      refine ⟨hserver, hlive, fun hlater ↦ hdrains ⟨?_, hlater⟩, hfirst, hfields, hrequest, hmethod,
        hauthority⟩
      rw [hserver]
      exact Bool.false_ne_true
  rw [hover, not_not]
  obtain ⟨⟨outcome, checked⟩, hcheck⟩ :
      ∃ result, connection.checkHeaders h2 frame.streamId values frame.endStream true = result :=
    ⟨_, rfl⟩
  obtain ⟨hapart, hlibrary⟩ := Apart.checkHeaders hcheck
  rw [hcheck]
  cases outcome with
  | error raised =>
    cases raised with
    | requestDenied reason =>
      refine Or.inl ⟨Settles.trans hapart ?_, Denying.requestDenied reason⟩
      exact Settles.reset hlawful hseparate checked frame.streamId _
    | exception name => exact Or.inr ⟨⟨name, rfl⟩, fun hother ↦ hother name rfl⟩
  | ok fields =>
    refine Or.inl ⟨Settles.trans hapart ?_, Denying.pure fields⟩
    obtain rfl : fields = values := by
      rcases checkHeaders_eq hcheck with ⟨raised, hfailed, -⟩ | ⟨hsame, -⟩
      · cases hfailed
      · exact Except.ok.inj hsame
    exact Settles.receiveHeaders hlawful hseparate checked frame.streamId fields frame.endStream
      hlater (haccepts connection checked frame.streamId fields fields frame.endStream hlive hcheck)

/-- A frame that is admitted is settled, or its block is oversized and ends the connection. -/
theorem receiveHeadersFrame_settles (hlawful : h2.Lawful) (hseparate : h2.Separate)
    (haccepts : h2.Accepts) {connection : Connection σ} {frame : HeadersFrame}
    (hadmits : connection.Admits h2 frame) :
    (Settles h2 frame.streamId ((Frame.headers frame).shows h2 connection.library) connection
      (connection.receiveHeadersFrame h2 frame) ∧ ¬ connection.ReceivesOversized h2 frame) ∨
      (∃ name, connection.receiveHeadersFrame h2 frame = .error (.exception name)) ∧
        connection.ReceivesOversized h2 frame := by
  have hroom : ¬ (¬ h2.known connection.library frame.streamId ∧
      h2.openInbound connection.library ≥ connection.maximumStreams) := by
    rintro ⟨hunknown, hmany⟩
    rcases hadmits.room with hknown | hfew
    · exact hunknown hknown
    · exact absurd hfew (not_lt.mpr hmany)
  have hopens := hadmits.opens
  have hobeys := hlawful.openStream connection.library frame
  have hspares := hseparate.openStream connection.library frame
  unfold Connection.receiveHeadersFrame
  rw [if_neg hroom]
  cases hopen : h2.openStream connection.library frame with
  | mismatch library =>
    rw [hopen] at hopens
    exact hopens.elim
  | fatal =>
    rw [hopen] at hopens
    exact hopens.elim
  | closed library events =>
    rw [hopen] at hobeys hspares
    have hnone : ¬ connection.ReceivesOversized h2 frame := by
      rintro ⟨found, values, hdecoded, -⟩
      unfold Connection.decoded at hdecoded
      rw [hopen] at hdecoded
      cases hdecoded
    exact Or.inl ⟨⟨_, _, rfl, Or.inr hobeys.2.1, hspares.2, Apart.library library hspares.1⟩, hnone⟩
  | done library values =>
    rw [hopen] at hspares
    have hfirst : Apart h2 frame.streamId connection { connection with library } :=
      Apart.library library hspares
    have hshows : (Frame.headers frame).shows h2 connection.library =
        .head true frame.streamId values frame.endStream ::
          endOf true frame.streamId frame.endStream := by
      unfold Frame.shows
      dsimp only
      rw [hopen]
    -- The block of the frame, after its priority.
    have hblock : ∀ (found : Connection σ) (later : List Event),
        (∀ event ∈ later, event = .other) → Apart h2 frame.streamId connection found →
        connection.decoded h2 frame = some (found, values) →
        (Settles h2 frame.streamId ((Frame.headers frame).shows h2 connection.library) connection
          (found.receiveBlock h2 frame values later) ∧ ¬ connection.ReceivesOversized h2 frame) ∨
          (∃ name, found.receiveBlock h2 frame values later = .error (.exception name)) ∧
            connection.ReceivesOversized h2 frame := by
      intro found later hlater hapart hdecoded
      have hover : connection.ReceivesOversized h2 frame ↔ found.Oversized h2 frame values := by
        constructor
        · rintro ⟨other, fields, hother, hover⟩
          obtain ⟨rfl, rfl⟩ := Prod.mk.inj (Option.some.inj (hdecoded.symm.trans hother))
          exact hover
        · exact fun hover ↦ ⟨found, values, hdecoded, hover⟩
      rw [hover, hshows]
      refine (receiveBlock_settles hlawful hseparate haccepts found frame values hlater
        (hadmits.closed found values hdecoded)).imp_left fun hsettles ↦ ?_
      exact ⟨Settles.trans hapart hsettles.1, hsettles.2⟩
    dsimp only
    by_cases hpriority : frame.priority
    · rw [if_pos hpriority]
      have hreturns := hadmits.priority library values hopen hpriority
      have hobeys := hlawful.receivePriority library frame
      have hspares := hseparate.receivePriority library frame
      cases hfound : h2.receivePriority library frame with
      | mismatch library =>
        rw [hfound] at hreturns
        exact hreturns.elim
      | fatal =>
        rw [hfound] at hreturns
        exact hreturns.elim
      | closed next events =>
        rw [hfound] at hobeys hspares
        have hnone : ¬ connection.ReceivesOversized h2 frame := by
          rintro ⟨found, values, hdecoded, -⟩
          unfold Connection.decoded at hdecoded
          rw [hopen] at hdecoded
          dsimp only at hdecoded
          rw [if_pos hpriority, hfound] at hdecoded
          cases hdecoded
        exact Or.inl ⟨⟨_, _, rfl, Or.inr hobeys.2.1, hspares.2,
          hfirst.trans (Apart.library next hspares.1)⟩, hnone⟩
      | done next _ =>
        rw [hfound] at hspares
        refine hblock _ _ (fun event hevent ↦ List.mem_singleton.mp hevent)
          (hfirst.trans (Apart.library next hspares)) ?_
        unfold Connection.decoded
        rw [hopen]
        dsimp only
        rw [if_pos hpriority, hfound]
    · rw [if_neg hpriority]
      refine hblock _ _ nofun hfirst ?_
      unfold Connection.decoded
      rw [hopen]
      dsimp only
      rw [if_neg hpriority]

/-- One frame is received. -/
theorem receiveData_singleton (connection : Connection σ) (frame : Frame) :
    connection.receiveData h2 [frame] = (do
      let (after, events) ← connection.receiveFrame h2 frame
      failIf (Event.settings true ∈ events) (.exception "ProtocolError")
      return (after.forgetClosed h2, events)) := by
  unfold Connection.receiveData
  simp only [Connection.receiveFrames]
  cases connection.receiveFrame h2 frame with
  | error raised => rfl
  | ok result =>
    obtain ⟨after, events⟩ := result
    show (failIf (Event.settings true ∈ events ++ []) _ >>= fun _ ↦
      Except.ok (after.forgetClosed h2, events ++ [])) = _
    rw [List.append_nil]
    rfl

/-- A frame that is settled is isolated where it is received. -/
theorem Settles.isolated {connection : Connection σ} {frame : HeadersFrame}
    (hsettles : Settles h2 frame.streamId ((Frame.headers frame).shows h2 connection.library)
      connection (connection.receiveHeadersFrame h2 frame)) :
    Isolated h2 connection frame (connection.receiveData h2 [.headers frame]) := by
  obtain ⟨after, events, hresult, hshown, hevents, hapart⟩ := hsettles
  have hframe : connection.receiveFrame h2 (.headers frame) = .ok (after, events) := hresult
  have hnone : ¬ Event.settings true ∈ events := fun hmem ↦ hevents _ hmem
  refine ⟨after.forgetClosed h2, events, ?_, hshown, hevents, fun other hother ↦ ?_⟩
  · rw [receiveData_singleton, hframe]
    show (failIf (Event.settings true ∈ events) _ >>= _) = _
    unfold failIf
    rw [if_neg hnone]
    rfl
  · have hall := hapart.trans (Apart.forgetClosed frame.streamId after)
    exact ⟨hall.spares other hother, hall.agree other hother⟩

end Gate

/-- Whatever header block is received on a valid connection, it is isolated, if and only if it is not
the head of a request on the leg of a server with an oversized authority. `authority` raises nothing
but `RequestDenied` except on oversized ports, `canonical_host` on no text, and what they return is
canonical, in range and read as it is. -/
theorem receive_isolated_iff {σ : Type} (h2 : Library σ) (hlawful : h2.Lawful)
    (hseparate : h2.Separate) (haccepts : h2.Accepts) (connection : Connection σ)
    (frame : HeadersFrame) (hadmits : connection.Admits h2 frame) :
    (Isolated h2 connection frame (connection.receiveData h2 [.headers frame]) ↔
      ¬ connection.ReceivesOversized h2 frame) ∧
    (∀ value defaultPort, Denying (authority value defaultPort) ↔ oversizedPort value = false) ∧
    (∀ value, Denying (canonicalHost value)) ∧
    (∀ value host, canonicalHost value = .ok host →
      IsCanonical host ∧ canonicalHost host = .ok host) ∧
    ∀ value defaultPort found, authority value defaultPort = .ok (some found) →
      IsCanonical found.host ∧ canonicalHost found.host = .ok found.host ∧
        1 ≤ found.port ∧ found.port ≤ 65535 ∧
        authority (writtenHost found.host) found.port = .ok (some found) := by
  refine ⟨?_, authority_denying_iff, canonicalHost_denying, fun value host hvalue ↦ ?_,
    fun value defaultPort found hvalue ↦ ?_⟩
  · rcases receiveHeadersFrame_settles hlawful hseparate haccepts hadmits with
      ⟨hsettles, hshort⟩ | ⟨⟨name, hraised⟩, hover⟩
    · exact ⟨fun _ ↦ hshort, fun _ ↦ hsettles.isolated⟩
    · refine ⟨?_, fun hshort ↦ absurd hover hshort⟩
      rintro ⟨after, events, hresult, -⟩
      have hframe : connection.receiveFrame h2 (.headers frame) = .error (.exception name) :=
        hraised
      rw [receiveData_singleton, hframe] at hresult
      cases hresult
  · have hhost := isCanonical_of_canonicalHost hvalue
    exact ⟨hhost, canonicalHost_of_isCanonical hhost⟩
  · obtain ⟨hhost, hlower, hupper⟩ := authority_eq hvalue
    exact ⟨hhost, canonicalHost_of_isCanonical hhost, hlower, hupper,
      authority_writtenHost hhost hlower hupper⟩

/-! ### A server -/

/-- A call about a stream of the server returns. -/
theorem Streams.reply_returns {α : Type} (streams : Streams) (streamId : StreamId) (value : α) :
    (streams.reply streamId value).Returns := by
  unfold Streams.reply
  split_ifs <;> trivial

/-- A call about a stream of the server leaves the others alone. -/
theorem Streams.reply_spares {α : Type} (streams : Streams) (streamId : StreamId) (value : α) :
    (streams.reply streamId value).Spares server streams streamId := by
  unfold Streams.reply
  split_ifs
  · exact fun _ _ ↦ rfl
  · exact ⟨fun _ _ ↦ rfl, nofun⟩

/-- The server treats its streams apart. -/
theorem server_separate : server.Separate where
  openStream streams frame := by
    unfold server
    dsimp only
    split_ifs
    · exact Streams.reply_spares _ _ _
    · intro other hother
      simp [hother]
    · trivial
  receivePriority _ _ := fun _ _ ↦ rfl
  receiveHeaders _ _ _ _ := Streams.reply_spares _ _ _
  advance _ _ := fun _ _ ↦ rfl
  queueReset _ _ := fun _ _ ↦ rfl
  resetStream streams streamId := by
    intro other hother
    simp [server, hother]

/-- The server raises nothing for what passes the gate. -/
theorem server_accepts : server.Accepts :=
  fun _ _ _ _ _ _ _ _ ↦ Streams.reply_returns _ _ _

/-- The fields of a request for a host. -/
def requestFields (method : String) (host : Bytes) : Headers :=
  [(ascii ":method", ascii method), (ascii ":scheme", ascii "https"), (ascii ":path", ascii "/"),
    (ascii ":authority", host)]

/-- The frame of a request for a host on a stream. -/
def requestFrame (streamId : StreamId) (method : String) (host : Bytes) : HeadersFrame where
  streamId
  block := (requestFields method host).flatMap encodeLiteral
  endStream := false
  priority := false

/-- The server admits a frame on a new stream of a client. -/
theorem server_admits {connection : Connection Streams} {frame : HeadersFrame}
    (hroom : connection.library.live.length < connection.maximumStreams)
    (hodd : frame.streamId % 2 = 1) : connection.Admits server frame where
  room := Or.inr hroom
  opens := by
    unfold server
    dsimp only
    rw [if_pos hodd]
    split_ifs
    · exact Streams.reply_returns _ _ _
    · trivial
  priority _ _ _ _ := trivial
  closed _ _ _ _ := Streams.reply_returns _ _ _

/-- An HPACK string is read as it is written. -/
theorem decodeString_encodeLength {bytes rest : Bytes} (hshort : bytes.length < 16511) :
    decodeString (encodeLength bytes.length ++ bytes ++ rest) = some (bytes, rest) := by
  have hsplit : ∀ length, length = bytes.length →
      (bytes ++ rest).splitAt length = (bytes, rest) := by
    rintro length rfl
    rw [List.splitAt_eq, List.take_left, List.drop_left]
  unfold encodeLength
  split_ifs with hsmall
  · have hfirst : (Fin.ofNat 256 bytes.length).val = bytes.length :=
      Nat.mod_eq_of_lt (by omega)
    rw [List.append_assoc]
    show (if (Fin.ofNat 256 bytes.length).val < 127 then
      some ((bytes ++ rest).splitAt (Fin.ofNat 256 bytes.length).val) else _) = _
    rw [hfirst, if_pos hsmall, hsplit _ rfl]
  · have hlow : (Fin.ofNat 256 (128 + (bytes.length - 127) % 128)).val =
        128 + (bytes.length - 127) % 128 := Nat.mod_eq_of_lt (by omega)
    have hhigh : (Fin.ofNat 256 ((bytes.length - 127) / 128)).val =
        (bytes.length - 127) / 128 := Nat.mod_eq_of_lt (by omega)
    have hlong : ∀ (low high : Octet) (after : Bytes), decodeString (127 :: low :: high :: after) =
        some (after.splitAt (127 + (low.val - 128) + high.val * 128)) := fun _ _ _ ↦ rfl
    rw [List.append_assoc, List.cons_append, List.cons_append, List.cons_append, List.nil_append,
      hlong, hlow, hhigh, hsplit _ (by omega)]

/-- The fields of a block are read as they are written. -/
theorem decodeLiterals_encodeLiteral {fields : Headers}
    (hshort : ∀ field ∈ fields, field.1.length < 16511 ∧ field.2.length < 16511) {fuel : ℕ}
    (hfuel : fields.length ≤ fuel) : decodeLiterals fuel (fields.flatMap encodeLiteral) = fields := by
  induction fields generalizing fuel with
  | nil => cases fuel <;> rfl
  | cons field rest ih =>
    obtain ⟨fuel, rfl⟩ : ∃ less, fuel = less + 1 := ⟨fuel - 1, by simp at hfuel; omega⟩
    obtain ⟨⟨hname, hvalue⟩, hrest⟩ := List.forall_mem_cons.mp hshort
    have hblock : (field :: rest).flatMap encodeLiteral = 0 :: (encodeLength field.1.length ++
        field.1 ++ (encodeLength field.2.length ++ field.2 ++ rest.flatMap encodeLiteral)) := by
      simp [List.flatMap_cons, encodeLiteral]
    rw [hblock, decodeLiterals, decodeString_encodeLength hname]
    dsimp only
    rw [decodeString_encodeLength hvalue]
    dsimp only
    rw [ih hrest (Nat.le_of_succ_le_succ hfuel)]

/-- A host with a port of so many digits. -/
def portOf (count : ℕ) : Bytes :=
  ascii "a:" ++ List.replicate count 49

/-- A port of so many digits passes the other gates. -/
theorem messageFields_portOf {count : ℕ} (hpos : 0 < count) (hshort : count ≤ 16000) :
    messageFields (requestFields "GET" (portOf count)) =
      .ok (requestFields "GET" (portOf count)) := by
  have hlength : (portOf count).length = count + 2 := by
    simp [portOf, ascii]
  have hplain : (portOf count).any (fun char ↦ (char.val < 32 && char.val != 9) || char.val == 127) =
      false := by
    simp [portOf, ascii, List.any_replicate]
  have hauthority : HeaderGate.take true ⟨(requestFields "GET" []).take 3, 40, false,
      [":method", ":scheme", ":path"].map ascii⟩ (ascii ":authority", portOf count) =
        .ok ⟨requestFields "GET" (portOf count), 40 + 10 + (portOf count).length + 4, false,
          [":method", ":scheme", ":path", ":authority"].map ascii⟩ := by
    unfold HeaderGate.take
    dsimp only
    have hlimit : ¬ (((requestFields "GET" []).take 3).length ≥ 128 ∨
        40 + (ascii ":authority").length + (portOf count).length + 4 > 65536 ∨
        (ascii ":authority").length > 256 ∨ (portOf count).length > 16384) := by
      have hname : (ascii ":authority").length = 10 := rfl
      have hthree : ((requestFields "GET" []).take 3).length = 3 := rfl
      omega
    have hvalue : ¬ (ascii ":authority" = [] ∨ (portOf count).any (fun char ↦
        (char.val < 32 && char.val != 9) || char.val == 127)) := by
      rw [hplain]
      decide
    have hname : ¬ (true ∧ (lowerBytes (ascii ":authority") ∈ hopByHop ∨
        lowerBytes (ascii ":authority") = ascii "te" ∧
          lowerBytes (portOf count) ≠ ascii "trailers")) := by
      rintro ⟨-, hhop | ⟨hte, -⟩⟩
      · revert hhop
        decide
      · revert hte
        decide
    rw [if_neg hlimit, if_neg hvalue, if_neg (by decide), if_neg (by decide), if_neg (by decide),
      if_neg hname]
    rfl
  have hgate : (requestFields "GET" (portOf count)).foldlM (HeaderGate.take true) {} =
      .ok ⟨requestFields "GET" (portOf count), 40 + 10 + (portOf count).length + 4, false,
          [":method", ":scheme", ":path", ":authority"].map ascii⟩ := by
    have hthree : ((requestFields "GET" []).take 3).foldlM (HeaderGate.take true) {} =
        .ok ⟨(requestFields "GET" []).take 3, 40, false,
          [":method", ":scheme", ":path"].map ascii⟩ := rfl
    show ((requestFields "GET" []).take 3 ++ [(ascii ":authority", portOf count)]).foldlM
      (HeaderGate.take true) {} = _
    rw [List.foldlM_append, hthree, ← hauthority]
    show (HeaderGate.take true _ _ >>= pure) = _
    rw [bind_pure]
  have hstrip : stripBlanks (portOf count) = portOf count := by
    obtain ⟨less, rfl⟩ := Nat.exists_eq_succ_of_ne_zero hpos.ne'
    unfold stripBlanks portOf
    simp [ascii]
  unfold messageFields validateHeaders
  rw [hgate]
  show (failIf ((requestFields "GET" (portOf count)).any fun field ↦
    field.2 ≠ stripBlanks field.2) _ >>= _) = _
  have hnone : ¬ (requestFields "GET" (portOf count)).any fun field ↦
      field.2 ≠ stripBlanks field.2 := by
    intro hany
    obtain ⟨field, hfield, hblank⟩ := List.any_eq_true.mp hany
    have hblank := of_decide_eq_true hblank
    simp only [requestFields, List.mem_cons, List.not_mem_nil, or_false] at hfield
    rcases hfield with rfl | rfl | rfl | rfl
    · exact hblank (by decide)
    · exact hblank (by decide)
    · exact hblank (by decide)
    · exact hblank hstrip.symm
  unfold failIf
  rw [if_neg hnone]
  rfl

/-- A port of more than 4300 digits is oversized. -/
theorem oversizedAuthority_portOf {count : ℕ} (hlong : 4300 < count) :
    OversizedAuthority (requestFields "GET" (portOf count)) := by
  have htext : decodeAscii (portOf count) =
      some (['a'] ++ ':' :: List.replicate count '1') := by
    unfold decodeAscii portOf
    rw [if_pos (by simp [ascii, List.all_replicate])]
    simp [ascii]
  refine ⟨[], _, [], _, rfl, ?_, htext, ?_⟩
  · exact fun _ hmem ↦ absurd hmem List.not_mem_nil
  have hspace : (['a'] ++ ':' :: List.replicate count '1').any isSpace = false := by
    simp [List.any_replicate, isSpace]
  have hreserved : (['a'] ++ ':' :: List.replicate count '1').any
      (· ∈ ['/', '\\', '@', '?', '#']) = false := by
    simp [List.any_replicate]
  have hsplit : splitAuthority (['a'] ++ ':' :: List.replicate count '1') =
      .ok (['a'], ':' :: List.replicate count '1') := by
    unfold splitAuthority
    rw [partitionChar_append (by decide), if_neg (by simp [List.count_replicate])]
    rfl
  unfold oversizedPort
  rw [hspace, hreserved, hsplit]
  show (true && ((List.replicate count '1').all isDigit &&
    decide (4300 < (List.replicate count '1').length))) = true
  simp [List.all_replicate, isDigit, hlong]

/-- A connection with a stream that lives. -/
def oneStream : Connection Streams where
  library := ⟨[1], [1]⟩
  websocket := true
  maximumStreams := 64

/-- A port of more than 4300 digits is received. -/
theorem receivesOversized_portOf {count : ℕ} (hlong : 4300 < count) (hshort : count ≤ 16000) :
    oneStream.ReceivesOversized server (requestFrame 3 "GET" (portOf count)) := by
  have hlength : (portOf count).length = count + 2 := by
    simp [portOf, ascii]
  have hfields : decodeLiterals 128 (requestFrame 3 "GET" (portOf count)).block =
      requestFields "GET" (portOf count) := by
    have hfour : (requestFields "GET" (portOf count)).length = 4 := rfl
    refine decodeLiterals_encodeLiteral ?_ (by omega)
    intro field hfield
    simp only [requestFields, List.mem_cons, List.not_mem_nil, or_false] at hfield
    rcases hfield with rfl | rfl | rfl | rfl
    · decide
    · decide
    · decide
    · have hname : (ascii ":authority").length = 10 := rfl
      dsimp only
      omega
  have hopen : server.openStream oneStream.library (requestFrame 3 "GET" (portOf count)) =
      .done ⟨[3, 1], [3, 1]⟩ (requestFields "GET" (portOf count)) := by
    have hunused : (requestFrame 3 "GET" (portOf count)).streamId ∉ oneStream.library.used := by
      show 3 ∉ [1]
      decide
    have hodd : (requestFrame 3 "GET" (portOf count)).streamId % 2 = 1 := by
      show 3 % 2 = 1
      decide
    unfold server
    dsimp only
    rw [if_neg hunused, if_pos hodd, hfields]
    rfl
  refine ⟨{ oneStream with library := ⟨[3, 1], [3, 1]⟩ }, requestFields "GET" (portOf count), ?_, ?_⟩
  · unfold Connection.decoded
    rw [hopen]
    rfl
  · exact {
      server := rfl
      live := rfl
      kept := Bool.false_ne_true
      first := rfl
      fields := messageFields_portOf (by omega) hshort
      request := rfl
      method := rfl
      authority := oversizedAuthority_portOf hlong }

/-- A port of more than 4300 digits ends the connection, on which another stream lives. -/
theorem portOf_ends_connection {count : ℕ} (hlong : 4300 < count) (hshort : count ≤ 16000) :
    let frame := requestFrame 3 "GET" (portOf count)
    server.live oneStream.library 1 ∧ oneStream.Admits server frame ∧
      ¬ Isolated server oneStream frame (oneStream.receiveData server [.headers frame]) ∧
      (step server { connection := oneStream, owned := fun _ ↦ true }
        (.receives [.headers frame])).1.closed := by
  intro frame
  have hodd : frame.streamId % 2 = 1 := by
    show 3 % 2 = 1
    decide
  have hadmits : oneStream.Admits server frame := server_admits (by decide) hodd
  obtain ⟨name, hraised⟩ : ∃ name, oneStream.receiveData server [.headers frame] =
      .error (.exception name) := by
    rcases receiveHeadersFrame_settles server_lawful server_separate server_accepts hadmits with
      ⟨-, hfew⟩ | ⟨⟨name, hraised⟩, -⟩
    · exact absurd (receivesOversized_portOf hlong hshort) hfew
    · refine ⟨name, ?_⟩
      have hframe : oneStream.receiveFrame server (.headers frame) = .error (.exception name) :=
        hraised
      rw [receiveData_singleton, hframe]
      rfl
  refine ⟨rfl, hadmits, ?_, ?_⟩
  · rintro ⟨after, events, hresult, -⟩
    rw [hraised] at hresult
    cases hresult
  · unfold step
    rw [if_neg Bool.false_ne_true]
    dsimp only
    rw [hraised]

/-- A port of 4301 digits ends the connection. -/
theorem oversized_port_ends_connection :
    let frame := requestFrame 3 "GET" (portOf 4301)
    server.live oneStream.library 1 ∧ oneStream.Admits server frame ∧
      ¬ Isolated server oneStream frame (oneStream.receiveData server [.headers frame]) ∧
      (step server { connection := oneStream, owned := fun _ ↦ true }
        (.receives [.headers frame])).1.closed :=
  portOf_ends_connection (by decide) (by decide)

/-- A request with a malformed method is isolated. -/
theorem receive_isolated_iff_method :
    let frame := requestFrame 3 "G T" (ascii "origin.example")
    Isolated server oneStream frame (oneStream.receiveData server [.headers frame]) := by
  intro frame
  refine (receive_isolated_iff server server_lawful server_separate server_accepts oneStream frame
    (server_admits (by decide) (by decide))).1.mpr ?_
  rintro ⟨found, values, hdecoded, hover⟩
  have hvalues : (oneStream.decoded server frame).any
      (fun pair ↦ describesRequest (pseudoOf pair.2)) = false := by decide +kernel
  rw [hdecoded] at hvalues
  exact absurd hover.request (Bool.eq_false_iff.mp hvalues)

end Ads.SandboxEgress.Http2
