import Mathlib.Data.List.Forall2
import Ads.SandboxEgress.Destinations
import Ads.SandboxEgress.Framing

/-!
# Authorization of requests

The model of `request_authorization.py`: the identity a request head claims through its target,
`:authority` and `Host`, and the decision `authorize` of one request on a connection. The helper
that normalizes paths and the membership lookup are awaited: they are parameters that move a world
of their own, and the policy store is a part of that world, so that snapshots are installed while
they run.

`authorize_safe` collects what an authorized request has passed, in terms of the raw header values
and the policy that is in force when the decision is made.
-/

set_option autoImplicit false
set_option relaxedAutoImplicit false

namespace Ads.SandboxEgress

open Dns Foundation.StateExcept Python

/-- `ConnectionTarget`: the original destination of a connection and its TLS name. -/
structure ConnectionTarget where
  /-- The original address. -/
  address : IpAddress
  /-- The original port. -/
  port : ℕ
  /-- The connection uses TLS. -/
  secure : Bool
  /-- The TLS server name. -/
  tlsName : Option Text
  /-- The port is one. -/
  port_bounds : 1 ≤ port ∧ port ≤ 65535
  /-- A TLS name is canonical, and only given with TLS. -/
  tlsName_canonical : ∀ name ∈ tlsName, secure = true ∧ canonicalHost name = .ok name

/-- `ConnectionTarget.protocol`. -/
def ConnectionTarget.protocol (target : ConnectionTarget) : Protocol :=
  if target.secure then .https else .http

/-- The text of a protocol. -/
def Protocol.text : Protocol → Bytes
  | .http => ascii "http"
  | .https => ascii "https"

/-- `ConnectionTarget.default_port`. -/
def ConnectionTarget.defaultPort (target : ConnectionTarget) : ℕ :=
  if target.secure then 443 else 80

/-- `_authority`. -/
def authorityOf (value : Bytes) (target : ConnectionTarget) : Except Raised (Option Authority) :=
  match decodeAscii value with
  | none => throw (.requestDenied "non_ascii_authority")
  | some text => authority text target.defaultPort

/-- `RequestHead`. -/
structure RequestHead where
  /-- The method. -/
  method : Bytes
  /-- The request target. -/
  target : Bytes
  /-- The headers. -/
  headers : Headers
  /-- Every authority the request gives. -/
  authorities : List (Option Authority)
  /-- HTTP/1.1 or HTTP/2. -/
  subProtocol : SubProtocol
  /-- The upgrade the request asks for. -/
  upgrade : Option UpgradeTarget := none

/-- `h11.Request`. -/
structure Http1Request where
  /-- The version of the protocol. -/
  httpVersion : Bytes
  /-- The method. -/
  method : Bytes
  /-- The request target. -/
  target : Bytes
  /-- The headers. -/
  headers : Headers

/-- The target has bytes that no target may have. -/
def hasControlByte (target : Bytes) : Bool :=
  target.any fun char ↦ char.val ≤ 32 || char.val == 127

/-- `_ABSOLUTE.fullmatch`: the scheme and the authority of an absolute target. -/
def absoluteTarget (target : Bytes) : Option (Protocol × Bytes) :=
  let parts := [(Protocol.http, ascii "http://"), (.https, ascii "https://")].filterMap
    fun (protocol, start) ↦ if start.isPrefixOf target then some (protocol, target.drop start.length)
      else none
  match parts with
  | [(protocol, rest)] =>
    let authority := rest.takeWhile fun char ↦ char.val ∉ [47, 63, 35]
    if 35 ∈ rest.drop authority.length then none else some (protocol, authority)
  | _ => none

/-- The authorities of an HTTP/1 target, after the checks of its form. -/
def targetAuthorities (request : Http1Request) (connection : ConnectionTarget) :
    Except Raised (List (Option Authority)) :=
  if request.target = ascii "*" ∧ request.method = ascii "OPTIONS" then return []
  else if request.target.head? ≠ some 47 then
    match absoluteTarget request.target with
    | none => throw (.requestDenied "unsupported_request_target")
    | some (protocol, value) =>
      if protocol ≠ connection.protocol then throw (.requestDenied "unsupported_request_target")
      else do
        let found ← authorityOf value connection
        return [found]
  else if 35 ∈ request.target then throw (.requestDenied "fragment_in_request_target")
  else return []

/-- The upgrade of an HTTP/1 request. -/
def http1Upgrade (headers : Headers) (connection : ConnectionTarget) :
    Except Raised (Option UpgradeTarget) :=
  let tokens := connectionItems headers
  let upgrades := (valuesOf "upgrade" headers).map lowerBytes
  let settings := valuesOf "http2-settings" headers
  if upgrades ≠ [] ∨ ascii "upgrade" ∈ tokens then
    if upgrades.length ≠ 1 ∨ ascii "upgrade" ∉ tokens then throw (.requestDenied "invalid_upgrade")
    else if upgrades = [ascii "websocket"] ∧ settings = [] then return some .websocket
    else if upgrades = [ascii "h2c"] ∧ settings.length = 1 ∧ ascii "http2-settings" ∈ tokens ∧
        ¬ connection.secure then
      return some .http2
    else throw (.requestDenied "unsupported_upgrade")
  else if settings ≠ [] then throw (.requestDenied "unexpected_upgrade_settings")
  else return none

/-- `RequestHead.http1`. -/
def RequestHead.http1 (request : Http1Request) (connection : ConnectionTarget) :
    Except Raised RequestHead := do
  let headers ← validateHeaders request.headers
  match valuesOf "host" headers with
  | [host] =>
    failIf (request.httpVersion ≠ ascii "1.1" ∨ ¬ isToken request.method)
      (.requestDenied "http1_request_profile")
    let first ← authorityOf host connection
    failIf (request.target = [] ∨ request.target.length > 8192 ∨ hasControlByte request.target)
      (.requestDenied "invalid_request_target")
    failIf (request.method = ascii "CONNECT") (.requestDenied "generic_connect")
    let others ← targetAuthorities request connection
    let _ ← forwardingHeaders headers
    let upgrade ← http1Upgrade headers connection
    return {
      method := request.method
      target := request.target
      headers
      authorities := first :: others
      subProtocol := .http11
      upgrade }
  | _ => throw (.requestDenied "http1_request_profile")

/-- The pseudo-headers identify a request on the connection. -/
def identifiesRequest (headers : Headers) (connection : ConnectionTarget) : Bool :=
  let pseudo := headers.filter fun header ↦ isPseudo header.1
  let method := pseudo.lookup (ascii ":method")
  let path := (pseudo.lookup (ascii ":path")).getD []
  (([":method", ":scheme", ":path"].map ascii).all fun name ↦ (pseudo.lookup name).isSome) ∧
    (pseudo.all fun header ↦ header.1 ∈
      ([":method", ":scheme", ":path", ":authority", ":protocol"].map ascii)) ∧
    isToken (method.getD []) ∧
    pseudo.lookup (ascii ":scheme") = some connection.protocol.text ∧
    (path.head? = some 47 ∨ path = ascii "*" ∧ method = some (ascii "OPTIONS")) ∧
    path.length ≤ 8192 ∧ 35 ∉ path ∧ ¬ hasControlByte path ∧
    (valuesOf "host" headers).length ≤ 1

/-- The upgrade of an HTTP/2 request. -/
def http2Upgrade (headers : Headers) : Except Raised (Option UpgradeTarget) :=
  if headers.lookup (ascii ":method") = some (ascii "CONNECT") then
    if headers.lookup (ascii ":protocol") ≠ some (ascii "websocket") ∨
        (headers.lookup (ascii ":authority")).getD [] = [] then
      throw (.requestDenied "generic_connect")
    else return some .websocket
  else if (headers.lookup (ascii ":protocol")).isSome then
    throw (.requestDenied "unexpected_protocol")
  else return none

/-- The header gives an authority of an HTTP/2 request. -/
def givesAuthority (header : Bytes × Bytes) : Bool :=
  header.1 == ascii ":authority" || header.1 == ascii "host"

/-- `RequestHead.http2`. -/
def RequestHead.http2 (values : Headers) (connection : ConnectionTarget) :
    Except Raised RequestHead := do
  let headers ← validateHeaders values true
  failIf (¬ identifiesRequest headers connection) (.requestDenied "http2_request_identity")
  let upgrade ← http2Upgrade headers
  let authorities ← (headers.filter givesAuthority).mapM fun header ↦
    authorityOf header.2 connection
  return {
    method := (headers.lookup (ascii ":method")).getD []
    target := (headers.lookup (ascii ":path")).getD []
    headers
    authorities
    subProtocol := .http2
    upgrade }

/-- `RequestHead.normalization_headers`. -/
def RequestHead.normalizationHeaders (head : RequestHead) : Headers :=
  if head.subProtocol = .http11 then head.headers
  else
    let regular := head.headers.filter fun header ↦ !isPseudo header.1
    if valuesOf "host" regular ≠ [] then regular
    else (ascii "host", (head.headers.lookup (ascii ":authority")).getD []) :: regular

/-- `RequestHead.normalization_method`. -/
def RequestHead.normalizationMethod (head : RequestHead) : Bytes :=
  if head.subProtocol = .http2 ∧ head.upgrade = some .websocket ∧ head.method = ascii "CONNECT" then
    ascii "GET"
  else head.method

/-- `AuthorizedRequest`. -/
structure AuthorizedRequest where
  /-- The head. -/
  head : RequestHead
  /-- The revision of the policy that allowed it. -/
  policyRevision : ℕ
  /-- The normalized path. -/
  normalizedPath : Option Bytes

/-- `PolicyStore`, as far as a request reads it. -/
structure PolicyStore where
  /-- The snapshot in force. -/
  snapshot : Option ProjectEgressSnapshot
  /-- The store still accepts requests. -/
  accepting : Bool

/-- What `RequestAuthorizer` is built from. -/
structure Services (World : Type) where
  /-- The boundary of the membership. -/
  boundary : DestinationBoundary
  /-- `Normalizer.normalize`. -/
  normalize : Bytes → Bytes → Headers → StateT World (Except Raised) Bytes
  /-- `ConnectionMembership.require`. -/
  require : Text → IpAddress → ℕ → ℕ → Protocol → StateT World (Except Raised) Unit
  /-- The policy store in a world. -/
  policies : World → PolicyStore

section Authorize

variable {World : Type} (services : Services World) (target : ConnectionTarget)

/-- The name the membership must be asked about, after the checks of an address literal and of a
request without a name. -/
def membershipName (names : List Text) (authorityPort : ℕ) : Except Raised (Option Text) :=
  match names with
  | [] =>
    if authorityPort ≠ target.port then throw (.requestDenied "unnamed_destination_port")
    else return none
  | name :: _ =>
    match ipAddress name with
    | none => return some name
    | some literal =>
      if literal ≠ target.address ∨ authorityPort ≠ target.port then
        throw (.requestDenied "literal_destination_mismatch")
      else return none

/-- The normalized path of the head, or none for the pathless target. -/
def normalizedPath (head : RequestHead) : StateT World (Except Raised) (Option Bytes) :=
  if head.target = ascii "*" ∧ head.method = ascii "OPTIONS" then return none
  else do
    let path ← services.normalize head.normalizationMethod head.target head.normalizationHeaders
    return some path

/-- The policy request of a head. -/
def policyRequest (head : RequestHead) (names : List Text) (method : Text) (path : Option Bytes) :
    PolicyRequest :=
  { names, port := target.port, protocol := target.protocol, subProtocol := head.subProtocol, method,
    normalizedPath := path, upgrade := head.upgrade }

/-- The decision of the request under a policy store. -/
def policyDecision (policies : PolicyStore) (head : RequestHead) (names : List Text)
    (path : Option Bytes) : Except Raised AuthorizedRequest := do
  failIf (¬ policies.accepting) (.requestDenied "request_policy")
  match decodeAscii head.method with
  | none => throw (.exception "UnicodeDecodeError")
  | some method =>
    let allowed ← permitted policies.snapshot (policyRequest target head names method path)
    match allowed, policies.snapshot with
    | true, some snapshot => return ⟨head, snapshot.revision, path⟩
    | _, _ => throw (.requestDenied "request_policy")

/-- The end of `authorize`: the decision under the policy in force. -/
def decideRequest (head : RequestHead) (names : List Text) (path : Option Bytes) :
    StateT World (Except Raised) AuthorizedRequest := do
  let world ← get
  liftM (policyDecision target (services.policies world) head names path)

/-- `authorize`. -/
def authorize (head : RequestHead) : StateT World (Except Raised) AuthorizedRequest := do
  let _ ← liftM (services.boundary.requirePublic target.address.text)
  let names ← liftM (consistentIdentity head.authorities target.tlsName)
  let selected := head.authorities.headD none
  let port := (selected.map Authority.port).getD target.defaultPort
  let member ← liftM (membershipName target names port)
  let path ← normalizedPath services head
  match member with
  | none => decideRequest services target head names path
  | some name =>
    services.require name target.address target.port port target.protocol
    decideRequest services target head names path

end Authorize

/-! ### The authorities of a head -/

/-- The head is built from a request whose raw values of `:authority`, `Host` and the authority of an
absolute target are the listed ones. Names of raw headers are compared without case. -/
inductive IsHeadOf (target : ConnectionTarget) (head : RequestHead) : List Bytes → Prop
  /-- An HTTP/1 request. -/
  | http1 (request : Http1Request) : RequestHead.http1 request target = .ok head →
      IsHeadOf target head
        ((request.headers.filter fun header ↦ lowerBytes header.1 == ascii "host").map Prod.snd ++
          ((absoluteTarget request.target).map Prod.snd).toList)
  /-- An HTTP/2 header block. -/
  | http2 (values : Headers) : RequestHead.http2 values target = .ok head →
      IsHeadOf target head ((values.filter fun header ↦
        lowerBytes header.1 == ascii ":authority" || lowerBytes header.1 == ascii "host").map Prod.snd)

/-- What a list of computations returns item by item. -/
theorem forall₂_of_mapM {ε α β : Type} {action : α → Except ε β} {items : List α} {results : List β}
    (hrun : items.mapM action = .ok results) :
    List.Forall₂ (fun item result ↦ action item = .ok result) items results := by
  induction items generalizing results with
  | nil =>
    obtain rfl : [] = results := Except.ok.inj hrun
    exact .nil
  | cons item rest ih =>
    rw [List.mapM_cons] at hrun
    obtain ⟨result, hitem, hrun⟩ := except_bind_eq_ok.mp hrun
    obtain ⟨others, hrest, hrun⟩ := except_bind_eq_ok.mp hrun
    obtain rfl : result :: others = results := Except.ok.inj hrun
    exact .cons hitem (ih hrest)

section Heads

variable {target : ConnectionTarget} {head : RequestHead} {values : List Bytes}

/-- A plain target has no authority. -/
theorem absoluteTarget_eq_none {bytes : Bytes} (hplain : bytes = ascii "*" ∨ bytes.head? = some 47) :
    absoluteTarget bytes = none := by
  rcases hplain with rfl | hhead
  · decide
  · obtain ⟨rest, rfl⟩ := List.head?_eq_some_iff.mp hhead
    rfl

/-- The authorities of a target are those of its absolute form. -/
theorem forall₂_targetAuthorities {request : Http1Request} {found : List (Option Authority)}
    (hrun : targetAuthorities request target = .ok found) :
    List.Forall₂ (fun value item ↦ authorityOf value target = .ok item)
      ((absoluteTarget request.target).map Prod.snd).toList found := by
  unfold targetAuthorities at hrun
  split_ifs at hrun with hstar hslash hfragment
  · rw [absoluteTarget_eq_none (Or.inl hstar.1)]
    obtain rfl : [] = found := Except.ok.inj hrun
    exact .nil
  · cases habsolute : absoluteTarget request.target with
    | none =>
      rw [habsolute] at hrun
      cases hrun
    | some pair =>
      obtain ⟨protocol, value⟩ := pair
      rw [habsolute] at hrun
      dsimp only at hrun
      split_ifs at hrun with hprotocol
      obtain ⟨item, hvalue, hrun⟩ := except_bind_eq_ok.mp hrun
      obtain rfl : [item] = found := Except.ok.inj hrun
      exact .cons hvalue .nil
  · rw [absoluteTarget_eq_none (Or.inr (not_not.mp hslash))]
    obtain rfl : [] = found := Except.ok.inj hrun
    exact .nil

/-- The values of a name in validated headers are those of the raw headers. -/
theorem map_filter_of_validateHeaders {headers result : Headers} {h2 : Bool}
    (hvalid : validateHeaders headers h2 = .ok result) (holds : Bytes → Bool) :
    (result.filter fun header ↦ holds header.1).map Prod.snd =
      (headers.filter fun header ↦ holds (lowerBytes header.1)).map Prod.snd := by
  rw [validateHeaders_eq hvalid, List.filter_map, List.map_map]
  rfl

/-- The authorities of a head are those of the raw values, in order. -/
theorem forall₂_authorities (hhead : IsHeadOf target head values) :
    List.Forall₂ (fun value item ↦ authorityOf value target = .ok item) values head.authorities := by
  cases hhead with
  | http1 request hrun =>
    unfold RequestHead.http1 at hrun
    obtain ⟨headers, hvalid, hrun⟩ := except_bind_eq_ok.mp hrun
    have hhosts := map_filter_of_validateHeaders hvalid (· == ascii "host")
    split at hrun
    · rename_i host hhost
      obtain ⟨_, -, hrun⟩ := except_bind_eq_ok.mp hrun
      obtain ⟨first, hfirst, hrun⟩ := except_bind_eq_ok.mp hrun
      obtain ⟨_, -, hrun⟩ := except_bind_eq_ok.mp hrun
      obtain ⟨_, -, hrun⟩ := except_bind_eq_ok.mp hrun
      obtain ⟨others, hothers, hrun⟩ := except_bind_eq_ok.mp hrun
      obtain ⟨_, -, hrun⟩ := except_bind_eq_ok.mp hrun
      obtain ⟨upgrade, -, hrun⟩ := except_bind_eq_ok.mp hrun
      obtain rfl := Except.ok.inj hrun
      rw [← hhosts]
      change List.Forall₂ _ (valuesOf "host" headers ++ _) _
      rw [hhost]
      exact .cons hfirst (forall₂_targetAuthorities hothers)
    · cases hrun
  | http2 raw hrun =>
    unfold RequestHead.http2 at hrun
    obtain ⟨headers, hvalid, hrun⟩ := except_bind_eq_ok.mp hrun
    obtain ⟨_, -, hrun⟩ := except_bind_eq_ok.mp hrun
    obtain ⟨upgrade, -, hrun⟩ := except_bind_eq_ok.mp hrun
    obtain ⟨authorities, hauthorities, hrun⟩ := except_bind_eq_ok.mp hrun
    obtain rfl := Except.ok.inj hrun
    rw [← map_filter_of_validateHeaders hvalid fun name ↦
      name == ascii ":authority" || name == ascii "host"]
    exact List.forall₂_map_left_iff.mpr (forall₂_of_mapM hauthorities)

end Heads

/-! ### What an authorized request has passed -/

/-- The name a request is identified by: the TLS name, or the host of its authorities. -/
def requestName (target : ConnectionTarget) (selected : Option Authority) : Option Text :=
  target.tlsName.or (selected.map Authority.host)

/-- The port a request names: that of its authorities, or the default of the scheme. -/
def requestPort (target : ConnectionTarget) (selected : Option Authority) : ℕ :=
  (selected.map Authority.port).getD target.defaultPort

/-- What `authorize` has established when it returns, about the raw authority values of the request
and the world it returns in. -/
structure IsAuthorized {World : Type} (services : Services World) (target : ConnectionTarget)
    (head : RequestHead) (values : List Bytes) (selected : Option Authority)
    (authorized : AuthorizedRequest) (final : World) : Prop where
  /-- The original address may be sent to. -/
  isPublic : ∃ address, services.boundary.requirePublic target.address.text = .ok address
  /-- Every value denotes the same authority, or every value is empty. -/
  agree : ∀ value ∈ values, authorityOf value target = .ok selected
  /-- Without an authority all values are empty. -/
  empty : selected = none → ∀ value ∈ values, value = []
  /-- An authority comes from some value. -/
  absent : values = [] → selected = none
  /-- The host is the TLS name. -/
  sameName : ∀ identity ∈ selected, ∀ name ∈ target.tlsName, identity.host = name
  /-- An address literal is the original destination. -/
  literal : ∀ name ∈ requestName target selected, ∀ address, ipAddress name = some address →
    address = target.address ∧ requestPort target selected = target.port
  /-- The membership of a DNS name was confirmed in the world the request is decided in. -/
  member : ∀ name ∈ requestName target selected, ipAddress name = none → ∃ before,
    services.require name target.address target.port (requestPort target selected) target.protocol
      before = .ok ((), final)
  /-- A request without a name goes to the default port. -/
  unnamed : requestName target selected = none → target.port = target.defaultPort
  /-- The policy in force at the decision permits the request. -/
  permits : (services.policies final).accepting = true ∧ ∃ snapshot method,
    (services.policies final).snapshot = some snapshot ∧ decodeAscii head.method = some method ∧
      permitted (some snapshot) (policyRequest target head (requestName target selected).toList method
        authorized.normalizedPath) = .ok true ∧
          authorized.policyRevision = snapshot.revision ∧ authorized.head = head

section Safe

variable {World : Type} {services : Services World} {target : ConnectionTarget}
  {head : RequestHead} {values : List Bytes}

/-- Consistent authorities are all the same, its host is the TLS name, and the names are the one
name of the request. -/
theorem consistentIdentity_eq_ok {authorities : List (Option Authority)} {names : List Text}
    (hrun : consistentIdentity authorities target.tlsName = .ok names) :
    (∀ item ∈ authorities, item = authorities.headD none) ∧
      (∀ identity ∈ authorities.headD none, ∀ name ∈ target.tlsName, identity.host = name) ∧
        names = (requestName target (authorities.headD none)).toList := by
  unfold consistentIdentity at hrun
  obtain ⟨_, hconflict, hrun⟩ := except_bind_eq_ok.mp hrun
  have hagree : ∀ item ∈ authorities, item = authorities.headD none := by
    simpa using failIf_eq_ok.mp hconflict
  obtain ⟨tls, htls, hrun⟩ := except_bind_eq_ok.mp hrun
  obtain ⟨_, hmismatch, hrun⟩ := except_bind_eq_ok.mp hrun
  have hmatch := failIf_eq_ok.mp hmismatch
  obtain rfl := Except.ok.inj hrun
  have hcanonical : tls = target.tlsName := by
    cases hname : target.tlsName with
    | none =>
      rw [hname] at htls
      exact (Except.ok.inj htls).symm
    | some name =>
      rw [hname] at htls
      have hsame := (target.tlsName_canonical name hname).2
      change (canonicalHost name >>= fun canonical ↦ pure (some canonical)) = _ at htls
      rw [hsame] at htls
      exact (Except.ok.inj htls).symm
  subst hcanonical
  refine ⟨hagree, fun identity hidentity name hname ↦ ?_, ?_⟩
  · rw [Option.mem_def.mp hidentity, Option.mem_def.mp hname] at hmatch
    simpa using (not_not.mp fun hne ↦ hmatch ⟨rfl, rfl, hne⟩).symm
  · unfold requestName
    cases hname : target.tlsName with
    | none => cases authorities.headD none <;> rfl
    | some name =>
      cases hidentity : authorities.headD none with
      | none => rfl
      | some identity =>
        rw [hidentity, hname] at hmatch
        have hsame : name = identity.host := by
          simpa using not_not.mp fun hne ↦ hmatch ⟨rfl, rfl, hne⟩
        simp [hsame, List.eraseDups_cons]

/-- An authority is missing only from an empty value. -/
theorem authorityOf_eq_none {value : Bytes} (hrun : authorityOf value target = .ok none) :
    value = [] := by
  unfold authorityOf at hrun
  split at hrun
  · cases hrun
  · rename_i text htext
    unfold decodeAscii at htext
    split_ifs at htext
    obtain rfl := Option.some.inj htext
    unfold authority at hrun
    split_ifs at hrun with hempty
    · exact List.map_eq_nil_iff.mp hempty
    · obtain ⟨split, -, hrun⟩ := except_bind_eq_ok.mp hrun
      obtain ⟨port, -, hrun⟩ := except_bind_eq_ok.mp hrun
      obtain ⟨_, -, hrun⟩ := except_bind_eq_ok.mp hrun
      obtain ⟨host, -, hrun⟩ := except_bind_eq_ok.mp hrun
      cases hrun

/-- The decision is made under the policy in force, which it leaves. -/
theorem decideRequest_eq_ok {names : List Text} {path : Option Bytes}
    {authorized : AuthorizedRequest} {world final : World}
    (hrun : decideRequest services target head names path world = .ok (authorized, final)) :
    world = final ∧ (services.policies final).accepting = true ∧ ∃ snapshot method,
      (services.policies final).snapshot = some snapshot ∧ decodeAscii head.method = some method ∧
        permitted (some snapshot) (policyRequest target head names method authorized.normalizedPath) =
          .ok true ∧ authorized.policyRevision = snapshot.revision ∧ authorized.head = head := by
  unfold decideRequest at hrun
  obtain ⟨_, _, hget, hrun⟩ := bind_eq_ok.mp hrun
  obtain ⟨rfl, rfl⟩ := get_eq_ok.mp hget
  obtain ⟨hdecision, rfl⟩ := lift_eq_ok.mp hrun
  unfold policyDecision at hdecision
  obtain ⟨_, haccepting, hdecision⟩ := except_bind_eq_ok.mp hdecision
  cases hmethod : decodeAscii head.method with
  | none =>
    rw [hmethod] at hdecision
    cases hdecision
  | some method =>
    rw [hmethod] at hdecision
    obtain ⟨allowed, hpermitted, hdecision⟩ := except_bind_eq_ok.mp hdecision
    split at hdecision
    · rename_i snapshot hsnapshot
      obtain rfl := Except.ok.inj hdecision
      rw [hsnapshot] at hpermitted
      exact ⟨rfl, not_not.mp (failIf_eq_ok.mp haccepting), snapshot, method, hsnapshot, rfl, hpermitted,
        rfl, rfl⟩
    · cases hdecision

/-- A literal is the original destination, a DNS name is asked about, and a request without a name
goes to the port it names. -/
theorem membershipName_eq_ok {name : Option Text} {port : ℕ} {member : Option Text}
    (hrun : membershipName target name.toList port = .ok member) :
    (∀ found ∈ name, ∀ address, ipAddress found = some address →
      address = target.address ∧ port = target.port) ∧
      (∀ found ∈ name, ipAddress found = none → member = some found) ∧
        (name = none → port = target.port) := by
  cases name with
  | none =>
    unfold membershipName at hrun
    dsimp only [Option.toList_none] at hrun
    split_ifs at hrun with hport
    exact ⟨nofun, nofun, fun _ ↦ not_not.mp hport⟩
  | some found =>
    unfold membershipName at hrun
    dsimp only [Option.toList_some] at hrun
    refine ⟨fun other hother address haddress ↦ ?_, fun other hother hname ↦ ?_, nofun⟩
    · obtain rfl := Option.some.inj hother
      rw [haddress] at hrun
      dsimp only at hrun
      split_ifs at hrun with hliteral
      simpa using hliteral
    · obtain rfl := Option.some.inj hother
      rw [hname] at hrun
      exact (Except.ok.inj hrun).symm

/-- Every value of a head denotes one of its authorities. -/
theorem exists_authority_of_mem {value : Bytes} {authorities : List (Option Authority)}
    (hvalues : List.Forall₂ (fun value item ↦ authorityOf value target = .ok item) values authorities)
    (hvalue : value ∈ values) : ∃ item ∈ authorities, authorityOf value target = .ok item := by
  induction hvalues with
  | nil => cases hvalue
  | cons hfirst _ ih =>
    rcases List.mem_cons.mp hvalue with rfl | hrest
    · exact ⟨_, List.mem_cons_self, hfirst⟩
    · obtain ⟨item, hitem, hsame⟩ := ih hrest
      exact ⟨item, List.mem_cons_of_mem _ hitem, hsame⟩

/-- A request that `authorize` returns has passed every check. -/
theorem authorize_safe {authorized : AuthorizedRequest} {world final : World}
    (hhead : IsHeadOf target head values)
    (hrun : authorize services target head world = .ok (authorized, final)) :
    ∃ selected, IsAuthorized services target head values selected authorized final := by
  have hvalues := forall₂_authorities hhead
  unfold authorize at hrun
  obtain ⟨address, _, hrequire, hrun⟩ := bind_eq_ok.mp hrun
  obtain ⟨hpublic, rfl⟩ := lift_eq_ok.mp hrequire
  obtain ⟨names, _, hconsistent, hrun⟩ := bind_eq_ok.mp hrun
  obtain ⟨hidentity, rfl⟩ := lift_eq_ok.mp hconsistent
  obtain ⟨hagree, hsame, rfl⟩ := consistentIdentity_eq_ok hidentity
  obtain ⟨member, _, hasked, hrun⟩ := bind_eq_ok.mp hrun
  obtain ⟨hmember, rfl⟩ := lift_eq_ok.mp hasked
  obtain ⟨path, between, -, hrun⟩ := bind_eq_ok.mp hrun
  obtain ⟨hliteral, hdns, hunnamed⟩ := membershipName_eq_ok hmember
  have hagreed : ∀ value ∈ values, authorityOf value target = .ok (head.authorities.headD none) := by
    intro value hvalue
    obtain ⟨item, hitem, hsame⟩ := exists_authority_of_mem hvalues hvalue
    exact hagree item hitem ▸ hsame
  have hdecided : ∃ selected, decideRequest services target head
      (requestName target (head.authorities.headD none)).toList path selected =
        .ok (authorized, final) ∧
      ∀ name, member = some name → ∃ before, services.require name target.address target.port
        (requestPort target (head.authorities.headD none)) target.protocol before =
          .ok ((), selected) := by
    cases member with
    | none => exact ⟨between, hrun, nofun⟩
    | some name =>
      obtain ⟨_, decided, hrequired, hrun⟩ := bind_eq_ok.mp hrun
      refine ⟨decided, hrun, fun other hother ↦ ⟨between, ?_⟩⟩
      exact Option.some.inj hother ▸ hrequired
  obtain ⟨decided, hdecision, hrequired⟩ := hdecided
  obtain ⟨rfl, hpermits⟩ := decideRequest_eq_ok hdecision
  exact ⟨head.authorities.headD none, {
    isPublic := ⟨address, hpublic⟩
    agree := hagreed
    empty := fun hnone value hvalue ↦ authorityOf_eq_none (hnone ▸ hagreed value hvalue)
    absent := fun hnil ↦ by
      subst hnil
      rw [List.forall₂_nil_left_iff.mp hvalues]
      rfl
    sameName := hsame
    literal := hliteral
    member := fun name hname haddress ↦ hrequired name (hdns name hname haddress)
    unnamed := fun hnone ↦ by
      have hselected : head.authorities.headD none = none := by
        simpa [requestName] using (Option.or_eq_none_iff.mp hnone).2
      have hport := hunnamed hnone
      rw [hselected] at hport
      exact hport.symm
    permits := hpermits }⟩

end Safe

namespace Example

/-- A plain connection to a public address. -/
def connection : ConnectionTarget where
  address := .v4 0x01010101
  port := 80
  secure := false
  tlsName := none
  port_bounds := by decide
  tlsName_canonical := nofun

/-- A request for a DNS name. -/
def request : Http1Request where
  httpVersion := ascii "1.1"
  method := ascii "GET"
  target := ascii "/"
  headers := [(ascii "Host", ascii "A.b")]

/-- Services that confirm every membership and permit everything. -/
def services : Services Unit where
  boundary :=
    { infrastructure := [.v4 0x0A000000 8], translations := [], inventoryVersion := ['1']
      infrastructure_ne_nil := by decide, length_le := by decide, version_length := by decide }
  normalize _ target _ := pure target
  require _ _ _ _ _ := pure ()
  policies _ :=
    { snapshot := some { revision := 1, settings := { rules := [], mode := .blacklist } },
      accepting := true }

/-- The head of the request. -/
def head : RequestHead where
  method := ascii "GET"
  target := ascii "/"
  headers := [(ascii "host", ascii "A.b")]
  authorities := [some ⟨['a', '.', 'b'], 80⟩]
  subProtocol := .http11

end Example

/-- The request for the DNS name is authorized. -/
theorem authorize_safe_example : ∃ selected,
    IsAuthorized Example.services Example.connection Example.head [ascii "A.b"] selected
      ⟨Example.head, 1, some (ascii "/")⟩ () := by
  have hrun : authorize Example.services Example.connection Example.head () =
      .ok (⟨Example.head, 1, some (ascii "/")⟩, ()) := rfl
  exact authorize_safe (.http1 Example.request rfl) hrun

end Ads.SandboxEgress
