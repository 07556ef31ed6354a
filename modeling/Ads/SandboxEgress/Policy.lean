import Ads.Foundation.StateExcept
import Ads.Python.IpAddress

/-!
# The request policy

The model of `policy.py`: canonical host names, authorities and the identity they agree on, Ant path
patterns with their work budget, and the decision `permitted` of one policy snapshot. The snapshot
and its rules are those of `ads_commons.egress`.
-/

set_option autoImplicit false
set_option relaxedAutoImplicit false

namespace Ads.SandboxEgress

open Dns Foundation.StateExcept Python

/-- What a function of the egress service raises: a denied request with its internal reason, or
another exception by its name. -/
inductive Raised
  /-- `RequestDenied`. -/
  | requestDenied (reason : String)
  /-- Any other exception. -/
  | exception (name : String)
deriving DecidableEq, Repr

/-! ### Names -/

/-- `_LABEL.fullmatch`: one to 63 letters, digits and inner hyphens. -/
def isLabel (label : Text) : Bool :=
  let plain := fun char : Char ↦ isDigit char || (97 ≤ char.toNat && char.toNat ≤ 122)
  1 ≤ label.length && label.length ≤ 63 && label.all (fun char ↦ plain char || char == '-') &&
    label.head?.any plain && label.getLast?.any plain

/-- The branch of `canonical_host` for a name that is no address. -/
def canonicalName (value : Text) : Except Raised Text :=
  let value := removeSuffixChar '.' value
  if value.length > 253 ∨ ¬ (value.splitOn '.').all isLabel then
    throw (.requestDenied "invalid_host")
  else if value.all fun char ↦ isDigit char || char == '.' then
    throw (.requestDenied "ambiguous_address")
  else return value

/-- `canonical_host`. -/
def canonicalHost (value : Text) : Except Raised Text :=
  if value = [] ∨ ¬ isAscii value ∨ '%' ∈ value then throw (.requestDenied "invalid_host")
  else
    match ipAddress (lowerText value) with
    | some address => return address.text
    | none => canonicalName (lowerText value)

/-- `Authority`. -/
structure Authority where
  /-- The canonical host. -/
  host : Text
  /-- The port. -/
  port : ℕ
deriving DecidableEq

/-- The host and the text after it: in brackets an IPv6 address, otherwise everything before the
only colon. -/
def splitAuthority (value : Text) : Except Raised (Text × Text) :=
  match value with
  | '[' :: rest =>
    match partitionChar ']' rest with
    | (_, false, _) => throw (.requestDenied "invalid_authority")
    | (host, true, suffix) =>
      if (ipv6Address host).isNone then throw (.requestDenied "invalid_authority")
      else return (host, suffix)
  | _ =>
    if value.count ':' > 1 then throw (.requestDenied "unbracketed_ipv6")
    else
      match partitionChar ':' value with
      | (host, false, _) => return (host, [])
      | (host, true, port) => return (host, ':' :: port)

/-- The port of an authority. Python converts at most 4300 digits. -/
def authorityPort (suffix : Text) (defaultPort : ℕ) : Except Raised ℕ :=
  match suffix with
  | [] => return defaultPort
  | ':' :: digits =>
    if digits = [] ∨ ¬ digits.all isDigit then throw (.requestDenied "invalid_port")
    else if digits.length > 4300 then throw (.exception "ValueError")
    else return decimalValue digits
  | _ => throw (.requestDenied "invalid_port")

/-- `authority`. The empty text is `none`. -/
def authority (value : Text) (defaultPort : ℕ) : Except Raised (Option Authority) :=
  if value = [] then return none
  else if value.any isSpace ∨ value.any (· ∈ ['/', '\\', '@', '?', '#']) then
    throw (.requestDenied "invalid_authority")
  else do
    let (host, suffix) ← splitAuthority value
    let port ← authorityPort suffix defaultPort
    failIf (port < 1 ∨ port > 65535) (.requestDenied "invalid_port")
    let host ← canonicalHost host
    return some ⟨host, port⟩

/-- `consistent_identity`: the TLS name and the host of the authorities, where they are given. -/
def consistentIdentity (authorities : List (Option Authority)) (tlsName : Option Text) :
    Except Raised (List Text) := do
  failIf (authorities.any fun item ↦ item ≠ authorities.headD none)
    (.requestDenied "conflicting_authorities")
  let host := (authorities.headD none).map Authority.host
  let tls ← tlsName.mapM canonicalHost
  failIf (tls.isSome ∧ host.isSome ∧ tls ≠ host) (.requestDenied "tls_http_identity_mismatch")
  return ([tls, host].filterMap id).eraseDups

/-- `domain_matches`. -/
def domainMatches (pattern name : Text) : Bool :=
  if pattern = ['*'] then true
  else
    match pattern with
    | '*' :: '.' :: suffix => (partitionChar '.' name).2 == (true, suffix)
    | _ => name == pattern

/-! ### Path patterns -/

/-- `MatchBudget`. -/
structure MatchBudget where
  /-- The units of work that are left. -/
  remaining : ℕ := 1000000
deriving DecidableEq

/-- Computations that consume the match budget. -/
abbrev MatchM := StateT MatchBudget (Except Raised)

/-- `MatchBudget.consume`. -/
def MatchBudget.consume (count : ℕ) : MatchM Unit := do
  let budget ← get
  raiseIf (budget.remaining < count) (.requestDenied "path_match_limit")
  set (MatchBudget.mk (budget.remaining - count))

/-- The star of a pattern. -/
def starByte : Octet := 42

/-- The question mark of a pattern. -/
def questionByte : Octet := 63

/-- The separator of segments. -/
def slashByte : Octet := 47

/-- One row of the table of `segment`, from the entry to the left and the row above on. -/
def segmentRow (char : Octet) : Bool → List Bool → Bytes → List Bool
  | left, diagonal :: above :: rest, actual :: value =>
    let current :=
      if char = starByte then above || left
      else diagonal && (char == questionByte || char == actual)
    current :: segmentRow char current (above :: rest) value
  | _, _, _ => []

/-- `segment`: a segment of a pattern matches a segment of a path. -/
def segment (glob value : Bytes) : MatchM Bool := do
  let row ← glob.foldlM (fun previous char ↦ do
    MatchBudget.consume (value.length + 1)
    let first := previous.headD false && char == starByte
    return first :: segmentRow char first previous value)
    (true :: List.replicate value.length false)
  return row.getLastD false

/-- The segments of the path that one segment of the pattern leads to, in increasing order. -/
def reachSegment (glob : Bytes) (parts : List Bytes) (reachable : List ℕ) : MatchM (List ℕ) :=
  match reachable with
  | [] => return []
  | index :: rest => do
    let matched ←
      if index < parts.length then segment glob (parts.getD index []) else pure false
    let following ← reachSegment glob parts rest
    return if matched then (index + 1) :: following else following

/-- The loop of `ant_matches` over the segments of the pattern. -/
def reachAll (parts : List Bytes) : List Bytes → List ℕ → MatchM Bool
  | [], reachable => return parts.length ∈ reachable
  | glob :: rest, reachable => do
    MatchBudget.consume (parts.length + reachable.length)
    let reachable ←
      if glob = [starByte, starByte] then
        match reachable with
        | [] => pure []
        | least :: _ => pure ((List.range (parts.length + 1)).filter (least ≤ ·))
      else reachSegment glob parts reachable
    if reachable = [] then return false else reachAll parts rest reachable

/-- `ant_matches`. -/
def antMatches (pattern path : Bytes) (insensitive : Bool) : MatchM Bool := do
  if path.head? ≠ some slashByte ∨ pattern.head? ≠ some slashByte then return false
  raiseIf (path.length > 8192 ∨ pattern.length > 8192 ∨ 0 ∈ path) (.requestDenied "path_limit")
  let pattern := if insensitive then lowerBytes pattern else pattern
  let path := if insensitive then lowerBytes path else path
  MatchBudget.consume (pattern.length + path.length)
  reachAll (path.splitOn slashByte) (pattern.splitOn slashByte) [0]

/-! ### Rules and the decision -/

/-- The protocols of a rule. -/
inductive Protocol
  /-- Plain HTTP. -/
  | http
  /-- HTTP over TLS. -/
  | https
deriving DecidableEq

/-- `SubProtocol`. -/
inductive SubProtocol
  /-- Any of the others. -/
  | any
  /-- HTTP/1.1. -/
  | http11
  /-- HTTP/2. -/
  | http2
  /-- WebSocket. -/
  | websocket
deriving DecidableEq

/-- `UpgradeTarget`. -/
inductive UpgradeTarget
  /-- HTTP/2. -/
  | http2
  /-- WebSocket. -/
  | websocket
deriving DecidableEq

/-- The upgrades a rule covers. -/
inductive UpgradePolicy
  /-- Every upgrade. -/
  | any
  /-- No upgrade. -/
  | none
  /-- The listed upgrades. -/
  | listed (targets : List UpgradeTarget)
deriving DecidableEq

/-- `EgressPath`. -/
structure EgressPath where
  /-- The Ant pattern. -/
  pattern : Text
  /-- Whether the case of letters is ignored; unset takes the default of the mode. -/
  caseInsensitive : Option Bool := none
deriving DecidableEq

/-- `ProtocolSettings`. -/
structure ProtocolSettings where
  /-- The method, or `any`. -/
  method : Text
  /-- The upgrades. -/
  upgrades : UpgradePolicy
  /-- The paths; no path at all stands for every path. -/
  paths : List EgressPath := []
deriving DecidableEq

/-- `EgressRule`. -/
structure EgressRule where
  /-- The domain pattern. -/
  domain : Text
  /-- The destination port. -/
  port : ℕ
  /-- The protocol. -/
  protocol : Protocol
  /-- Method, upgrades and paths. -/
  protocolSettings : ProtocolSettings
  /-- The sub-protocol. -/
  subProtocol : SubProtocol := .any
deriving DecidableEq

/-- `EgressMode`. -/
inductive EgressMode
  /-- Deny what no rule covers. -/
  | whitelist
  /-- Allow what no rule covers. -/
  | blacklist
deriving DecidableEq

/-- `ProjectEgressSettings`. -/
structure ProjectEgressSettings where
  /-- The rules, in order. -/
  rules : List EgressRule
  /-- The mode. -/
  mode : EgressMode := .whitelist
deriving DecidableEq

/-- `ProjectEgressSnapshot`. -/
structure ProjectEgressSnapshot where
  /-- The revision. -/
  revision : ℕ
  /-- The settings. -/
  settings : ProjectEgressSettings
deriving DecidableEq

/-- `PolicyRequest`. -/
structure PolicyRequest where
  /-- The host names the request was identified by. -/
  names : List Text
  /-- The destination port. -/
  port : ℕ
  /-- The protocol. -/
  protocol : Protocol
  /-- The sub-protocol. -/
  subProtocol : SubProtocol
  /-- The method. -/
  method : Text
  /-- The normalized path, or `none` for the pathless target. -/
  normalizedPath : Option Bytes
  /-- The upgrade. -/
  upgrade : Option UpgradeTarget := none
deriving DecidableEq

/-- The request has a form the policy can judge. Protocols and upgrades are checked by their types
here. -/
def wellFormed (request : PolicyRequest) : Bool :=
  request.subProtocol ≠ .any ∧ 1 ≤ request.port ∧ request.port ≤ 65535 ∧
    (request.normalizedPath = none → request.method = "OPTIONS".toList) ∧
    (∀ path ∈ request.normalizedPath,
      path.head? = some slashByte ∧ path.length ≤ 8192 ∧ 0 ∉ path) ∧
    (request.method = "CONNECT".toList →
      request.subProtocol = .http2 ∧ request.upgrade = some .websocket)

/-- Port, protocol, sub-protocol and method of the rule are those of the request. -/
def appliesTo (rule : EgressRule) (request : PolicyRequest) : Bool :=
  rule.port = request.port ∧ rule.protocol = request.protocol ∧
    (rule.subProtocol = .any ∨ rule.subProtocol = request.subProtocol) ∧
    (rule.protocolSettings.method = "any".toList ∨ rule.protocolSettings.method = request.method)

/-- `any(ant_matches(...) for item in options.paths)`. -/
def anyPathMatches (whitelist : Bool) (path : Bytes) : List EgressPath → MatchM Bool
  | [] => return false
  | item :: rest => do
    let matched ← antMatches (encodeUtf8 item.pattern) path (item.caseInsensitive.getD (!whitelist))
    if matched then return true else anyPathMatches whitelist path rest

/-- The paths of a rule admit the request. -/
def pathsAdmit (whitelist : Bool) (rule : EgressRule) (request : PolicyRequest) : MatchM Bool :=
  match rule.protocolSettings.paths, request.normalizedPath with
  | [], _ => return true
  | _, none => return false
  | paths, some path => anyPathMatches whitelist path paths

/-- The upgrades of a rule admit the request. -/
def upgradesAdmit (rule : EgressRule) (request : PolicyRequest) : Bool :=
  match request.upgrade, rule.protocolSettings.upgrades with
  | none, _ => true
  | some _, .any => true
  | some _, .none => false
  | some target, .listed targets => target ∈ targets

/-- The loop of `permitted` over the rules. -/
def judgeRules (whitelist : Bool) (names : List Text) (request : PolicyRequest) :
    List EgressRule → MatchM Bool
  | [] => return !whitelist
  | rule :: rest => do
    MatchBudget.consume 1
    if ¬ appliesTo rule request then judgeRules whitelist names request rest
    else do
      let admitted ← pathsAdmit whitelist rule request
      if ¬ admitted ∨ ¬ upgradesAdmit rule request then judgeRules whitelist names request rest
      else if rule.domain = ['*'] then return whitelist
      else if names = [] then
        if ¬ whitelist then return false else judgeRules whitelist names request rest
      else
        let matched :=
          if whitelist then names.all (domainMatches rule.domain)
          else names.any (domainMatches rule.domain)
        if matched then return whitelist else judgeRules whitelist names request rest

/-- `permitted`. -/
def permitted (snapshot : Option ProjectEgressSnapshot) (request : PolicyRequest) :
    Except Raised Bool :=
  match snapshot with
  | none => return false
  | some snapshot =>
    if ¬ wellFormed request then return false
    else do
      let names ← request.names.mapM canonicalHost
      if names.eraseDups.length > 1 then return false
      let (allowed, _) ← judgeRules (snapshot.settings.mode == .whitelist) names request
        snapshot.settings.rules {}
      return allowed

end Ads.SandboxEgress
