import Ads.SandboxEgress.Destinations
import Ads.SandboxEgress.DnssecChain

/-!
# The authentication of an answer

The model of `dnssec_answer.py`. `classify` follows the aliases of one acquired response from its
question to a terminal RRset or to a negative end, and authenticates every RRset on the way: with the
signatures of zones that chain to an anchor, or, for a CNAME that a DNAME generates, as what the
DNAME says it is. What dnspython reads from a record (the target of an alias, the names and addresses
of other records) is a parameter. The OPT record is no part of the Additional section here, as in
dnspython, and `rcode` is the extended response code.
-/

set_option autoImplicit false
set_option relaxedAutoImplicit false

namespace Ads.SandboxEgress

open Dns Foundation.StateExcept Python

/-! ### Messages and their authentication -/

/-- An entry of the question section. -/
structure Question where
  /-- The name. -/
  name : Name
  /-- The class. -/
  rdclass : ℕ
  /-- The type. -/
  rdtype : RdataType
deriving DecidableEq

/-- An acquired response. -/
structure Response where
  /-- The QR flag. -/
  isResponse : Bool
  /-- The TC flag. -/
  isTruncated : Bool
  /-- The AD flag. -/
  authenticData : Bool
  /-- The opcode. -/
  opcode : ℕ
  /-- The response code. -/
  rcode : ℕ
  /-- The question section. -/
  question : List Question
  /-- The answer section. -/
  answer : List RRset
  /-- The authority section. -/
  authority : List RRset
  /-- The Additional section. -/
  additional : List RRset
deriving DecidableEq

/-- `RecordAuthentication`. -/
structure RecordAuthentication where
  /-- The RRset. -/
  records : RRset
  /-- The verdict. -/
  state : SecurityState
  /-- The signature checks made. -/
  checks : List SignatureCheck := []
  /-- The denial proofs made. -/
  denials : List DenialProof := []
  /-- Why nothing could be established. -/
  limitation : Option String := none
  /-- The owner of the DNAME that generates the CNAME. -/
  synthesizedFrom : Option Name := none

/-- `MessageAuthentication`. -/
structure MessageAuthentication where
  /-- The verdict. -/
  state : SecurityState
  /-- The RRsets that were judged. -/
  records : List RecordAuthentication
  /-- The zones that were authenticated. -/
  zones : List ZoneAuthentication
  /-- The denial proofs made. -/
  denials : List DenialProof := []
  /-- Why nothing could be established. -/
  limitation : Option String := none
  /-- The upstream resolver failed. -/
  resolutionFailure : Bool := false
  /-- The messages acquired to discover zones. -/
  discoveryMessages : List Message := []

/-- `_combined`. -/
def combined (states : List SecurityState) : SecurityState :=
  if .bogus ∈ states then .bogus
  else if states = [] ∨ .indeterminate ∈ states then .indeterminate
  else if .insecure ∈ states then .insecure
  else .secure

/-! ### The inspection of a response -/

/-- What dnspython reads from a record. -/
structure RecordReader where
  /-- `CNAME.target` and `DNAME.target`. -/
  aliasTarget : Rdata → Name
  /-- The names under `target`, `exchange` and `replacement`. -/
  targets : Rdata → List Name
  /-- The address of an A or AAAA record. -/
  addresses : Rdata → List Text
  /-- The addresses that the parameters of a service record hint at. -/
  hints : Rdata → List Text

/-- `ResolverBoundary`, as far as responses are inspected. -/
structure ResolverBoundary where
  /-- `check_name`. -/
  checkName : Bytes → Except Raised Unit
  /-- `addresses`. -/
  addresses : DestinationBoundary

/-- `_name`. -/
def inspectName (boundary : ResolverBoundary) (name : Name) : Except Raised Unit := do
  failIf (¬ name.isAbsolute) (.requestDenied "relative_dns_evidence")
  let value := if name.labels = [[]] then ascii "." else (ascii ".").intercalate name.labels.dropLast
  failIf (value.any (128 ≤ ·.val)) (.requestDenied "unsupported_dns_name")
  boundary.checkName value

/-- `require_public` of some addresses. -/
def inspectAddresses (boundary : ResolverBoundary) (addresses : List Text) : Except Raised Unit :=
  addresses.forM fun address ↦ do
    let _ ← boundary.addresses.requirePublic address
    return ()

/-- `inspect`. -/
def inspect (reader : RecordReader) (boundary : ResolverBoundary) (response : Response) :
    Except Raised Unit :=
  (response.answer ++ response.authority ++ response.additional).forM fun rrset ↦ do
    inspectName boundary rrset.name
    rrset.records.forM fun record ↦ do
      inspectAddresses boundary (reader.addresses record)
      (reader.targets record).forM (inspectName boundary)
      inspectAddresses boundary (reader.hints record)

/-! ### The alias walk -/

/-- Where the aliases of a question end. -/
inductive Walk
  /-- At RRsets of the question's type; the RRsets on the way and these. -/
  | terminal (answer : List RRset)
  /-- At a name without RRsets of the type; the RRsets on the way. -/
  | negative (answer : List RRset) (current : Name)
  /-- At a DNAME whose CNAME is missing. -/
  | missingSynthesis

/-- `direct`. -/
def directOf (supplied : List RRset) (qtype : RdataType) (current : Name) : List RRset :=
  supplied.filter fun item ↦
    item.name == current && (item.rdtype == qtype || qtype == RdataType.any)

/-- `cnames`. -/
def cnamesOf (supplied : List RRset) (current : Name) : List RRset :=
  supplied.filter fun item ↦ item.name == current && item.rdtype == RdataType.cname

/-- `dnames`. -/
def dnamesOf (supplied : List RRset) (current : Name) : List RRset :=
  supplied.filter fun item ↦
    item.rdtype == RdataType.dname && item.name != current && decide (current.IsSubdomain item.name)

/-- `max(dnames, key=lambda item: len(item.name.labels))`. -/
def deepest (dnames : List RRset) : Option RRset :=
  dnames.argmax fun item ↦ item.name.labels.length

/-- The deepest of some DNAMEs, unless it is among the RRsets already. -/
def withDname (answer dnames : List RRset) : List RRset :=
  match deepest dnames with
  | none => answer
  | some dname => if dname ∈ answer then answer else answer ++ [dname]

/-- The branch of the walk at a name with RRsets of the type. -/
def walkTerminal (qtype : RdataType) (answer direct cnames dnames : List RRset) :
    Except Raised Walk := do
  failIf (cnames ≠ [] ∧ qtype ∉ [RdataType.cname, RdataType.any])
    (.requestDenied "conflicting_dns_alias")
  failIf (cnames ≠ [] ∧ direct.any fun item ↦
      item.rdtype ∉ [RdataType.cname, RdataType.nsec, RdataType.nsec3])
    (.requestDenied "conflicting_dns_alias")
  failIf (dnames ≠ [] ∧ cnames = []) (.requestDenied "conflicting_dns_alias")
  let answer := answer ++ (deepest dnames).toList
  return .terminal (answer ++ direct.filter (· ∉ answer))

/-- The loop of the walk: the number of names that may still be visited, the names visited, the
current name and the RRsets so far. -/
def walk (reader : RecordReader) (supplied : List RRset) (qtype : RdataType) :
    ℕ → List Name → Name → List RRset → Except Raised Walk
  | remaining, visited, current, answer =>
    if current ∈ visited then throw (.requestDenied "dns_alias_loop")
    else
      match remaining with
      | 0 => throw (.requestDenied "dns_alias_limit")
      | remaining + 1 =>
        let direct := directOf supplied qtype current
        let cnames := cnamesOf supplied current
        let dnames := dnamesOf supplied current
        if direct ≠ [] then walkTerminal qtype answer direct cnames dnames
        else
          match cnames with
          | cname :: _ =>
            match cname.records with
            | [record] =>
              walk reader supplied qtype remaining (current :: visited) (reader.aliasTarget record)
                (withDname answer dnames ++ [cname])
            | _ => throw (.requestDenied "conflicting_dns_alias")
          | [] =>
            if dnames ≠ [] then return .missingSynthesis else return .negative answer current

/-! ### The state of one classification -/

/-- The state of one call of `classify`. -/
structure AnswerState (World : Type) where
  /-- The world of the resolver and the clocks, and the verification budget. -/
  chain : ChainState World
  /-- `zones`. -/
  zones : List (Name × ZoneAuthentication) := []
  /-- `records`. -/
  records : List RecordAuthentication := []
  /-- `discovery`. -/
  discovery : List (Name × Option ZoneAuthentication) := []
  /-- `discovery_messages`. -/
  discoveryMessages : List Message := []
  /-- `discovery_proofs`. -/
  discoveryProofs : List DenialProof := []

/-- Computations of one call of `classify`. -/
abbrev AnswerM (World : Type) := StateT (AnswerState World) (Except Halted)

/-- The constant inputs of one call of `classify`. -/
structure AnswerContext (World : Type) extends ChainContext World where
  /-- What dnspython reads from a record. -/
  reader : RecordReader
  /-- The boundary of the resolver. -/
  boundary : ResolverBoundary
  /-- `limits.aliases`. -/
  aliases : ℕ

section Classify

variable {World : Type} (context : AnswerContext World)

/-- Work of one call of `authenticate`, or of the resolver, with a memo of its own. -/
def onChain {α : Type} (work : ChainM World α) : AnswerM World α := do
  let state ← get
  match work { state.chain with memo := [] } with
  | .error halted => throw halted
  | .ok (value, chain) =>
    set { state with chain := chain }
    return value

/-- A denial with `time.time()`. -/
def denial (name : Name) (qtype : RdataType) (kind : Kind) (items : List (RRset × Option RRset))
    (keys : RRset) (wildcard : Option Name := none) : AnswerM World DenialProof :=
  onChain do
    let now ← readClock context.upstream.time
    charge (validateDenial (checkSignatures context.library) context.hasher name qtype kind items
      keys now wildcard)

/-- A signature check with `time.time()`. -/
def signatureCheck (rrset : RRset) (signatures : Option RRset) (keys : RRset) :
    AnswerM World SignatureCheck :=
  onChain do
    let now ← readClock context.upstream.time
    charge (checkSignatures context.library rrset signatures keys now)

/-- An exchange to discover a zone, which is kept. -/
def discover (name : Name) (kind : RdataType) : AnswerM World (ℕ × Message) := do
  let object ← onChain (exchange context.upstream name kind)
  modify fun state ↦ { state with discoveryMessages := state.discoveryMessages ++ [object.2] }
  return object

/-- A denial to discover a zone, which is kept. -/
def discoveryDenial (name : Name) (kind : Kind) (items : List (RRset × Option RRset))
    (keys : RRset) : AnswerM World (ℕ × DenialProof) := do
  let proof ← denial context name RdataType.ds kind items keys
  modify fun state ↦ { state with discoveryProofs := state.discoveryProofs ++ [proof] }
  onChain (identified proof)

/-- `zones[name] = auth`. -/
def assign (zones : List (Name × ZoneAuthentication)) (name : Name) (auth : ZoneAuthentication) :
    List (Name × ZoneAuthentication) :=
  if name ∈ zones.map Prod.fst then
    zones.map fun entry ↦ if entry.1 = name then (name, auth) else entry
  else zones ++ [(name, auth)]

/-- `zone`. -/
def zoneOf (name : Name) : AnswerM World ZoneAuthentication := do
  let state ← get
  match state.zones.lookup name with
  | some known => return known
  | none => do
    raiseIf (¬ name.isAbsolute) (.raised (.exception "ValueError"))
    let auth ← onChain (zoneFrom context.toChainContext 33 name [])
    modify fun state ↦ { state with zones := state.zones ++ [(name, auth)] }
    return auth

/-- `signatures`. -/
def signaturesOf (rrset : RRset) (items : List RRset) : AnswerM World (Option RRset) :=
  match items.filter fun item ↦
    item.name == rrset.name && item.rdtype == RdataType.rrsig && item.covers == rrset.rdtype with
  | [] => return none
  | [found] => return some found
  | _ => throw (.raised (.requestDenied "dnssec_ambiguous_signatures"))

/-- The denial records of a section at or below a name, with their signatures. -/
def proofSets (authority : List RRset) (name : Name) :
    AnswerM World (List (RRset × Option RRset)) :=
  (authority.filter fun item ↦
    decide (item.rdtype ∈ [RdataType.nsec, RdataType.nsec3]) &&
      decide (item.name.IsSubdomain name)).mapM fun item ↦ do
    let signatures ← signaturesOf item authority
    return (item, signatures)

/-- One round of the loop of `establish`: the zone that the loop goes on with, or its result. -/
def establishAt (candidate : Name) (auth : ZoneAuthentication) :
    AnswerM World (ZoneAuthentication ⊕ Option ZoneAuthentication) :=
  match auth.state, auth.trustedKeys with
  | .secure, some trusted => do
    let found ← discover context candidate RdataType.ds
    if found.2.rcode ≠ 0 then return .inr none
    else
      match found.2.answer.filter fun item ↦
        item.name == candidate && item.rdtype == RdataType.ds with
      | [] => do
        let evidence ← proofSets found.2.authority auth.zone
        let unsigned ← discoveryDenial context candidate .unsignedDelegation evidence trusted
        if unsigned.2.valid then do
          let insecure : ZoneAuthentication :=
            { zone := candidate, state := .insecure, messages := [found], denials := [unsigned] }
          modify fun state ↦ { state with zones := assign state.zones candidate insecure }
          return .inr (some insecure)
        else do
          let absent ← discoveryDenial context candidate .nodata evidence trusted
          if ¬ absent.2.valid ∨ absent.2.optOut then return .inr none else return .inl auth
      | [delegation] => do
        let signatures ← signaturesOf delegation found.2.answer
        let checked ← signatureCheck context delegation signatures trusted
        if ¬ checked.verifiedExactly then return .inr none
        else do
          let next ← zoneOf context candidate
          return .inl next
      | _ => return .inr none
  | _, _ => return .inr (some auth)

/-- The loop of `establish`. -/
def establishFrom : List Name → ZoneAuthentication → AnswerM World (Option ZoneAuthentication)
  | [], auth => return some auth
  | candidate :: rest, auth => do
    match ← establishAt context candidate auth with
    | .inl next => establishFrom rest next
    | .inr result => return result

/-- `establish`. -/
def establish (name : Name) (auth : ZoneAuthentication) :
    AnswerM World (Option ZoneAuthentication) := do
  let lengths := (List.range (name.labels.length + 1)).filter (auth.zone.labels.length + 1 ≤ ·)
  let candidates := lengths.map fun length ↦ Name.mk (name.labels.drop (name.labels.length - length))
  raiseIf (candidates.length > 32) (.raised (.requestDenied "dnssec_chain_depth_or_cycle"))
  establishFrom context candidates auth

/-- The anchor of a name lies strictly below another name. -/
def AnchorBelow (name zone : Name) : Prop :=
  ∃ anchor ∈ closestAnchor context.anchors name, anchor ≠ zone ∧ anchor.IsSubdomain zone

instance decidableAnchorBelow (name zone : Name) : Decidable (AnchorBelow context name zone) :=
  match h : closestAnchor context.anchors name with
  | none => .isFalse fun ⟨_, hanchor, _⟩ ↦ by simp [h] at hanchor
  | some anchor =>
    decidable_of_iff (anchor ≠ zone ∧ anchor.IsSubdomain zone) (by simp [AnchorBelow, h])

/-- The zone of a name, from the SOA records that a message locates it by. -/
def locate (name : Name) (found : Message) : AnswerM World (Option ZoneAuthentication) :=
  match (((found.answer ++ found.authority).filter fun item ↦ item.rdtype == RdataType.soa &&
      decide (name.IsSubdomain item.name)).map RRset.name).eraseDups with
  | [candidate] =>
    if found.rcode ∈ [0, 3] ∧ ¬ AnchorBelow context name candidate then do
      let auth ← zoneOf context candidate
      establish context name auth
    else return none
  | _ => return none

/-- The zone that an unsigned RRset belongs to, found once for each name. -/
def discovered (name : Name) : AnswerM World (Option ZoneAuthentication) := do
  let state ← get
  match state.discovery.lookup name with
  | some known => return known
  | none => do
    let found ← discover context name RdataType.soa
    let result ← locate context name found.2
    modify fun state ↦ { state with discovery := state.discovery ++ [(name, result)] }
    return result

/-- The branch of `check` without signatures. -/
def checkUnsigned (rrset : RRset) : AnswerM World RecordAuthentication := do
  let unestablished : RecordAuthentication :=
    { records := rrset, state := .indeterminate, limitation := "signing_expectation_unestablished" }
  match ← discovered context rrset.name with
  | none => return unestablished
  | some zone =>
    match zone.state, zone.trustedKeys with
    | .insecure, _ => return { records := rrset, state := .insecure }
    | .secure, some trusted =>
      if rrset.rdtype = RdataType.ds then return unestablished
      else do
        let checked ← signatureCheck context rrset none trusted
        return { records := rrset, state := .bogus, checks := [checked] }
    | _, _ => return unestablished

/-- The wildcard that an expanded RRset comes from. -/
def wildcardOf (name : Name) (labels : ℕ) : Name :=
  ⟨ascii "*" :: name.labels.drop (name.labels.length - (labels + 1))⟩

/-- What the verified paths of one signer amount to. -/
structure PathVerdict where
  /-- Some path is valid. -/
  valid : Bool
  /-- Some path rests on an Opt-Out proof. -/
  insecureProof : Bool := false
  /-- Some path is not usable. -/
  uncertain : Bool
  /-- The denial proofs made. -/
  proofs : List DenialProof := []

/-- The loop of `check` over the verified paths of one signer. -/
def judgePaths (rrset : RRset) (authority : List RRset) (signer : Name) (keys : RRset) :
    List VerifiedSignature → PathVerdict → AnswerM World PathVerdict
  | [], verdict => return verdict
  | path :: rest, verdict =>
    if ¬ path.wildcard then judgePaths rrset authority signer keys rest verdict
    else if rrset.rdtype = RdataType.dname then
      judgePaths rrset authority signer keys rest { verdict with uncertain := true }
    else do
      let items ← proofSets authority signer
      let proof ← denial context rrset.name rrset.rdtype .wildcard items keys
        (some (wildcardOf rrset.name path.signature.labels))
      judgePaths rrset authority signer keys rest
        { verdict with
          valid := verdict.valid || proof.valid && !proof.optOut
          insecureProof := verdict.insecureProof || proof.valid && proof.optOut
          proofs := verdict.proofs ++ [proof] }

/-- What the signers of an RRset amount to. -/
structure SignerVerdict where
  /-- Some signer authenticates the RRset. -/
  success : Bool := false
  /-- The states of the other signers. -/
  states : List SecurityState := []
  /-- The signature checks made. -/
  checks : List SignatureCheck := []
  /-- The denial proofs made. -/
  proofs : List DenialProof := []

/-- The signatures of a set by one signer, as `dns.rrset.from_rdata` gathers them. -/
def bySigner (signatures : RRset) (signer : Name) : RRset :=
  { signatures with
    records := (signatures.signatures.filter (·.signer == signer)).map Rdata.rrsig }

/-- The loop of `check` over the signers. -/
def judgeSigners (rrset : RRset) (authority : List RRset) (signatures : RRset) :
    List Name → SignerVerdict → AnswerM World SignerVerdict
  | [], verdict => return verdict
  | signer :: rest, verdict =>
    if AnchorBelow context rrset.name signer then
      judgeSigners rrset authority signatures rest
        { verdict with states := verdict.states ++ [.indeterminate] }
    else do
      let auth ← zoneOf context signer
      match auth.state, auth.trustedKeys with
      | .secure, some trusted => do
        let checked ← signatureCheck context rrset (some (bySigner signatures signer)) trusted
        let paths ← judgePaths context rrset authority signer trusted checked.verified
          { valid := checked.verifiedExactly,
            uncertain := !checked.limitations.isEmpty ||
              !checked.unsupported.isEmpty && checked.failures.isEmpty }
        judgeSigners rrset authority signatures rest
          { success := verdict.success || paths.valid
            states := verdict.states ++
              if paths.valid then []
              else if paths.insecureProof then [.insecure]
              else if paths.uncertain then [.indeterminate] else [.bogus]
            checks := verdict.checks ++ [checked]
            proofs := verdict.proofs ++ paths.proofs }
      | _, _ =>
        judgeSigners rrset authority signatures rest
          { verdict with states := verdict.states ++ [auth.state] }

/-- The state of an RRset with signatures. -/
def SignerVerdict.state (verdict : SignerVerdict) : SecurityState :=
  if verdict.success then .secure
  else if verdict.checks ≠ [] ∧ .bogus ∈ verdict.states then .bogus
  else if verdict.states = [] ∨ .indeterminate ∈ verdict.states then .indeterminate
  else if .bogus ∈ verdict.states then .bogus
  else .insecure

/-- `check`. -/
def checkRecords (authority : List RRset) (rrset : RRset) (items : List RRset) :
    AnswerM World RecordAuthentication := do
  onChain (charge (bounded context.library rrset 128))
  match ← signaturesOf rrset items with
  | none => checkUnsigned context rrset
  | some signatures => do
    onChain (charge (bounded context.library signatures 64))
    let signers := ((signatures.signatures.map Rrsig.signer).filter
      fun signer ↦ decide (rrset.name.IsSubdomain signer)).eraseDups
    let verdict ← judgeSigners context rrset authority signatures signers {}
    return { records := rrset, state := verdict.state, checks := verdict.checks,
             denials := verdict.proofs }

/-- A record is judged. -/
def append (record : RecordAuthentication) : AnswerM World Unit :=
  modify fun state ↦ { state with records := state.records ++ [record] }

/-- A CNAME is what a DNAME generates at its owner. -/
def Synthesizes (reader : RecordReader) (dname cname : RRset) : Prop :=
  match cname.records, dname.records with
  | [source], [redirection] =>
    let labels := cname.name.labels.take (cname.name.labels.length - dname.name.labels.length) ++
      (reader.aliasTarget redirection).labels
    nameWireLength ⟨labels⟩ ≤ 255 ∧ reader.aliasTarget source = ⟨labels⟩
  | _, _ => False

instance decidableSynthesizes (reader : RecordReader) (dname cname : RRset) :
    Decidable (Synthesizes reader dname cname) :=
  match hcname : cname.records, hdname : dname.records with
  | [source], [redirection] =>
    decidable_of_iff (nameWireLength ⟨cname.name.labels.take
        (cname.name.labels.length - dname.name.labels.length) ++
          (reader.aliasTarget redirection).labels⟩ ≤ 255 ∧
      reader.aliasTarget source = ⟨cname.name.labels.take
        (cname.name.labels.length - dname.name.labels.length) ++
          (reader.aliasTarget redirection).labels⟩) (by simp [Synthesizes, hcname, hdname])
  | [], _ => .isFalse (by simp [Synthesizes, hcname])
  | _ :: _ :: _, _ => .isFalse (by simp [Synthesizes, hcname])
  | [_], [] => .isFalse (by simp [Synthesizes, hcname, hdname])
  | [_], _ :: _ :: _ => .isFalse (by simp [Synthesizes, hcname, hdname])

/-- The deepest judged DNAME above a CNAME. -/
def parentOf (records : List RecordAuthentication) (cname : RRset) : Option RecordAuthentication :=
  (records.filter fun item ↦ item.records.rdtype == RdataType.dname &&
    cname.name != item.records.name && decide (cname.name.IsSubdomain item.records.name)).argmax
      fun item ↦ item.records.name.labels.length

/-- The signatures of a CNAME, which are looked for only if a DNAME generates it. -/
def cnameSignatures (answer : List RRset) (dname cname : RRset) : AnswerM World (Option RRset) :=
  if Synthesizes context.reader dname cname then signaturesOf cname answer else return none

/-- The round of the loop over the CNAMEs. -/
def judgeCname (answer authority : List RRset) (cname : RRset) : AnswerM World Unit := do
  let state ← get
  match parentOf state.records cname with
  | none => do
    let record ← checkRecords context authority cname answer
    append record
  | some parent => do
    let signatures ← cnameSignatures context answer parent.records cname
    if ¬ Synthesizes context.reader parent.records cname then
      append { records := cname, state := .bogus, limitation := "invalid_dname_synthesis",
               synthesizedFrom := parent.records.name }
    else if signatures = none then
      append { records := cname, state := parent.state, synthesizedFrom := parent.records.name }
    else do
      let record ← checkRecords context authority cname answer
      append record

/-- The judgement of the RRsets on the way: the CNAMEs after the others. -/
def judgeChain (answer authority chain : List RRset) : AnswerM World Unit := do
  (chain.filter (·.rdtype ≠ RdataType.cname)).forM fun rrset ↦ do
    let record ← checkRecords context authority rrset answer
    append record
  (chain.filter (·.rdtype = RdataType.cname)).forM (judgeCname context answer authority)

/-- `result`. -/
def resultOf (state : SecurityState) (denials : List DenialProof := [])
    (limitation : Option String := none) (resolutionFailure : Bool := false) :
    AnswerM World MessageAuthentication := do
  let now ← onChain (readClock context.upstream.monotonic)
  raiseIf (context.deadline ≤ now) (.raised (.requestDenied "dns_resolution_deadline"))
  let final ← get
  return {
    state
    records := final.records
    zones := final.zones.map Prod.snd
    denials := final.discoveryProofs ++ denials
    limitation
    resolutionFailure
    discoveryMessages := final.discoveryMessages }

/-- The loop over the kinds of denial that a negative answer may rest on. -/
def denyKinds (authority : List RRset) (current : Name) (qtype : RdataType) (apex : Name)
    (keys : RRset) : List Kind → List DenialProof → AnswerM World MessageAuthentication
  | [], negative =>
    resultOf context .bogus negative (some "negative_proof_invalid")
  | kind :: rest, negative => do
    let items ← proofSets authority apex
    let proof ← denial context current qtype kind items keys
    let negative := negative ++ [proof]
    if proof.valid then do
      let state ← get
      resultOf context
        (combined (state.records.map (·.state) ++ [if proof.optOut then .insecure else .secure]))
        negative
    else denyKinds authority current qtype apex keys rest negative

/-- The end of a negative answer. -/
def judgeNegative (rcode : ℕ) (authority : List RRset) (current : Name) (qtype : RdataType) :
    AnswerM World MessageAuthentication :=
  match authority.filter (·.rdtype = RdataType.soa) with
  | [soa] =>
    if ¬ current.IsSubdomain soa.name then
      resultOf context .indeterminate [] (some "negative_zone_evidence_required")
    else do
      let record ← checkRecords context authority soa authority
      append record
      let state ← get
      if record.state ≠ .secure then
        resultOf context (combined (state.records.map (·.state))) []
          (some "negative_soa_not_authenticated")
      else
        match (state.zones.lookup soa.name).bind ZoneAuthentication.trustedKeys with
        | none => resultOf context .indeterminate [] (some "negative_soa_zone_mismatch")
        | some keys =>
          denyKinds context authority current qtype soa.name keys
            (if rcode = 3 then [.nxdomain] else [.nodata, .wildcardNodata]) []
  | _ => resultOf context .indeterminate [] (some "negative_zone_evidence_required")

/-- The answer section without its signatures. -/
def suppliedOf (answer : List RRset) : List RRset :=
  answer.filter (·.rdtype ≠ RdataType.rrsig)

/-- `classify` after the inspection. -/
def classifyInspected (question : Question) (rcode : ℕ) (answer authority : List RRset) :
    AnswerM World MessageAuthentication := do
  if rcode ∉ [0, 3] then
    resultOf context .indeterminate [] (some "upstream_resolution_failure") true
  else do
    raiseIf (answer.length + authority.length > 128)
      (.raised (.requestDenied "dnssec_answer_rrset_limit"))
    let supplied := suppliedOf answer
    raiseIf (¬ (supplied.map fun item ↦ (item.name, item.rdtype)).Nodup)
      (.raised (.requestDenied "dnssec_ambiguous_answer"))
    match walk context.reader supplied question.rdtype (context.aliases + 1) [] question.name [] with
    | .error failure => throw (.raised failure)
    | .ok .missingSynthesis =>
      resultOf context .indeterminate [] (some "dname_synthesis_missing")
    | .ok (.terminal chain) => do
      judgeChain context answer authority chain
      raiseIf (rcode = 3) (.raised (.requestDenied "positive_answer_with_nxdomain"))
      let state ← get
      resultOf context (combined (state.records.map (·.state)))
    | .ok (.negative chain current) => do
      judgeChain context answer authority chain
      judgeNegative context rcode authority current question.rdtype

/-- `classify`. -/
def classify (response : Response) : AnswerM World MessageAuthentication :=
  match response.question with
  | [question] =>
    if ¬ response.isResponse ∨ response.isTruncated ∨ response.opcode ≠ 0 ∨
        question.rdclass ≠ 1 ∨ ¬ question.name.isAbsolute then
      throw (.raised (.requestDenied "dnssec_answer_question"))
    else
      match inspect context.reader context.boundary response with
      | .error failure => throw (.raised failure)
      | .ok () =>
        classifyInspected context question response.rcode response.answer response.authority
  | _ => throw (.raised (.requestDenied "dnssec_answer_question"))

end Classify

end Ads.SandboxEgress
