import Mathlib.Data.Set.Function
import Ads.Foundation.Disturbed
import Ads.PtpTools.Plugin

/-!
# The links of an attachment

What ADD and DEL of an attachment do to the links of the kernel. The attachment is a veth pair with
one end in the namespace of the VM and one in the private namespace of the relay. Both ends carry
from their creation the group of the marker of the attachment, and its alias from some later time.
The journal is written before the pair is created and again when both ends are complete.

Each command and each write is an operation of its own, that may fail with or without its effect, and
before each of them the namespaces and the links of others may change. The two paths of the
namespaces are two places; a namespace that is gone took its links with it, and a namespace whose
descriptor is held is not gone. What ADD looks at besides links, the addresses and the routes, is
left out, and so is the result that it reports.
-/

set_option autoImplicit false
set_option relaxedAutoImplicit false

namespace Ads.PtpTools.Attachment

open Python Foundation Foundation.StateExcept Foundation.Interrupted Foundation.Interrupted.Program
  Foundation.Disturbed

/-! ### Bindings and markers -/

/-- The role of the VM of an attachment. -/
inductive Role where
  | guest
  | egress
  deriving DecidableEq

/-- The manager's reply, with the namespaces of the relay. -/
structure Binding where
  podUid : Uuid
  generation : Text
  role : Role
  ifname : Text
  network : Text
  relayPodUid : Uuid
  privateIdentity : Identity
  transportIdentity : Identity
  mtu : ℕ
  deriving DecidableEq

/-- What `binding` requires of a reply to a request. -/
def Accepts (request : Request) (binding : Binding) : Prop :=
  request.podUid = some binding.podUid ∧
    request.annotations.generation = some binding.generation ∧
      binding.network = request.network ∧ binding.ifname = request.ifname ∧
        binding.podUid ≠ binding.relayPodUid ∧ 576 ≤ binding.mtu ∧ binding.mtu ≤ 65425 ∧
          binding.privateIdentity ≠ binding.transportIdentity

instance (request : Request) (binding : Binding) : Decidable (Accepts request binding) :=
  inferInstanceAs (Decidable (_ ∧ _))

/-- `hashlib.sha256` of an encoded text. -/
abbrev Sha256 := Text → BitVec 256

/-- `alias`. -/
def aliasOf (sha256 : Sha256) (request : Request) (binding : Binding) : Text :=
  "ads-ptp:".toList ++ paddedHex 64 (sha256 (paddedHex 64 request.key.toNat ++ '/' ::
    uuidText binding.podUid ++ '/' :: binding.generation)).toNat

/-- `link_group`. -/
def linkGroup (sha256 : Sha256) (marker : Text) : ℕ :=
  let group := (sha256 marker).toNat / 2 ^ 224 % 2 ^ 31
  if group = 0 then 1 else group

/-- `bridge_identity`. -/
def bridgeIdentity (binding : Binding) : Text :=
  "ads-ptp:".toList ++ uuidText binding.relayPodUid ++ ':' :: binding.generation

/-! ### Links and namespaces -/

/-- A link, as the kernel lists it. Both ends of a veth pair are one device. -/
structure Link where
  ifname : Text
  ifindex : ℕ
  kind : Option Text
  group : ℕ
  ifalias : Option Text
  mtu : ℕ
  master : Option Text
  isUp : Bool
  device : ℕ
  deriving DecidableEq

/-- A network namespace. -/
structure Namespace where
  identity : Identity
  links : Table Link.ifname

/-- The two namespaces of an attachment. -/
inductive Side where
  | vm
  | peer
  deriving DecidableEq

/-- The journal of an attachment. -/
structure ActiveRecord extends Journal where
  binding : Binding
  marker : Text
  deriving DecidableEq

/-- The name of the end in the private namespace. -/
def vethLocal : Text :=
  "veth-local".toList

/-- The name of an end. -/
def ActiveRecord.endName (saved : ActiveRecord) : Side → Text
  | .vm => saved.request.ifname
  | .peer => vethLocal

/-- The identity that a namespace must have. -/
def ActiveRecord.expected (saved : ActiveRecord) : Side → Option Identity
  | .vm => saved.vmIdentity
  | .peer => some saved.binding.privateIdentity

/-- The index that was recorded for an end. -/
def ActiveRecord.index (saved : ActiveRecord) : Side → Option ℕ
  | .vm => saved.indices.map Prod.fst
  | .peer => saved.indices.map Prod.snd

/-- The namespaces at their two paths, the journal, and what the plugin has done to devices. -/
structure Site where
  host : Identity
  namespaces : Side → Option Namespace
  /-- The namespaces whose descriptors the process holds. -/
  held : Side → Bool
  journal : Option ActiveRecord
  nextDevice : ℕ
  nextIndices : ℕ × ℕ
  /-- The devices that ADD created. -/
  created : List ℕ
  /-- The devices that DEL deleted. -/
  deleted : List ℕ

namespace Site

variable (site : Site)

/-- A link is in the namespace of a side. -/
def Has (side : Side) (link : Link) : Prop :=
  ∃ space, site.namespaces side = some space ∧ link ∈ space.links

/-- Without the links of some devices. -/
def without (gone : ℕ → Bool) : Site :=
  { site with
    namespaces := fun side ↦ (site.namespaces side).map fun space ↦
      { space with links := space.links.filter fun link ↦ !gone link.device } }

/-- With one more link, if there is such a namespace and the name is free. -/
def addLink (side : Side) (link : Link) : Option Site :=
  (site.namespaces side).bind fun space ↦ (space.links.insert link).map fun links ↦
    { site with namespaces := Function.update site.namespaces side (some { space with links := links }) }

end Site

/-! ### What others do -/

/-- What others do between two operations. -/
inductive Disturbance where
  /-- A namespace is gone. -/
  | vanish (side : Side)
  /-- There is another namespace at the path. -/
  | appear (side : Side) (identity : Identity)
  /-- A link is created, or enters the namespace. -/
  | join (side : Side) (link : Link)
  /-- The links of a device leave. -/
  | leave (device : ℕ)
  /-- The kernel will number the next links. -/
  | number (indices : ℕ × ℕ)

/-- Others leave alone the namespaces that are held and the devices that ADD created. -/
def Site.disturb (site : Site) : Disturbance → Site
  | .vanish side =>
    match site.held side, site.namespaces side with
    | false, some space =>
      let rest := site.without fun device ↦ space.links.rows.any fun link ↦ link.device = device
      { rest with namespaces := Function.update rest.namespaces side none }
    | _, _ => site
  | .appear side identity =>
    match site.namespaces side with
    | some _ => site
    | none =>
      { site with namespaces := Function.update site.namespaces side (some ⟨identity, .empty⟩) }
  | .join side link =>
    if link.device ∈ site.created then site
    else
      match site.addLink side link with
      | none => site
      | some joined => { joined with nextDevice := max site.nextDevice (link.device + 1) }
  | .leave device => if device ∈ site.created then site else site.without (· = device)
  | .number indices => { site with nextIndices := indices }

/-! ### Operations -/

/-- What the plugin raises. -/
inductive Raised where
  /-- `RuntimeError`. -/
  | runtimeError (reason : String)
  /-- `ValueError`. -/
  | valueError (reason : String)
  /-- The checks of DEL and CHECK. -/
  | refused (failure : Failure)
  /-- `KeyError`. -/
  | keyError
  /-- Another exception of a command or of the file system. -/
  | system
  | killed
  deriving DecidableEq

/-- What `execute` raises. -/
def networkFailed : Raised :=
  .runtimeError "network operation failed"

/-- The effect of an operation. -/
abbrev Effect (α : Type) := StateT Site (Except Raised) α

/-- A part of the plugin. -/
abbrev Script (α : Type) := Program (Amid Site Disturbance Raised) Raised α

/-- One operation. -/
def act {α : Type} (effect : Effect α) : Script α :=
  operate Site.disturb effect

/-- An operation that looks at something else. -/
def examine : Script Unit :=
  act (return ())

/-- The journal, if there is one. -/
def readJournal : Script (Option ActiveRecord) :=
  act do return (← get).journal

/-- `save_record` of the journal. -/
def saveJournal (saved : ActiveRecord) : Script Unit :=
  act do
    let site ← get
    set { site with journal := some saved }

/-- The journal is unlinked. -/
def unlinkJournal : Script Unit :=
  act do
    let site ← get
    raiseIf (site.journal.isNone) .system
    set { site with journal := none }

/-- `namespace`. It holds the namespace at the path, or finds none. -/
def openNamespace (side : Side) (expected : Option Identity) (missing : Bool) : Script Bool :=
  act do
    let site ← get
    match site.namespaces side with
    | none =>
      raiseIf (missing = false) .system
      return false
    | some space =>
      raiseIf (expected.any (· ≠ space.identity)) (.valueError "namespace replaced")
      set { site with held := Function.update site.held side true }
      return true

/-- `links`. -/
def links (side : Side) : Script (Table Link.ifname) :=
  act do
    match (← get).namespaces side with
    | none => throw networkFailed
    | some space => return space.links

/-- A link under its name. -/
def findLink (side : Side) (name : Text) : Script (Option Link) := do
  return (← links side).find name

/-- A link that must be there. -/
def lookupLink (side : Side) (name : Text) : Script Link := do
  match ← findLink side name with
  | none => throw .keyError
  | some link => return link

/-- `ip link set`. -/
def setLink (side : Side) (name : Text) (change : Change Link.ifname) : Script Unit :=
  act do
    let site ← get
    match site.namespaces side with
    | none => throw networkFailed
    | some space =>
      raiseIf ((space.links.find name).isNone) networkFailed
      set { site with
        namespaces := Function.update site.namespaces side
          (some { space with links := space.links.modify name change }) }

/-- The alias of a link is set. -/
def setAlias (marker : Text) : Change Link.ifname where
  apply link := { link with ifalias := some marker }
  key_apply _ := rfl

/-- A link joins a bridge. -/
def setMaster (master : Text) : Change Link.ifname where
  apply link := { link with master := some master }
  key_apply _ := rfl

/-- A link is set up. -/
def setUp : Change Link.ifname where
  apply link := { link with isUp := true }
  key_apply _ := rfl

/-- An end of a new pair. -/
def pairEnd (sha256 : Sha256) (marker name : Text) (mtu device index : ℕ) : Link where
  ifname := name
  ifindex := index
  kind := some "veth".toList
  group := linkGroup sha256 marker
  ifalias := none
  mtu := mtu
  master := none
  isUp := false
  device := device

/-- The site with a new pair, if both names are free. -/
def Site.withPair (site : Site) (sha256 : Sha256) (marker name : Text) (mtu : ℕ) : Option Site := do
  let half ← site.addLink .vm
    (pairEnd sha256 marker name mtu site.nextDevice site.nextIndices.1)
  let whole ← half.addLink .peer
    (pairEnd sha256 marker vethLocal mtu site.nextDevice site.nextIndices.2)
  return { whole with
    nextDevice := site.nextDevice + 1, created := site.nextDevice :: site.created }

/-- `ip link add` of the pair. -/
def createPair (sha256 : Sha256) (marker name : Text) (mtu : ℕ) : Script Unit :=
  act do
    let site ← get
    match site.withPair sha256 marker name mtu with
    | none => throw networkFailed
    | some whole => set whole

/-- `ip link delete`. -/
def deleteLink (side : Side) (name : Text) : Script Unit :=
  act do
    let site ← get
    match (site.namespaces side).bind fun space ↦ space.links.find name with
    | none => throw networkFailed
    | some link =>
      set { site.without (· = link.device) with deleted := link.device :: site.deleted }

/-- `check_link`. -/
def checkLink (sha256 : Sha256) (link : Link) (marker : Text) (index : Option ℕ)
    (incomplete : Bool) : Except Raised Unit :=
  failIf ((link.ifalias ≠ some marker ∧
        ¬ (incomplete = true ∧ (link.ifalias = none ∨ link.ifalias = some []))) ∨
      link.kind ≠ some "veth".toList ∨ link.group ≠ linkGroup sha256 marker ∨
        index.any (· ≠ link.ifindex))
    (.valueError "foreign or replaced attachment link")

/-! ### ADD -/

/-- `verify_bridge`. -/
def verifyBridge (binding : Binding) (attached : Bool) : Script Unit := do
  let current ← links .peer
  let bridgeName := "br-private".toList
  let uplinkName := "vxlan-private".toList
  match current.find bridgeName with
  | none => throw (.valueError "private bridge identity mismatch")
  | some bridge =>
    evaluate (failIf (bridge.kind ≠ some "bridge".toList ∨
        bridge.ifalias ≠ some (bridgeIdentity binding) ∨ bridge.mtu ≠ binding.mtu ∨
          bridge.isUp = false) (.valueError "private bridge identity mismatch"))
    let members := (current.rows.filter fun link ↦ link.master = some bridgeName).map Link.ifname
    let wanted := if attached then [uplinkName, vethLocal] else [uplinkName]
    evaluate (failIf (¬ (members ⊆ wanted ∧ wanted ⊆ members))
      (.valueError "unexpected private bridge membership"))
    evaluate (failIf (attached = false ∧ (current.find vethLocal).isSome = true)
      (.valueError "private attachment name occupied"))
    match current.find uplinkName with
    | none => throw .keyError
    | some uplink =>
      evaluate (failIf (uplink.kind ≠ some "vxlan".toList)
        (.valueError "private bridge uplink is not VXLAN"))
      examine

/-- One end of the pair gets its alias. -/
def markEnd (sha256 : Sha256) (marker : Text) (side : Side) (name : Text) : Script Unit := do
  let link ← lookupLink side name
  evaluate (checkLink sha256 link marker none true)
  setLink side name (setAlias marker)

/-- The checks of `add` before its first effect. -/
def prepare (request : Request) (binding : Binding) (vmIdentity : Identity) : Script Unit := do
  let _ ← openNamespace .vm (some vmIdentity) false
  let _ ← openNamespace .peer (some binding.privateIdentity) false
  let host ← act do return (← get).host
  evaluate (failIf (¬ [vmIdentity, binding.privateIdentity, binding.transportIdentity, host].Nodup)
    (.valueError "host, VM, private and transport namespaces must differ"))
  examine
  let current ← links .vm
  evaluate (failIf ((current.find request.ifname).isSome = true ∨
      (binding.role = .guest ∧ current.rows.map Link.ifname ≠ ["lo".toList]))
    (.valueError "guest has another interface or attachment name is occupied"))
  verifyBridge binding false
  examine

/-- The pair is created and completed, and its indices are returned. -/
def attach (sha256 : Sha256) (request : Request) (binding : Binding) (marker : Text) :
    Script (ℕ × ℕ) := do
  createPair sha256 marker request.ifname binding.mtu
  markEnd sha256 marker .vm request.ifname
  markEnd sha256 marker .peer vethLocal
  setLink .peer vethLocal (setMaster "br-private".toList)
  setLink .peer vethLocal setUp
  setLink .vm request.ifname setUp
  examine
  let vmLink ← lookupLink .vm request.ifname
  let peer ← lookupLink .peer vethLocal
  evaluate (checkLink sha256 vmLink marker none false)
  evaluate (checkLink sha256 peer marker none false)
  return (vmLink.ifindex, peer.ifindex)

/-- `add`. -/
def add (sha256 : Sha256) (request : Request) (binding : Binding) (vmIdentity : Identity) :
    Script Unit := do
  match ← readJournal with
  | some _ => throw (.valueError "attachment already attempted; DEL required")
  | none =>
    prepare request binding vmIdentity
    let marker := aliasOf sha256 request binding
    let saved : ActiveRecord :=
      { request := request, vmIdentity := some vmIdentity, indices := none, binding := binding,
        marker := marker }
    -- The intent is durable before the first effect.
    saveJournal saved
    let indices ← attach sha256 request binding marker
    saveJournal { saved with indices := some indices }

/-! ### DEL -/

/-- The end of one side, where it is there. -/
def candidate (sha256 : Sha256) (saved : ActiveRecord) (side : Side) (opened : Bool) :
    Script (Option (Side × Text)) := do
  if opened then
    match ← findLink side (saved.endName side) with
    | none => return none
    | some link =>
      evaluate (checkLink sha256 link saved.marker (saved.index side) saved.indices.isNone)
      return some (side, saved.endName side)
  else return none

/-- The first candidate is deleted. A failed command is excused if the link is gone all the same. -/
def deleteFirst : List (Side × Text) → Script Unit
  | [] => return ()
  | (side, name) :: _ =>
    tryCatch (deleteLink side name) fun failure ↦
      match failure with
      | .runtimeError _ => do
        if (← findLink side name).isSome then throw failure
      | _ => throw failure

/-- No candidate remains. -/
def confirmAbsent (candidates : List (Side × Text)) : Script Unit :=
  candidates.forM fun (side, name) ↦ do
    if (← findLink side name).isSome then throw (.runtimeError "attachment link remains")

/-- `delete`. -/
def delete (sha256 : Sha256) (saved : ActiveRecord) : Script Unit := do
  let vm ← openNamespace .vm (saved.expected .vm) true
  let peer ← openNamespace .peer (saved.expected .peer) true
  let first ← candidate sha256 saved .vm vm
  let second ← candidate sha256 saved .peer peer
  let candidates := first.toList ++ second.toList
  deleteFirst candidates
  confirmAbsent candidates
  unlinkJournal
  examine

/-! ### Calls -/

/-- A call of the plugin for one attachment. -/
inductive Call where
  | add (binding : Binding) (vmIdentity : Identity)
  | del (request : Request)

/-- `perform` after the manager was asked. -/
def perform (sha256 : Sha256) (request : Request) : Call → Script Unit
  | .add binding vmIdentity =>
    if Accepts request binding then add sha256 request binding vmIdentity
    else throw (.valueError "attachment identity mismatch")
  | .del request => do
    match ← readJournal with
    | none => return ()
    | some saved =>
      match saved.verifyCleanup request with
      | some failure => throw (.refused failure)
      | none => delete sha256 saved

/-- The end of a process closes its descriptors. -/
def Site.closed (site : Site) : Site :=
  { site with held := fun _ ↦ false }

end Ads.PtpTools.Attachment
