import Ads.SandboxEgress.OcspDer

/-!
# Fields that a substituted response keeps

`preserve_fields` of `ocsp_der.py` writes a regenerated response with the fields of its source that a
builder cannot set. What it writes is read as a response again, with `producedAt` and every
`SingleResponse` of the source but the selected one (`der_faithful`).
-/

set_option autoImplicit false
set_option relaxedAutoImplicit false

namespace Ads.SandboxEgress.OcspDer

open Dns Foundation.StateExcept

/-! ### Envelopes -/

/-- The element at an index of a list. -/
def item (elements : List DER) (index : ℕ) : Except Raised DER :=
  match elements[index]? with
  | some element => return element
  | none => throw .indexError

/-- The last element of a list. -/
def lastItem (elements : List DER) : Except Raised DER :=
  match elements.getLast? with
  | some element => return element
  | none => throw .indexError

/-- The only element of a list. -/
def only (text : String) : List DER → Except Raised DER
  | [element] => return element
  | _ => throw (.valueError text)

/-- The second of two elements, the first of which is written so. -/
def after (first : Bytes) (text : String) : List DER → Except Raised DER
  | [element, second] => if element.wire = first then return second else throw (.valueError text)
  | _ => throw (.valueError text)

/-- What `_envelope` returns. -/
structure Envelope where
  status : List DER
  response : List DER
  basic : List DER
  tbs : List DER

/-- The `responseStatus` of a successful response. -/
def successful : Bytes :=
  [0x0a, 0x01, 0x00]

/-- The `responseType` of a basic response. -/
def basicResponse : Bytes :=
  [0x06, 0x09, 0x2b, 0x06, 0x01, 0x05, 0x05, 0x07, 0x30, 0x01, 0x01]

/-- `_envelope`. -/
def envelope (wire : Bytes) : Except Raised Envelope := do
  let outer ← only "OCSP outer envelope" (← parse wire)
  let status ← outer.children 0x30
  let wrapper ← (← after successful "OCSP successful response required" status).children 0xA0
  let response ← (← only "OCSP response wrapper" wrapper).children 0x30
  let basicWrapper ←
    (← after basicResponse "OCSP BasicResponse required" response).children 0x04
  let basic ← (← only "OCSP basic wrapper" basicWrapper).children 0x30
  failIf (¬ (3 ≤ basic.length ∧ basic.length ≤ 4)) (.valueError "OCSP basic response fields")
  let tbs ← (← item basic 0).children 0x30
  return ⟨status, response, basic, tbs⟩

/-! ### Preserving fields -/

/-- Where the responder stands in the fields of the response data, which a version may precede. -/
def startOf (tbs : List DER) : Except Raised ℕ := do
  let first ← item tbs 0
  return if first.tag = 0xA0 then 1 else 0

/-- The `SingleResponse` with the extensions of the prior one. -/
def withExtensions (single prior : List DER) : Except Raised (List DER) := do
  let extensions ← lastItem prior
  if extensions.tag = 0xA1 then do
    let own ← lastItem single
    return (if own.tag = 0xA1 then single.dropLast else single) ++ [extensions]
  else return single

/-- The content of a positive integer. -/
def integerBytes (value : ℕ) : Bytes :=
  let integer := toBytes (byteLength value) value
  if integer.head?.any fun byte ↦ 128 ≤ byte.val then 0 :: integer else integer

/-- The `SingleResponse` with another serial number, if one is wanted. -/
def withSerial (single : List DER) : Option ℤ → Except Raised (List DER)
  | none => return single
  | some serial => do
    failIf (¬ (0 < serial ∧ serial < 2 ^ 160))
      (.valueError "bounded deliberately mismatched serial")
    let certid ← (← item single 0).children 0x30
    failIf (certid.length ≠ 4 ∨ certid.getLast?.map DER.tag ≠ some 2)
      (.valueError "OCSP CertID fields")
    return single.set 0 (sequence 0x30 (certid.dropLast ++ [⟨2, integerBytes serial.toNat⟩]))

/-- The signature, with its last bit inverted if an invalid one is wanted. -/
def withSignature (signature : Bytes) (isInvalid : Bool) : Except Raised Bytes :=
  if isInvalid then
    match signature.getLast? with
    | none => throw .indexError
    | some last => return signature.dropLast ++ [Fin.ofNat 256 (last.val ^^^ 1)]
  else return signature

/-- An element of the response data that must have one of some tags. -/
def checkTag (tbs : List DER) (index : ℕ) (tags : List Octet) : Except Raised Unit := do
  let element ← item tbs index
  failIf (element.tag ∉ tags) (.valueError "OCSP ResponseData shape")

/-- `preserve_fields`, with the signature as a function of what is signed. -/
def preserveFields (sign : Bytes → Bytes) (candidate source : Bytes) (wrongSerial : Option ℤ)
    (isInvalid : Bool) (sourceIndex : ℤ) : Except Raised Bytes := do
  let given ← envelope candidate
  let original ← envelope source
  let start ← startOf given.tbs
  let originalStart ← startOf original.tbs
  checkTag given.tbs start [0xA1, 0xA2]
  checkTag original.tbs originalStart [0xA1, 0xA2]
  checkTag given.tbs (start + 1) [0x18]
  checkTag original.tbs (originalStart + 1) [0x18]
  let producedAt ← item original.tbs (originalStart + 1)
  let singles ← (← item given.tbs (start + 2)).children 0x30
  let originals ← (← item original.tbs (originalStart + 2)).children 0x30
  failIf (singles.length ≠ 1 ∨ ¬ (1 ≤ originals.length ∧ originals.length ≤ 16) ∨
      ¬ (0 ≤ sourceIndex ∧ sourceIndex < originals.length))
    (.valueError "OCSP bounded selected response required")
  let single ← (← item singles 0).children 0x30
  let prior ← (← item originals sourceIndex.toNat).children 0x30
  let single ← withExtensions single prior
  let single ← withSerial single wrongSerial
  let originals := originals.set sourceIndex.toNat (sequence 0x30 single)
  let tbs := (given.tbs.set (start + 1) producedAt).set (start + 2) (sequence 0x30 originals)
  let data := sequence 0x30 tbs
  let signature ← withSignature (sign data.wire) isInvalid
  let basic := (given.basic.set 0 data).set 2 ⟨3, 0 :: signature⟩
  let response := given.response.set 1 ⟨4, (sequence 0x30 basic).wire⟩
  let status := given.status.set 1 (sequence 0xA0 [sequence 0x30 response])
  let result := (sequence 0x30 status).wire
  failIf (65536 < result.length) (.valueError "substituted OCSP size budget")
  return result

/-- The `producedAt` of the response data. -/
def producedAt (tbs : List DER) : Except Raised DER := do
  item tbs ((← startOf tbs) + 1)

/-- The `SingleResponse`s of the response data. -/
def singleResponses (tbs : List DER) : Except Raised (List DER) := do
  (← item tbs ((← startOf tbs) + 2)).children 0x30

/-! ### Trees -/

/-- The reader may read the tag. -/
def IsLow (tag : Octet) : Prop :=
  tag.val % 32 ≠ 31

instance : DecidablePred IsLow :=
  fun tag ↦ inferInstanceAs (Decidable (tag.val % 32 ≠ 31))

/-- Trees of elements, one after the other: the first one has a value or children, and the rest
follow it. -/
inductive Forest
  | nil
  | primitive (tag : Octet) (value : Bytes) (rest : Forest)
  | constructed (tag : Octet) (children rest : Forest)
deriving DecidableEq

namespace Forest

/-- The elements of the trees. -/
def elements : Forest → List DER
  | nil => []
  | primitive tag value rest => ⟨tag, value⟩ :: rest.elements
  | constructed tag children rest => sequence tag children.elements :: rest.elements

/-- The trees in some elements, of which those are opened that have children in the forest. -/
def readAs : Forest → List DER → Except Raised Forest
  | nil, [] => return nil
  | primitive _ _ rest, element :: others => do
    return primitive element.tag element.value (← rest.readAs others)
  | constructed tag children rest, element :: others => do
    return constructed element.tag (← children.readAs (← element.children tag))
      (← rest.readAs others)
  | _, _ => throw .indexError

/-- Every element has a low tag and at most 256 children. -/
def IsNarrow : Forest → Prop
  | nil => True
  | primitive tag _ rest => IsLow tag ∧ rest.IsNarrow
  | constructed tag children rest =>
    IsLow tag ∧ children.elements.length ≤ 256 ∧ children.IsNarrow ∧ rest.IsNarrow

/-- The trees are within the bounds of the reader. -/
structure IsBounded (forest : Forest) : Prop where
  many : forest.elements.length ≤ 256
  narrow : forest.IsNarrow
  bytes : (written forest.elements).length ≤ 65536

end Forest

/-! ### Reading envelopes -/

variable {elements : List DER} {element : DER} {index : ℕ} {text : String} {wire : Bytes}

@[simp] theorem item_eq_ok : item elements index = .ok element ↔ elements[index]? = some element := by
  unfold item
  split
  · rename_i found hfound
    rw [hfound, Option.some.injEq]
    exact ⟨Except.ok.inj, congrArg _⟩
  · rename_i hnone
    rw [hnone]
    exact ⟨fun h ↦ (by cases h), fun h ↦ (by cases h)⟩

@[simp] theorem only_eq_ok : only text elements = .ok element ↔ elements = [element] := by
  unfold only
  split
  · rw [List.cons.injEq]
    exact ⟨fun h ↦ ⟨Except.ok.inj h, rfl⟩, fun h ↦ congrArg _ h.1⟩
  · rename_i hother
    exact ⟨fun h ↦ (by cases h), fun h ↦ absurd h (hother element)⟩

@[simp] theorem after_eq_ok {first : Bytes} : after first text elements = .ok element ↔
    ∃ before, elements = [before, element] ∧ before.wire = first := by
  unfold after
  split
  · rename_i before second
    split_ifs with hfirst
    · constructor
      · intro hsecond
        exact ⟨before, by rw [Except.ok.inj hsecond], hfirst⟩
      · rintro ⟨_, hpair, -⟩
        rw [(List.cons.inj (List.cons.inj hpair).2).1]
        rfl
    · refine ⟨fun h ↦ (by cases h), ?_⟩
      rintro ⟨_, hpair, hwire⟩
      rw [← (List.cons.inj hpair).1] at hwire
      exact absurd hwire hfirst
  · rename_i hother
    refine ⟨fun h ↦ (by cases h), ?_⟩
    rintro ⟨before, hpair, -⟩
    exact absurd hpair (hother before element)

/-- The layers of a response around its data. -/
structure Envelope.Layers (opened : Envelope) (wire : Bytes)
    (outer body wrapper inner basicWrapper data : DER) : Prop where
  parses : parse wire = .ok [outer]
  status : outer.children 0x30 = .ok opened.status
  succeeds : ∃ before, opened.status = [before, body] ∧ before.wire = successful
  wraps : body.children 0xA0 = .ok [wrapper]
  response : wrapper.children 0x30 = .ok opened.response
  isBasic : ∃ before, opened.response = [before, inner] ∧ before.wire = basicResponse
  wrapsBasic : inner.children 0x04 = .ok [basicWrapper]
  basic : basicWrapper.children 0x30 = .ok opened.basic
  fields : 3 ≤ opened.basic.length ∧ opened.basic.length ≤ 4
  signed : opened.basic[0]? = some data
  tbs : data.children 0x30 = .ok opened.tbs

/-- An envelope is read through its layers. -/
theorem envelope_eq_ok {opened : Envelope} : envelope wire = .ok opened ↔
    ∃ outer body wrapper inner basicWrapper data,
      opened.Layers wire outer body wrapper inner basicWrapper data := by
  unfold envelope
  simp only [except_bind_eq_ok, only_eq_ok, after_eq_ok, item_eq_ok, failIf_eq_ok, not_not]
  constructor
  · rintro ⟨_, hparse, outer, rfl, status, hstatus, body, hbody, _, hwrapper, wrapper, rfl, response,
      hresponse, inner, hinner, _, hbasicWrapper, basicWrapper, rfl, basic, hbasic, _, hfields, data,
      hdata, tbs, htbs, hopened⟩
    obtain rfl := Except.ok.inj hopened
    exact ⟨outer, body, wrapper, inner, basicWrapper, data, ⟨hparse, hstatus, hbody, hwrapper,
      hresponse, hinner, hbasicWrapper, hbasic, hfields, hdata, htbs⟩⟩
  · rintro ⟨outer, body, wrapper, inner, basicWrapper, data, hlayers⟩
    exact ⟨_, hlayers.parses, outer, rfl, _, hlayers.status, body, hlayers.succeeds, _, hlayers.wraps,
      wrapper, rfl, _, hlayers.response, inner, hlayers.isBasic, _, hlayers.wrapsBasic, basicWrapper,
      rfl, _, hlayers.basic, (), hlayers.fields, data, hlayers.signed, _, hlayers.tbs, rfl⟩

/-! ### Writing envelopes -/

variable {tag : Octet} {children : List DER}

theorem children_eq_ok :
    element.children tag = .ok children ↔ element.tag = tag ∧ parse element.value = .ok children := by
  unfold DER.children
  simp [except_bind_eq_ok]

/-- The children of an element are not many and have low tags. -/
theorem children_spec (hchildren : element.children tag = .ok children) :
    children.length ≤ 256 ∧ ∀ child ∈ children, IsLow child.tag := by
  obtain ⟨-, hmany, hall, -⟩ := written_parse (children_eq_ok.mp hchildren).2
  exact ⟨hmany, fun child hchild ↦ (hall child hchild).tag⟩

/-- An element is no longer than all that is written. -/
theorem length_wire_le_written (helement : element ∈ elements) :
    element.wire.length ≤ (written elements).length := by
  obtain ⟨before, rest, rfl⟩ := List.append_of_mem helement
  simp only [written, List.flatMap_append, List.flatMap_cons, List.length_append]
  omega

/-- A child is no longer than its sequence. -/
theorem length_wire_le (helement : element ∈ children) :
    element.wire.length ≤ (sequence tag children).wire.length := by
  have hwritten := length_wire_le_written helement
  simp only [DER.wire, sequence, List.length_append] at hwritten ⊢
  omega

/-- A sequence within the bounds has the children that it was made of. -/
theorem children_sequence (hmany : children.length ≤ 256) (htags : ∀ child ∈ children, IsLow child.tag)
    (hbytes : (sequence tag children).wire.length ≤ 65536) :
    (sequence tag children).children tag = .ok children := by
  refine children_eq_ok.mpr ⟨rfl, parse_written hmany htags (le_trans ?_ hbytes)⟩
  simp only [DER.wire, sequence, List.length_append]
  omega

/-- A sequence of one element contains what the element is written as. -/
theorem sequence_singleton : sequence tag [element] = ⟨tag, element.wire⟩ := by
  simp [sequence, written]

/-- The envelope around other response data, with another signature. -/
def Envelope.rewrapped (given : Envelope) (tbs : List DER) (signature : Bytes) : Envelope :=
  let basic := (given.basic.set 0 (sequence 0x30 tbs)).set 2 ⟨3, signature⟩
  let response := given.response.set 1 ⟨4, (sequence 0x30 basic).wire⟩
  ⟨given.status.set 1 (sequence 0xA0 [sequence 0x30 response]), response, basic, tbs⟩

/-- An envelope that is written around other response data is read so. -/
theorem envelope_rewrapped {given : Envelope} {candidate : Bytes}
    (hgiven : envelope candidate = .ok given) {tbs : List DER} {signature : Bytes}
    (hmany : tbs.length ≤ 256) (htags : ∀ field ∈ tbs, IsLow field.tag)
    (hbytes : (sequence 0x30 (given.rewrapped tbs signature).status).wire.length ≤ 65536) :
    envelope (sequence 0x30 (given.rewrapped tbs signature).status).wire =
      .ok (given.rewrapped tbs signature) := by
  obtain ⟨outer, body, wrapper, inner, basicWrapper, data, hlayers⟩ := envelope_eq_ok.mp hgiven
  obtain ⟨succeeds, hstatus, hsuccessful⟩ := hlayers.succeeds
  obtain ⟨isBasic, hresponse, hbasicResponse⟩ := hlayers.isBasic
  obtain ⟨-, hstatusTags⟩ := children_spec hlayers.status
  obtain ⟨-, hresponseTags⟩ := children_spec hlayers.response
  obtain ⟨-, hbasicTags⟩ := children_spec hlayers.basic
  obtain ⟨made, hmade⟩ : ∃ made, given.rewrapped tbs signature = made := ⟨_, rfl⟩
  have hbasic : made.basic = (given.basic.set 0 (sequence 0x30 tbs)).set 2 ⟨3, signature⟩ := by
    rw [← hmade, Envelope.rewrapped]
  have hinner : made.response = [isBasic, sequence 0x04 [sequence 0x30 made.basic]] := by
    have hset : made.response = given.response.set 1 ⟨4, (sequence 0x30 made.basic).wire⟩ := by
      rw [hbasic, ← hmade, Envelope.rewrapped]
    rw [hset, hresponse, sequence_singleton]
    rfl
  have hbody : made.status = [succeeds, sequence 0xA0 [sequence 0x30 made.response]] := by
    rw [← hmade, Envelope.rewrapped, hstatus]
    rfl
  have htbs : made.tbs = tbs := by
    rw [← hmade, Envelope.rewrapped]
  rw [hmade] at hbytes ⊢
  -- Each layer is no longer than the one around it.
  have hbodyBytes : (sequence 0xA0 [sequence 0x30 made.response]).wire.length ≤ 65536 :=
    (length_wire_le (by rw [hbody]; simp)).trans hbytes
  have hwrapperBytes : (sequence 0x30 made.response).wire.length ≤ 65536 :=
    (length_wire_le (List.mem_singleton.mpr rfl)).trans hbodyBytes
  have hinnerBytes : (sequence 0x04 [sequence 0x30 made.basic]).wire.length ≤ 65536 :=
    (length_wire_le (by rw [hinner]; simp)).trans hwrapperBytes
  have hbasicBytes : (sequence 0x30 made.basic).wire.length ≤ 65536 :=
    (length_wire_le (List.mem_singleton.mpr rfl)).trans hinnerBytes
  have hfields := hlayers.fields
  have hlength : made.basic.length = given.basic.length := by
    rw [hbasic, List.length_set, List.length_set]
  have hfirst : made.basic[0]? = some (sequence 0x30 tbs) := by
    have hpos : 0 < given.basic.length := by omega
    rw [hbasic, List.getElem?_set_ne (by decide), List.getElem?_set_self hpos]
  have hdataBytes : (sequence 0x30 tbs).wire.length ≤ 65536 :=
    (length_wire_le (List.mem_of_getElem? hfirst)).trans hbasicBytes
  have hbasicLow : ∀ child ∈ made.basic, IsLow child.tag := by
    rw [hbasic]
    intro child hchild
    rcases List.mem_or_eq_of_mem_set hchild with hchild | rfl
    · rcases List.mem_or_eq_of_mem_set hchild with hchild | rfl
      · exact hbasicTags child hchild
      · exact (by decide : IsLow 0x30)
    · exact (by decide : IsLow 3)
  have houterLow : ∀ child ∈ made.status, IsLow child.tag := by
    rw [hbody]
    refine List.forall_mem_cons.mpr ⟨hstatusTags _ (by simp [hstatus]), ?_⟩
    exact List.forall_mem_singleton.mpr (by decide : IsLow 0xA0)
  have hresponseLow : ∀ child ∈ made.response, IsLow child.tag := by
    rw [hinner]
    refine List.forall_mem_cons.mpr ⟨hresponseTags _ (by simp [hresponse]), ?_⟩
    exact List.forall_mem_singleton.mpr (by decide : IsLow 0x04)
  have hsequenceLow : ∀ children, ∀ child ∈ [sequence 0x30 children], IsLow child.tag :=
    fun children ↦ List.forall_mem_singleton.mpr (by decide : IsLow 0x30)
  refine envelope_eq_ok.mpr ⟨sequence 0x30 made.status, sequence 0xA0 [sequence 0x30 made.response],
    sequence 0x30 made.response, sequence 0x04 [sequence 0x30 made.basic], sequence 0x30 made.basic,
    sequence 0x30 tbs, ?_⟩
  constructor
  · have hwritten : written [sequence 0x30 made.status] = (sequence 0x30 made.status).wire := by
      simp [written]
    rw [← hwritten]
    exact parse_written (by simp) (hsequenceLow _) (by rwa [hwritten])
  · exact children_sequence (by rw [hbody]; simp) houterLow hbytes
  · exact ⟨succeeds, hbody, hsuccessful⟩
  · exact children_sequence (by simp) (hsequenceLow _) hbodyBytes
  · exact children_sequence (by rw [hinner]; simp) hresponseLow hwrapperBytes
  · exact ⟨isBasic, hinner, hbasicResponse⟩
  · exact children_sequence (by simp) (hsequenceLow _) hinnerBytes
  · exact children_sequence (by rw [hlength]; omega) hbasicLow hbasicBytes
  · rw [hlength]
    exact hfields
  · exact hfirst
  · rw [htbs]
    exact children_sequence hmany htags hdataBytes

/-! ### Reading trees -/

/-- Narrow trees have low tags. -/
theorem isLow_of_isNarrow {forest : Forest} (hnarrow : forest.IsNarrow) :
    ∀ element ∈ forest.elements, IsLow element.tag := by
  induction forest with
  | nil => simp [Forest.elements]
  | primitive tag value rest ih => exact List.forall_mem_cons.mpr ⟨hnarrow.1, ih hnarrow.2⟩
  | constructed tag children rest _ ih =>
    exact List.forall_mem_cons.mpr ⟨hnarrow.1, ih hnarrow.2.2.2⟩

/-- Trees whose elements are within the bounds are read from them. -/
theorem readAs_elements {forest : Forest} (hnarrow : forest.IsNarrow)
    (hbytes : ∀ element ∈ forest.elements, element.wire.length ≤ 65536) :
    forest.readAs forest.elements = .ok forest := by
  induction forest with
  | nil => rfl
  | primitive tag value rest ih =>
    have hrest := ih hnarrow.2 (List.forall_mem_cons.mp hbytes).2
    unfold Forest.elements Forest.readAs
    rw [hrest]
    rfl
  | constructed tag children rest ihchildren ihrest =>
    obtain ⟨-, hmany, hchildren, hrest⟩ := hnarrow
    obtain ⟨hfirst, hothers⟩ := List.forall_mem_cons.mp hbytes
    have hopened : (sequence tag children.elements).children tag = .ok children.elements :=
      children_sequence hmany (isLow_of_isNarrow hchildren) hfirst
    have hinside := ihchildren hchildren fun child hchild ↦ (length_wire_le hchild).trans hfirst
    unfold Forest.elements Forest.readAs
    simp only [hopened, hinside, ihrest hrest hothers, bind, Except.bind]
    rfl

/-- Trees within the bounds are read from what they are written as. -/
theorem readAs_written {forest : Forest} (hbounded : forest.IsBounded) :
    (do forest.readAs (← parse (written forest.elements))) = .ok forest := by
  have hparse := parse_written hbounded.many (isLow_of_isNarrow hbounded.narrow) hbounded.bytes
  rw [hparse]
  exact readAs_elements hbounded.narrow fun element helement ↦
    (length_wire_le_written helement).trans hbounded.bytes

/-! ### What is preserved -/

/-- The second response has the `producedAt` of the first one and all its `SingleResponse`s but the
one at the index. -/
def Preserves (original made : Envelope) (index : ℤ) : Prop :=
  (∃ time, producedAt original.tbs = .ok time ∧ producedAt made.tbs = .ok time) ∧
    ∃ originals selected, singleResponses original.tbs = .ok originals ∧
      singleResponses made.tbs = .ok (originals.set index.toNat selected) ∧
        0 ≤ index ∧ index < originals.length

/-- The fields of an envelope are not many and have low tags. -/
theorem envelope_spec {opened : Envelope} (hopened : envelope wire = .ok opened) :
    opened.tbs.length ≤ 256 ∧ (∀ field ∈ opened.tbs, IsLow field.tag) ∧
      ∀ field ∈ opened.tbs, field.wire.length ≤ 65536 := by
  obtain ⟨_, _, _, _, _, data, hlayers⟩ := envelope_eq_ok.mp hopened
  obtain ⟨hmany, hlow⟩ := children_spec hlayers.tbs
  obtain ⟨hwritten, -, -, hbytes⟩ := written_parse (children_eq_ok.mp hlayers.tbs).2
  refine ⟨hmany, hlow, fun field hfield ↦ ?_⟩
  rw [← hwritten] at hbytes
  exact (length_wire_le_written hfield).trans hbytes

/-- The responder stands where it stood when later fields are replaced. -/
theorem startOf_set {tbs : List DER} {place : ℕ} : startOf (tbs.set (place + 1) element) = startOf tbs := by
  unfold startOf item
  rw [List.getElem?_set_ne (Nat.succ_ne_zero place)]

/-- What `preserve_fields` returns is read as a response with what it must keep. -/
theorem preserveFields_keeps {sign : Bytes → Bytes} {candidate source result : Bytes}
    {wrongSerial : Option ℤ} {isInvalid : Bool} {sourceIndex : ℤ}
    (hrun : preserveFields sign candidate source wrongSerial isInvalid sourceIndex = .ok result) :
    ∃ original made, envelope source = .ok original ∧ envelope result = .ok made ∧
      Preserves original made sourceIndex := by
  unfold preserveFields at hrun
  obtain ⟨given, hgiven, hrun⟩ := except_bind_eq_ok.mp hrun
  obtain ⟨original, horiginal, hrun⟩ := except_bind_eq_ok.mp hrun
  obtain ⟨start, hstart, hrun⟩ := except_bind_eq_ok.mp hrun
  obtain ⟨originalStart, horiginalStart, hrun⟩ := except_bind_eq_ok.mp hrun
  obtain ⟨_, -, hrun⟩ := except_bind_eq_ok.mp hrun
  obtain ⟨_, -, hrun⟩ := except_bind_eq_ok.mp hrun
  obtain ⟨_, -, hrun⟩ := except_bind_eq_ok.mp hrun
  obtain ⟨_, -, hrun⟩ := except_bind_eq_ok.mp hrun
  obtain ⟨time, htime, hrun⟩ := except_bind_eq_ok.mp hrun
  obtain ⟨place, hplace, hrun⟩ := except_bind_eq_ok.mp hrun
  obtain ⟨singles, -, hrun⟩ := except_bind_eq_ok.mp hrun
  obtain ⟨originalPlace, horiginalPlace, hrun⟩ := except_bind_eq_ok.mp hrun
  obtain ⟨originals, horiginals, hrun⟩ := except_bind_eq_ok.mp hrun
  obtain ⟨_, hselected, hrun⟩ := except_bind_eq_ok.mp hrun
  obtain ⟨_, -, hrun⟩ := except_bind_eq_ok.mp hrun
  obtain ⟨_, -, hrun⟩ := except_bind_eq_ok.mp hrun
  obtain ⟨_, -, hrun⟩ := except_bind_eq_ok.mp hrun
  obtain ⟨_, -, hrun⟩ := except_bind_eq_ok.mp hrun
  obtain ⟨_, -, hrun⟩ := except_bind_eq_ok.mp hrun
  obtain ⟨single, -, hrun⟩ := except_bind_eq_ok.mp hrun
  obtain ⟨signature, -, hrun⟩ := except_bind_eq_ok.mp hrun
  obtain ⟨_, hbudget, hrun⟩ := except_bind_eq_ok.mp hrun
  have hresult := Except.ok.inj hrun
  rw [failIf_eq_ok, not_lt] at hbudget
  rw [failIf_eq_ok, not_or, not_or, not_not, not_not] at hselected
  obtain ⟨-, ⟨-, hfew⟩, hindex⟩ := hselected
  rw [item_eq_ok] at htime hplace
  obtain ⟨hgivenMany, hgivenLow, -⟩ := envelope_spec hgiven
  obtain ⟨-, horiginalLow, -⟩ := envelope_spec horiginal
  obtain ⟨-, hsinglesLow⟩ := children_spec horiginals
  obtain ⟨chosen, hchosen⟩ : ∃ chosen, originals.set sourceIndex.toNat (sequence 0x30 single) = chosen :=
    ⟨_, rfl⟩
  obtain ⟨tbs, htbs⟩ : ∃ tbs, (given.tbs.set (start + 1) time).set (start + 2) (sequence 0x30 chosen) = tbs :=
    ⟨_, rfl⟩
  rw [hchosen, htbs] at hresult hbudget
  -- The result is the envelope of the candidate around the new response data.
  have hlength : tbs.length = given.tbs.length := by
    rw [← htbs, List.length_set, List.length_set]
  have hlow : ∀ field ∈ tbs, IsLow field.tag := by
    rw [← htbs]
    intro field hfield
    rcases List.mem_or_eq_of_mem_set hfield with hfield | rfl
    · rcases List.mem_or_eq_of_mem_set hfield with hfield | rfl
      · exact hgivenLow field hfield
      · exact horiginalLow _ (List.mem_of_getElem? htime)
    · exact (by decide : IsLow 0x30)
  have hmade : envelope result = .ok (given.rewrapped tbs (0 :: signature)) := by
    rw [← hresult]
    exact envelope_rewrapped hgiven (hlength ▸ hgivenMany) hlow hbudget
  have hbound : start + 2 < given.tbs.length := (List.getElem?_eq_some_iff.mp hplace).1
  have hstartMade : startOf tbs = .ok start := by
    rw [← htbs, startOf_set, startOf_set, hstart]
  have htimeMade : tbs[start + 1]? = some time := by
    rw [← htbs, List.getElem?_set_ne (by omega), List.getElem?_set_self (by omega)]
  have hplaceMade : tbs[start + 2]? = some (sequence 0x30 chosen) := by
    rw [← htbs, List.getElem?_set_self (by rw [List.length_set]; exact hbound)]
  have hchildren : (sequence 0x30 chosen).children 0x30 = .ok chosen := by
    refine children_sequence ?_ ?_ ?_
    · rw [← hchosen, List.length_set]
      omega
    · rw [← hchosen]
      intro child hchild
      rcases List.mem_or_eq_of_mem_set hchild with hchild | rfl
      · exact hsinglesLow child hchild
      · exact (by decide : IsLow 0x30)
    · exact (envelope_spec hmade).2.2 _ (List.mem_of_getElem? hplaceMade)
  refine ⟨original, _, horiginal, hmade, ⟨time, ?_, ?_⟩, originals, sequence 0x30 single, ?_, ?_,
    not_not.mp hindex⟩
  · exact except_bind_eq_ok.mpr ⟨originalStart, horiginalStart, item_eq_ok.mpr htime⟩
  · exact except_bind_eq_ok.mpr ⟨start, hstartMade, item_eq_ok.mpr htimeMade⟩
  · exact except_bind_eq_ok.mpr ⟨originalStart, horiginalStart,
      except_bind_eq_ok.mpr ⟨originalPlace, horiginalPlace, horiginals⟩⟩
  · rw [hchosen]
    exact except_bind_eq_ok.mpr ⟨start, hstartMade,
      except_bind_eq_ok.mpr ⟨_, item_eq_ok.mpr hplaceMade, hchildren⟩⟩

/-- DER rewriting keeps what it must keep:

* what is parsed of any bytes is written as these bytes,
* trees of elements within the bounds are read from what they are written as,
* for every way to sign, every candidate, source, serial number and index that `preserve_fields`
  accepts, the result is read as a response through all its layers, and it has the `producedAt` of
  the source and every `SingleResponse` of the source but the selected one. -/
theorem der_faithful :
    (∀ wire elements, parse wire = .ok elements → written elements = wire) ∧
      (∀ forest : Forest, forest.IsBounded →
        (do forest.readAs (← parse (written forest.elements))) = .ok forest) ∧
      ∀ (sign : Bytes → Bytes) (candidate source result : Bytes) (wrongSerial : Option ℤ)
        (isInvalid : Bool) (sourceIndex : ℤ),
        preserveFields sign candidate source wrongSerial isInvalid sourceIndex = .ok result →
          ∃ original made, envelope source = .ok original ∧ envelope result = .ok made ∧
            Preserves original made sourceIndex :=
  ⟨fun _ _ hparse ↦ (written_parse hparse).1, fun _ hbounded ↦ readAs_written hbounded,
    fun _ _ _ _ _ _ _ hrun ↦ preserveFields_keeps hrun⟩

namespace Example

/-- A small response that was produced at some time. -/
def response (time : Bytes) : Bytes :=
  let tbs := sequence 0x30 [⟨0xA1, []⟩, ⟨0x18, time⟩,
    sequence 0x30 [sequence 0x30 [⟨0x30, time⟩], sequence 0x30 [⟨0x05, []⟩]]]
  let basic := sequence 0x30 [tbs, ⟨0x30, []⟩, ⟨0x03, [0]⟩]
  let response := sequence 0x30 [⟨0x06, basicResponse.drop 2⟩, ⟨0x04, basic.wire⟩]
  (sequence 0x30 [⟨0x0a, [0]⟩, sequence 0xA0 [response]]).wire

/-- The same response about a single certificate. -/
def candidate : Bytes :=
  let tbs := sequence 0x30 [⟨0xA1, []⟩, ⟨0x18, [7]⟩, sequence 0x30 [sequence 0x30 [⟨0x30, []⟩]]]
  let basic := sequence 0x30 [tbs, ⟨0x30, []⟩, ⟨0x03, [0]⟩]
  let response := sequence 0x30 [⟨0x06, basicResponse.drop 2⟩, ⟨0x04, basic.wire⟩]
  (sequence 0x30 [⟨0x0a, [0]⟩, sequence 0xA0 [response]]).wire

end Example

/-- The small response keeps its fields in the candidate. -/
theorem der_faithful_small :
    ∃ original made result, preserveFields id Example.candidate (Example.response [1, 2]) none false 0 =
        .ok result ∧ envelope (Example.response [1, 2]) = .ok original ∧
      envelope result = .ok made ∧ Preserves original made 0 := by
  have haccepts : (preserveFields id Example.candidate (Example.response [1, 2]) none false 0).toBool =
      true := by decide +kernel
  cases hrun : preserveFields id Example.candidate (Example.response [1, 2]) none false 0 with
  | error raised => simp [hrun, Except.toBool] at haccepts
  | ok result =>
    obtain ⟨original, made, hkept⟩ := der_faithful.2.2 _ _ _ _ _ _ _ hrun
    exact ⟨original, made, result, rfl, hkept⟩

end Ads.SandboxEgress.OcspDer
