import Aqua.Model.Encoder
import Aqua.Soundness.OmittedFields

/-! # PUBREL through encoder and decoder

The encoder leaves the reason code and the properties out if there are neither, the decoder takes them for
missing if two bytes are announced. A PUBREL with a reason code is always longer: at least an empty property
block stands behind the code. But the encoder takes an empty set of properties for properties: without a
reason code it announces them and does not write them, and the decoder reads a reason code from whatever
comes behind.
-/

namespace Aqua

open Wire Wire.Reader

namespace Pubrel

variable {p : Pubrel}

/-- The properties, an empty set if there are none. -/
def properties (p : Pubrel) : PubrelProperties := p.pubrelProperties.getD {}

/-- What follows the fixed header. -/
def content (p : Pubrel) : Bytes :=
  be16Bytes p.packetId.value ++
    match p.reasonCode with
    | none => []
    | some code => code.toByte :: (encodeVariableBytes p.properties.written.length ++ p.properties.written)

/-- The size of what follows the fixed header. -/
def contentSize (p : Pubrel) : ℕ :=
  match p.reasonCode with
  | none => 2
  | some _ => 3 + (encodeVariableBytes p.properties.size).length + p.properties.size

private theorem content_length (p : Pubrel) : p.content.length = p.contentSize := by
  unfold content contentSize
  cases p.reasonCode with
  | none => rfl
  | some code =>
    simp only [List.length_append, List.length_cons, be16Bytes_length, PubrelProperties.written_length]
    omega

/-- The values the encoder is given: properties only behind a reason code (an empty set is none), short strings,
and a content whose length can be announced. -/
structure Encodable (p : Pubrel) : Prop where
  reasonCode : p.reasonCode = none → p.properties = {}
  pubrelProperties : ∀ set ∈ p.pubrelProperties, set.Fits
  contentSize : p.contentSize < 2 ^ 28

/-- It is encoded, and a fresh decoder of version 5 that holds the encoding and the bytes behind it emits the same
PUBREL and keeps those bytes. -/
def ReadBack (build : Build) (p : Pubrel) (s : Bytes) : Prop :=
  ∃ bytes, Encoder.encodeAll (.pubrel p) = .ok bytes ∧ ∃ (out : Pubrel) (next : Decoder),
    ((Decoder.new.setProtocolVersion (some ⟨5⟩)).feed (bytes ++ s)).Emits build (.pubrel out) next ∧
      out.packetId = p.packetId ∧ out.reasonCode = p.reasonCode ∧ out.properties = p.properties ∧ next.buf = s

private theorem Encodable.properties (fits : p.Encodable) : p.properties.Fits := by
  unfold Pubrel.properties
  cases known : p.pubrelProperties with
  | none => exact ⟨nofun, nofun⟩
  | some set => exact fits.pubrelProperties set known

private theorem Encodable.content (fits : p.Encodable) : p.content.length < 2 ^ 28 := by
  rw [content_length]
  exact fits.contentSize

private theorem encodeAll_eq (fits : p.Encodable) (five : p.protocolVersion = ⟨5⟩)
    (plain : p.reasonCode = none → p.pubrelProperties = none) :
    Encoder.encodeAll (.pubrel p) = .ok (Frame.around 0x62 fits.content).bytes := by
  have written : (p.pubrelProperties.getD {}).encode = .ok p.properties.written :=
    PubrelProperties.putReasonAndUser_eq fits.properties
  have header : p.encodeHeader = .ok (Frame.around 0x62 fits.content).bytes := by
    unfold encodeHeader encodeByOmit Frame.bytes Frame.around
    rw [written, five]
    cases known : p.reasonCode with
    | none =>
      have absent := plain known
      simp [absent, content, known]
    | some code =>
      have sum (digits size : ℕ) : 2 + (digits + size + 1) = 3 + digits + size := by omega
      simp [AckPlan.full, AckPlan.tail, content, known, sum]
  rw [Encoder.encodeAll, ControlPacket.encodeHeader, header]
  simp only [ControlPacket.encodePayloadChunk, encodePayloadChunk, Outcome.ok_bind, Outcome.pure_eq,
    Option.getD_none, List.append_nil]

/-- The content is read back. -/
theorem content_reads (fits : p.Encodable) :
    ∃ set, Reads (decodeVariableHeader {} p.content.length (some ⟨5⟩)) p.content
        { packetId := p.packetId, reasonCode := p.reasonCode, pubrelProperties := set } ∧
      set.getD {} = p.properties := by
  have size := fits.contentSize
  rw [content_length]
  unfold content contentSize
  unfold contentSize at size
  cases known : p.reasonCode with
  | none =>
    refine ⟨none, ?_, (fits.reasonCode known).symm⟩
    rw [List.append_nil]
    exact (PacketId.tryFrom_reads p.packetId).bind_nil (Reads.pure _)
  | some code =>
    rw [known] at size
    dsimp only at size
    have long : 3 + (encodeVariableBytes p.properties.size).length + p.properties.size ≠ 2 := by omega
    obtain ⟨set, block, same⟩ := PubrelProperties.block_reads_back fits.properties (by omega)
    exact ⟨set, decodeVariableHeader_reads p.packetId code block long, same⟩

/-- With a reason code, or without any properties, it is read back within three polls. -/
theorem readBack_of_plain (build : Build) (fits : p.Encodable) (five : p.protocolVersion = ⟨5⟩)
    (plain : p.reasonCode = none → p.pubrelProperties = none) (s : Bytes) : p.ReadBack build s := by
  obtain ⟨set, read, same⟩ := content_reads fits
  have first : packetOfFirstByte 0x62 = .ok (.pubrel {}) := by decide
  have nonempty : p.content ++ s ≠ [] := List.cons_ne_nil _ _
  have body : (Frame.around 0x62 fits.content).body = p.content ++ [] := (List.append_nil p.content).symm
  have emitted : ((Decoder.new.setProtocolVersion (some ⟨5⟩)).holding
      ((Frame.around 0x62 fits.content).bytes ++ s)).pollUpTo build 3 = _ :=
    Decoder.frame_emitted rfl first body read.map nonempty (.inl ⟨rfl, rfl⟩)
  exact ⟨_, encodeAll_eq fits five plain, _, _, ⟨3, emitted⟩, rfl, rfl, same, rfl⟩

/-- An empty set without a reason code: two more bytes are announced than are written. -/
theorem encodeAll_of_empty (five : p.protocolVersion = ⟨5⟩) (unreasoned : p.reasonCode = none)
    (empty : p.pubrelProperties = some {}) :
    Encoder.encodeAll (.pubrel p) = .ok (0x62 :: 0x04 :: be16Bytes p.packetId.value) := by
  have header : p.encodeHeader = .ok (0x62 :: 0x04 :: be16Bytes p.packetId.value) := by
    have none : PubrelProperties.encode {} = .ok [] := rfl
    have four : encodeVariableBytes (3 + (encodeVariableBytes 0).length) = [0x04] := rfl
    unfold encodeHeader encodeByOmit
    rw [five, unreasoned, empty]
    simp [none, AckPlan.full, AckPlan.tail, four]
  rw [Encoder.encodeAll, ControlPacket.encodeHeader, header]
  simp only [ControlPacket.encodePayloadChunk, encodePayloadChunk, Outcome.ok_bind, Outcome.pure_eq,
    Option.getD_none, List.append_nil]

/-- What is announced to be longer than an identifier is read with a reason code. -/
private theorem reasonCode_of_long {self out : Pubrel} {length size : ℕ} {version : Option ProtocolVersion}
    {buf : Bytes} (long : length ≠ 2) (read : self.decodeVariableHeader length version buf 0 = .ok (out, size)) :
    out.reasonCode ≠ none := by
  obtain ⟨id, _, _, read⟩ := bind_eq_ok_iff.mp read
  rw [if_neg long] at read
  obtain ⟨code, _, _, read⟩ := bind_eq_ok_iff.mp read
  obtain ⟨version, _, _, read⟩ := bind_eq_ok_iff.mp read
  obtain ⟨set, _, _, read⟩ := bind_eq_ok_iff.mp read
  cases read
  exact Option.some_ne_none code

/-- A fresh decoder that holds it emits no PUBREL without a reason code. -/
theorem reasonCode_of_empty {build : Build} {id : UInt16} {s : Bytes} {out : Pubrel} {next : Decoder}
    (emits : ((Decoder.new.setProtocolVersion (some ⟨5⟩)).feed ((0x62 :: 0x04 :: be16Bytes id) ++ s)).Emits build
      (.pubrel out) next) : out.reasonCode ≠ none := by
  obtain ⟨calls, emitted⟩ := emits
  have starts : ((Decoder.new.setProtocolVersion (some ⟨5⟩)).feed ((0x62 :: 0x04 :: be16Bytes id) ++ s)).pollDecode
      build = .ok (none, (Decoder.new.setProtocolVersion (some ⟨5⟩)).afterFixedHeader (.pubrel {}) 4
        (be16Bytes id ++ s)) := rfl
  have enough := Decoder.pollUpTo_mono (show calls ≤ calls + 3 by omega) emitted
  rw [Decoder.pollUpTo, starts, Outcome.ok_bind] at enough
  have outcome := (Decoder.pollUpTo_body rfl rfl calls).symm.trans enough
  obtain ⟨_, headed, size, read, ends⟩ := Decoder.bodyOutcome_eq_some_iff.mp outcome
  obtain ⟨packet, inner, rfl⟩ := map_eq_ok_iff.mp read
  have reason := reasonCode_of_long (show (4 : ℕ) ≠ 2 by decide) inner
  rcases ends with ⟨_, same, _⟩ | ⟨_, _, rest, decoded, _⟩
  · cases same
    exact reason
  · cases decoded
    exact reason

end Pubrel

/-- A PUBREL of version 5 that has a reason code, or neither that nor properties, is read back with any bytes
behind it if and only if it does not come with an empty set in place of no properties. -/
theorem pubrel_round_trip_iff (build : Build) {p : Pubrel} (fits : p.Encodable) (five : p.protocolVersion = ⟨5⟩)
    (s : Bytes) : p.ReadBack build s ↔ (p.reasonCode = none → p.pubrelProperties = none) := by
  constructor
  · rintro ⟨bytes, encoded, out, next, emits, _, same, _⟩ unreasoned
    by_contra present
    obtain ⟨set, known⟩ := Option.ne_none_iff_exists'.mp present
    have empty : p.pubrelProperties = some {} := by
      have none := fits.reasonCode unreasoned
      rw [Pubrel.properties, known] at none
      rw [known]
      exact congrArg some none
    cases encoded.symm.trans (Pubrel.encodeAll_of_empty five unreasoned empty)
    exact Pubrel.reasonCode_of_empty emits (same.trans unreasoned)
  · intro plain
    exact Pubrel.readBack_of_plain build fits five plain s

/-- The identifier is not known, for a reason and with a property. -/
def explainedPubrel : Pubrel where
  packetId := ⟨7⟩
  reasonCode := some .packetIdentifierNotFound
  pubrelProperties := some .explained
  protocolVersion := ⟨5⟩

private theorem explainedPubrel_encodable : explainedPubrel.Encodable where
  reasonCode := nofun
  pubrelProperties := by
    rintro set ⟨⟩
    exact PubrelProperties.explained_fits
  contentSize := by decide

theorem pubrel_round_trip_iff_explained :
    explainedPubrel.ReadBack ⟨true⟩ [0xc0] ↔
      (explainedPubrel.reasonCode = none → explainedPubrel.pubrelProperties = none) :=
  pubrel_round_trip_iff ⟨true⟩ explainedPubrel_encodable rfl [0xc0]

/-- An empty set of properties. -/
def emptyPubrel : Pubrel where
  packetId := ⟨1⟩
  pubrelProperties := some {}
  protocolVersion := ⟨5⟩

/-- It is written as 62 04 00 01. -/
theorem emptyPubrel_not_readBack :
    ¬ ∀ p : Pubrel, p.Encodable → p.protocolVersion = ⟨5⟩ → ∀ s, p.ReadBack ⟨true⟩ s := by
  intro claim
  have encodable : emptyPubrel.Encodable := {
    reasonCode := fun _ => rfl
    pubrelProperties := by
      rintro set ⟨⟩
      exact ⟨nofun, nofun⟩
    contentSize := by decide }
  obtain ⟨bytes, encoded, out, next, emits, _, same, _⟩ := claim emptyPubrel encodable rfl [0x00, 0x00]
  cases encoded.symm.trans (Pubrel.encodeAll_of_empty rfl rfl rfl)
  exact Pubrel.reasonCode_of_empty emits same

end Aqua
