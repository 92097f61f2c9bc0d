import Aqua.Proofs.Payload
import Aqua.Wire.Skeleton

/-! # Where the parts of a packet end

The layouts here read nothing but lengths and flags: they say where a variable header or a CONNECT
payload ends without validating anything. The decoders follow them, so the sizes a decoder works
with can be read off the received bytes.
-/

namespace Aqua

open Wire Wire.Reader

namespace Layout

/-- A string or binary field. -/
def field : FieldReader Unit := skipPrefixed .insufficientBytes

/-- A property block. -/
def block : FieldReader Unit := do
  let length ← decodeVariableLength
  skip .insufficientBytes length

/-- A part that is there only sometimes. -/
def part (present : Prop) [Decidable present] (layout : FieldReader Unit) : FieldReader Unit :=
  if present then layout else pure ()

/-- Protocol name, level, flags, keep-alive and properties; the flags decide the payload. -/
def connectHeader : FieldReader UInt8 := do
  field
  let version ← indexOr .insufficientBytes
  let flags ← indexOr .insufficientBytes
  skip .insufficientBytes 2
  part (version = 5) block
  pure flags

/-- Client identifier, will, user name and password. -/
def connectPayload (flags : UInt8) : FieldReader Unit := do
  field
  part (flags &&& 0b00000100 ≠ 0) do
    block
    field
    field
  part (flags &&& 0b10000000 ≠ 0) field
  part (flags &&& 0b01000000 ≠ 0) field

/-- Where the variable header and where the payload of a CONNECT end. -/
def connectEnds (buf : Bytes) : List ℕ :=
  match connectHeader buf 0 with
  | .ok (flags, size) =>
      match connectPayload flags (buf.drop size) 0 with
      | .ok (_, more) => [size, size + more]
      | _ => [size]
  | _ => []

/-- The property block of the packets that have one from version 5 on. -/
def properties (protocolVersion : Option ProtocolVersion) : FieldReader Unit :=
  part (5 ≤ (protocolVersion.getD {}).value) block

/-- The variable header of the packet a fixed header announces. -/
def variableHeader (packet : ControlPacket) (remainingLength : ℕ)
    (protocolVersion : Option ProtocolVersion) : FieldReader Unit :=
  match packet with
  | .connect _ => (fun _ => ()) <$> connectHeader
  | .publish p => do
      field
      part (p.qos = .qos1 ∨ p.qos = .qos2) (skip .insufficientBytes 2)
      properties protocolVersion
  | .subscribe _ | .unsubscribe _ => do
      skip .insufficientBytes 2
      properties protocolVersion
  | .pubrel _ => do
      skip .insufficientBytes 2
      part (remainingLength ≠ 2) do
        skip .insufficientBytes 1
        properties protocolVersion
  | .disconnect _ =>
      part (remainingLength ≠ 0) do
        skip .insufficientBytes 1
        properties protocolVersion
  | .puback _ | .pubrec _ | .pubcomp _ => skip .insufficientBytes 2
  | _ => pure ()

/-- The lengths of the three parts of a frame. -/
structure Parts where
  fixedHeader : ℕ
  variableHeader : ℕ
  payload : ℕ

def Parts.size (parts : Parts) : ℕ := parts.fixedHeader + parts.variableHeader + parts.payload

/-- The length of the payload behind a variable header of `size` bytes. Only the packets with topic
filters or application data derive it from the remaining length. -/
def payload (packet : ControlPacket) (remainingLength size : ℕ) (body : Bytes) : Option ℕ :=
  if size = remainingLength then some 0
  else match packet with
    | .connect _ => do
        let (flags, _) ← (connectHeader body 0).value?
        let (_, more) ← (connectPayload flags (body.drop size) 0).value?
        some more
    | .publish _ | .subscribe _ | .unsubscribe _ => some (remainingLength - size)
    | _ => some 0

/-- The parts of the frame at the front of a buffer, by its length fields and flags. -/
def frame (protocolVersion : Option ProtocolVersion) (buf : Bytes) : Option Parts := do
  let first ← buf.head?
  let packet ← (packetOfFirstByte first).value?
  let (remainingLength, fixedHeader) ← (decodeVariableLength buf 1).value?
  let body := buf.drop fixedHeader
  let (_, size) ← (variableHeader packet remainingLength protocolVersion body 0).value?
  let payload ← payload packet remainingLength size body
  some { fixedHeader, variableHeader := size, payload }

end Layout

theorem decodeUtf8String_spans : Spans decodeUtf8String Layout.field := by
  rw [decodeUtf8String, decodeU16Bytes_eq]
  refine .prefixed _ fun n => (Spans.sliceOr _ _).bind_still (fun bytes => ?_)
  split
  · exact .pure _
  · exact .fail _

theorem stringField_spans {α : Type} (wrap : String → α) : Spans (stringField wrap) Layout.field :=
  decodeUtf8String_spans.map

theorem binary_spans : Spans binary Layout.field := .prefixed _ fun _ => .slice _ _

theorem binaryField_spans {α : Type} (wrap : Bytes → α) : Spans (binaryField wrap) Layout.field :=
  binary_spans.map

theorem ProtocolName.tryFrom_spans : Spans ProtocolName.tryFrom Layout.field := by
  refine binary_spans.bind_still (fun bytes => ?_)
  split
  · exact .pure _
  · exact .fail _

theorem PacketId.tryFrom_spans : Spans PacketId.tryFrom (skip .insufficientBytes 2) :=
  (Spans.u16 _).map

/-- A property block ends where its length says, whatever the properties are. -/
theorem propertyBlock_spans {σ : Type} {property : σ → UInt8 → FieldReader σ}
    (lawful : ∀ set id, Lawful (property set id)) (set : σ) :
    Spans (propertyBlock property set) Layout.block := by
  intro buf pos a next read
  obtain ⟨length, mid, announced, read⟩ := bind_eq_ok_iff.mp read
  obtain ⟨start, _, here, read⟩ := bind_eq_ok_iff.mp read
  cases here
  have moved := decodeVariableLength_progresses announced
  have inside := (propertyLoop_lawful lawful _ _).within read moved.2
  obtain rfl := block_end read
  refine ⟨(), bind_eq_ok_iff.mpr ⟨length, mid, announced, ?_⟩, trivial⟩
  exact map_eq_ok_iff.mpr ⟨_, sliceOr_eq_ok_iff.mpr ⟨inside, rfl, rfl⟩, rfl⟩

theorem part_spans {α : Type} {c present : Prop} [Decidable c] [Decidable present]
    {r r' : FieldReader α} {layout : FieldReader Unit} (iff : c ↔ present) (inside : Spans r layout)
    (still : Still r') : Spans (if c then r else r') (Layout.part present layout) :=
  .ite iff (fun _ => inside) fun _ => .still still rfl

/-- A part whose absence is tested first. -/
theorem part_spans_not {α : Type} {c present : Prop} [Decidable c] [Decidable present]
    {r r' : FieldReader α} {layout : FieldReader Unit} (iff : ¬ c ↔ present) (still : Still r)
    (inside : Spans r' layout) : Spans (if c then r else r') (Layout.part present layout) := by
  rw [← ite_not]
  exact part_spans iff inside still

/-- A one-byte code that is checked after it was read. -/
theorem code_spans {α : Type} {f : UInt8 → FieldReader α} (still : ∀ byte, Still (f byte)) :
    Spans (indexOr .invalidFormat >>= f) (skip .insufficientBytes 1) :=
  .of_end _ fun _ _ _ _ read => by
    obtain ⟨byte, mid, head, rest⟩ := bind_eq_ok_iff.mp read
    have inside := (indexOr_progresses _ head).2
    obtain ⟨_, rfl⟩ := indexOr_eq_ok_iff.mp head
    obtain rfl := still byte rest
    exact ⟨rfl, inside⟩

theorem PubrelReasonCode.tryFrom_spans :
    Spans PubrelReasonCode.tryFrom (skip .insufficientBytes 1) :=
  code_spans fun _ => .ite (.pure _) (.ite (.pure _) (.fail _))

theorem DisconnectReasonCode.convert_spans :
    Spans DisconnectReasonCode.convert (skip .insufficientBytes 1) := by
  refine code_spans fun _ => ?_
  split
  · exact .pure _
  · exact .fail _

section Headers

variable (build : Build) (remainingLength : ℕ) (protocolVersion : Option ProtocolVersion)

/-- Steps that need a version fail without one. -/
private theorem unwrap_version_spans {α : Type} {f : ProtocolVersion → FieldReader α}
    {s : FieldReader Unit} (known : ∀ version, protocolVersion = some version → Spans (f version) s) :
    Spans (Reader.unwrap protocolVersion >>= f) s := by
  cases protocolVersion with
  | some version => exact known version rfl
  | none =>
    intro buf pos a next read
    cases read

private theorem lift_still {α : Type} (x : Result α) : Still (lift x) := by
  intro buf pos a next read
  exact (lift_eq_ok_iff.mp read).2

private theorem require_still (count : ℕ) : Still (require MqttError.insufficientBytes count) := by
  intro buf pos a next read
  simp only [require] at read
  split at read <;> cases read
  rfl

/-- The payload length is computed without reading anything. -/
private theorem payloadLength_still {α : Type} (start : ℕ) (wrap : ℕ → α) :
    Still (position >>= fun nextPos => lift (build.sub remainingLength (nextPos - start)) >>=
      fun payloadLength => (pure (wrap payloadLength) : FieldReader α)) :=
  Still.position.bind fun _ => (lift_still _).bind fun _ => .pure _

theorem Publish.readPacketId_spans (qos : QoS) (packetId : Option PacketId) :
    Spans (Publish.readPacketId qos packetId)
      (Layout.part (qos = .qos1 ∨ qos = .qos2) (skip .insufficientBytes 2)) := by
  refine part_spans Iff.rfl (.still_bind (require_still 1) fun _ => ?_) (.pure _)
  exact PacketId.tryFrom_spans.bind_still (fun _ => .pure _)

theorem Publish.decodeVariableHeader_spans (self : Publish) :
    Spans (self.decodeVariableHeader build remainingLength protocolVersion)
      (Layout.variableHeader (.publish self) remainingLength protocolVersion) := by
  refine .still_bind .position fun start => ?_
  refine (stringField_spans _).bind fun topicName => ?_
  refine (Publish.readPacketId_spans _ _).bind fun packetId => ?_
  refine unwrap_version_spans _ fun version known => ?_
  subst known
  refine Spans.bind_still (part_spans Iff.rfl ?_ (.pure _))
    (fun _ => payloadLength_still build remainingLength start _)
  exact (propertyBlock_spans PublishProperties.readProperty_lawful _).bind_still
      (fun _ => .pure _)

theorem Subscribe.decodeVariableHeader_spans (self : Subscribe) :
    Spans (self.decodeVariableHeader build remainingLength protocolVersion)
      (Layout.variableHeader (.subscribe self) remainingLength protocolVersion) := by
  cases protocolVersion with
  | none => exact .fail _
  | some version =>
    refine .still_bind .position fun start => ?_
    refine PacketId.tryFrom_spans.bind fun packetId => ?_
    refine Spans.bind_still (part_spans Iff.rfl ?_ (.pure _))
      (fun _ => payloadLength_still build remainingLength start _)
    exact propertyBlock_spans SubscribeProperties.readProperty_lawful _

theorem Unsubscribe.decodeVariableHeader_spans (self : Unsubscribe) :
    Spans (self.decodeVariableHeader build remainingLength protocolVersion)
      (Layout.variableHeader (.unsubscribe self) remainingLength protocolVersion) := by
  refine .still_bind .position fun start => ?_
  refine PacketId.tryFrom_spans.bind fun packetId => ?_
  refine unwrap_version_spans _ fun version known => ?_
  subst known
  refine Spans.bind_still (part_spans Iff.rfl ?_ (.pure _))
    (fun _ => payloadLength_still build remainingLength start _)
  exact propertyBlock_spans UnsubscribeProperties.readProperty_lawful _

theorem Disconnect.decodeVariableHeader_spans (self : Disconnect) :
    Spans (self.decodeVariableHeader remainingLength protocolVersion)
      (Layout.variableHeader (.disconnect self) remainingLength protocolVersion) := by
  refine part_spans_not Iff.rfl (.pure _) ?_
  refine DisconnectReasonCode.convert_spans.bind fun reasonCode => ?_
  refine unwrap_version_spans _ fun version known => ?_
  subst known
  refine Spans.bind_still (part_spans Iff.rfl ?_ (.pure _))
    (fun _ => .pure _)
  exact (propertyBlock_spans DisconnectProperties.readProperty_lawful _).bind_still
    (fun _ => .pure _)

theorem Pubrel.decodeVariableHeader_spans (self : Pubrel) :
    Spans (self.decodeVariableHeader remainingLength protocolVersion)
      (Layout.variableHeader (.pubrel self) remainingLength protocolVersion) := by
  refine PacketId.tryFrom_spans.bind fun packetId => ?_
  refine part_spans_not Iff.rfl (.pure _) ?_
  refine PubrelReasonCode.tryFrom_spans.bind fun reasonCode => ?_
  refine unwrap_version_spans _ fun version known => ?_
  subst known
  refine Spans.bind_still (part_spans Iff.rfl ?_ (.pure _))
    (fun _ => .pure _)
  exact propertyBlock_spans PubrelProperties.readProperty_lawful _

/-- The flags byte of a CONNECT says which fields of the payload are there. -/
def ConnectFlags.From (flags : ConnectFlags) (byte : UInt8) : Prop :=
  flags.willFlag = decide (byte &&& 0b00000100 ≠ 0) ∧
    flags.userNameFlag = decide (byte &&& 0b10000000 ≠ 0) ∧
    flags.passwordFlag = decide (byte &&& 0b01000000 ≠ 0)

theorem ConnectFlags.tryFrom_follows :
    Follows ConnectFlags.tryFrom (indexOr .insufficientBytes) ConnectFlags.From := by
  refine Follows.bind_still (.index _) (fun byte => ?_) ?_
  · exact .ite (.fail _) ((lift_still _).bind fun _ => .pure _)
  · rintro byte _ buf pos flags next rfl read
    split at read
    · cases read
    obtain ⟨qos, mid, _, read⟩ := bind_eq_ok_iff.mp read
    cases read
    exact ⟨rfl, rfl, rfl⟩

theorem Connect.decodeVariableHeader_follows (self : Connect) :
    Follows self.decodeVariableHeader Layout.connectHeader
      fun headed byte => headed.connectFlags.From byte := by
  refine ProtocolName.tryFrom_spans.bind fun protocolName => ?_
  have version : Follows ProtocolVersion.tryFrom (indexOr .insufficientBytes)
      fun version byte => version.value = byte := (Follows.index _).map fun _ _ same => same
  refine version.bind fun protocolVer _ known => ?_
  refine ConnectFlags.tryFrom_follows.bind fun connectFlags byte flags => ?_
  refine (Spans.u16 _).map.bind fun keepalive => ?_
  subst known
  intro buf pos headed next read
  have block := (propertyBlock_spans ConnectProperties.readProperty_lawful self.properties).bind_still
    fun properties => Still.pure
      { self with protocolName, protocolVer, connectFlags, keepalive, properties }
  obtain ⟨_, layout, _⟩ := part_spans_not not_not (.pure _) block read
  refine ⟨byte, bind_eq_ok_iff.mpr ⟨(), next, layout, rfl⟩, ?_⟩
  split at read
  · cases read
    exact flags
  · obtain ⟨properties, mid, _, read⟩ := bind_eq_ok_iff.mp read
    cases read
    exact flags

theorem ControlPacket.decodeVariableHeader_spans (self : ControlPacket) :
    Spans (self.decodeVariableHeader build remainingLength protocolVersion)
      (Layout.variableHeader self remainingLength protocolVersion) := by
  cases self with
  | connect p =>
    intro buf pos headed next read
    obtain ⟨p', inner, rfl⟩ := map_eq_ok_iff.mp read
    obtain ⟨flags, layout, _⟩ := p.decodeVariableHeader_follows inner
    exact ⟨(), map_eq_ok_iff.mpr ⟨flags, layout, rfl⟩, trivial⟩
  | publish p => exact (p.decodeVariableHeader_spans build _ _).map
  | subscribe p => exact (p.decodeVariableHeader_spans build _ _).map
  | unsubscribe p => exact (p.decodeVariableHeader_spans build _ _).map
  | disconnect p => exact (p.decodeVariableHeader_spans _ _).map
  | pubrel p => exact (p.decodeVariableHeader_spans _ _).map
  | pingreq p => exact .still (.pure _) rfl
  | puback p => exact PacketId.tryFrom_spans.bind_still (fun _ => .pure _)
  | pubrec p => exact PacketId.tryFrom_spans.bind_still (fun _ => .pure _)
  | pubcomp p => exact PacketId.tryFrom_spans.bind_still (fun _ => .pure _)
  | _ => exact .fail _

end Headers

/-- A part that stores into the packet keeps the flags. -/
private theorem stored_part_follows {present : Prop} [Decidable present] {self : Connect} {flag : Bool}
    {r : FieldReader Connect} {layout : FieldReader Unit} (iff : flag = true ↔ present)
    (spans : Spans r layout) (keeps : ∀ {buf pos p next}, r buf pos = .ok (p, next) →
      p.connectFlags = self.connectFlags) :
    Follows (if flag then r else pure self) (Layout.part present layout)
      fun p _ => p.connectFlags = self.connectFlags := by
  refine .ite iff (fun _ => ?_) fun _ => .pure rfl
  intro buf pos p next read
  obtain ⟨_, layout, _⟩ := spans read
  exact ⟨(), layout, keeps read⟩

theorem Connect.readWill_follows {self : Connect} {byte : UInt8}
    (flags : self.connectFlags.From byte) :
    Follows self.readWill (Layout.part (byte &&& 0b00000100 ≠ 0) do
      Layout.block
      Layout.field
      Layout.field) fun p _ => p.connectFlags = self.connectFlags := by
  refine stored_part_follows (by rw [flags.1, decide_eq_true_iff]) ?_ ?_
  · refine (propertyBlock_spans WillProperties.readProperty_lawful _).bind fun willProperties => ?_
    refine (stringField_spans _).bind fun topic => ?_
    exact (binaryField_spans _).bind_still fun _ => .pure _
  · intro buf pos p next read
    obtain ⟨willProperties, _, _, read⟩ := bind_eq_ok_iff.mp read
    obtain ⟨topic, _, _, read⟩ := bind_eq_ok_iff.mp read
    obtain ⟨payload, _, _, read⟩ := bind_eq_ok_iff.mp read
    cases read
    rfl

theorem Connect.readUserName_follows {self : Connect} {byte : UInt8}
    (flags : self.connectFlags.From byte) :
    Follows self.readUserName (Layout.part (byte &&& 0b10000000 ≠ 0) Layout.field)
      fun p _ => p.connectFlags = self.connectFlags := by
  refine stored_part_follows (by rw [flags.2.1, decide_eq_true_iff])
    ((stringField_spans _).bind_still fun _ => .pure _) ?_
  intro buf pos p next read
  obtain ⟨ret, _, _, read⟩ := bind_eq_ok_iff.mp read
  cases read
  rfl

theorem Connect.readPassword_follows {self : Connect} {byte : UInt8}
    (flags : self.connectFlags.From byte) :
    Follows self.readPassword (Layout.part (byte &&& 0b01000000 ≠ 0) Layout.field)
      fun p _ => p.connectFlags = self.connectFlags := by
  refine stored_part_follows (by rw [flags.2.2, decide_eq_true_iff])
    ((binaryField_spans _).bind_still fun _ => .pure _) ?_
  intro buf pos p next read
  obtain ⟨ret, _, _, read⟩ := bind_eq_ok_iff.mp read
  cases read
  rfl

theorem Connect.readPayload_spans {self : Connect} {byte : UInt8}
    (flags : self.connectFlags.From byte) :
    Spans self.readPayload (Layout.connectPayload byte) := by
  refine (stringField_spans _).bind fun clientId => ?_
  have will := readWill_follows (show ({ self with clientId } : Connect).connectFlags.From byte from flags)
  refine will.bind fun willed _ same => ?_
  refine (readUserName_follows (same ▸ flags)).bind fun named _ same' => ?_
  intro buf pos p next read
  obtain ⟨_, layout, _⟩ := readPassword_follows (same' ▸ same ▸ flags) read
  exact ⟨(), layout, trivial⟩

section Frames

variable {build : Build} {protocolVersion : Option ProtocolVersion} {start headed p : ControlPacket}
  {remainingLength size fixedHeader payload : ℕ} {buf body rest : Bytes}

/-- What a payload decoder removes is the payload of the layout. -/
theorem ControlPacket.decodePayload_layout
    (header : start.decodeVariableHeader build remainingLength protocolVersion body 0 =
      .ok (headed, size)) (partly : size ≠ remainingLength) (addressable : body.length < usizeModulus)
    (decoded : headed.decodePayload (body.drop size) = .ok (p, rest)) :
    ∃ count, Layout.payload start remainingLength size body = some count ∧
      count ≤ (body.drop size).length ∧ rest = (body.drop size).drop count := by
  -- the payload length a header stored has not wrapped around
  have announcing (framed : start.payloadLength? ≠ none) :
      rest = (body.drop size).drop (remainingLength - size) ∧
        remainingLength - size ≤ (body.drop size).length := by
    obtain ⟨_, length, announced, left⟩ := decodeVariableHeader_announces framed header
    obtain ⟨removed, takes⟩ := decodePayload_takes_announced announced decoded
    have within := takes.within
    have inside := (start.decodeVariableHeader_lawful build _ _).within header (Nat.zero_le _)
    rw [List.length_drop] at within ⊢
    rcases Build.sub_eq_ok_iff.mp left with ⟨_, rfl⟩ | ⟨_, _, wrapped⟩
    · exact ⟨removed, within⟩
    · omega
  have nothing (passes : headed.decodePayload (body.drop size) = .ok (headed, body.drop size)) :
      0 ≤ (body.drop size).length ∧ rest = (body.drop size).drop 0 := by
    cases passes.symm.trans decoded
    exact ⟨Nat.zero_le _, rfl⟩
  cases start with
  | connect q =>
    obtain ⟨q', inner, rfl⟩ := map_eq_ok_iff.mp header
    obtain ⟨flags, layout, from_⟩ := q.decodeVariableHeader_follows inner
    obtain ⟨⟨c, left⟩, inner', same⟩ := Outcome.bind_eq_ok_iff.mp decoded
    cases same
    obtain ⟨more, fields, rfl⟩ := Connect.decodePayload_eq_ok_iff.mp inner'
    obtain ⟨_, layout', _⟩ := Connect.readPayload_spans from_ fields
    refine ⟨more, ?_, q'.readPayload_lawful.within fields (Nat.zero_le _), rfl⟩
    simp only [Layout.payload, if_neg partly, layout, layout', Outcome.value?_ok,
      Option.bind_eq_bind, Option.bind_some]
  | publish q =>
    obtain ⟨removed, within⟩ := announcing (Option.some_ne_none _)
    exact ⟨_, if_neg partly, within, removed⟩
  | subscribe q =>
    obtain ⟨removed, within⟩ := announcing (Option.some_ne_none _)
    exact ⟨_, if_neg partly, within, removed⟩
  | unsubscribe q =>
    obtain ⟨removed, within⟩ := announcing (Option.some_ne_none _)
    exact ⟨_, if_neg partly, within, removed⟩
  | disconnect q =>
    obtain ⟨q', _, rfl⟩ := map_eq_ok_iff.mp header
    exact ⟨0, if_neg partly, nothing rfl⟩
  | pubrel q =>
    obtain ⟨q', _, rfl⟩ := map_eq_ok_iff.mp header
    exact ⟨0, if_neg partly, nothing rfl⟩
  | pingreq q =>
    cases header
    exact ⟨0, if_neg partly, nothing rfl⟩
  | puback q =>
    obtain ⟨id, _, _, stored⟩ := bind_eq_ok_iff.mp header
    cases stored
    exact ⟨0, if_neg partly, nothing rfl⟩
  | pubrec q =>
    obtain ⟨id, _, _, stored⟩ := bind_eq_ok_iff.mp header
    cases stored
    exact ⟨0, if_neg partly, nothing rfl⟩
  | pubcomp q =>
    obtain ⟨id, _, _, stored⟩ := bind_eq_ok_iff.mp header
    cases stored
    exact ⟨0, if_neg partly, nothing rfl⟩
  | _ => cases header

theorem decodeFixedHeader_eq_ok_iff :
    decodeFixedHeader buf 0 = .ok ((start, remainingLength), fixedHeader) ↔
      ∃ first, buf.head? = some first ∧ packetOfFirstByte first = .ok start ∧
        decodeVariableLength buf 1 = .ok (remainingLength, fixedHeader) := by
  simp only [decodeFixedHeader, bind_eq_ok_iff, index_eq_ok_iff, lift_eq_ok_iff, pure_apply]
  rw [List.head?_eq_getElem?]
  constructor
  · rintro ⟨first, _, ⟨there, rfl⟩, packet, _, ⟨kind, rfl⟩, length, _, announced, same⟩
    cases same
    exact ⟨first, there, kind, announced⟩
  · rintro ⟨first, there, kind, announced⟩
    exact ⟨first, _, ⟨there, rfl⟩, start, _, ⟨kind, rfl⟩, remainingLength, _, announced, rfl⟩

/-- The stages of a decoder are the parts of the layout. -/
theorem Layout.frame_eq_some
    (fixed : decodeFixedHeader buf 0 = .ok ((start, remainingLength), fixedHeader))
    (header : start.decodeVariableHeader build remainingLength protocolVersion
      (buf.drop fixedHeader) 0 = .ok (headed, size))
    (rest : Layout.payload start remainingLength size (buf.drop fixedHeader) = some payload) :
    Layout.frame protocolVersion buf = some ⟨fixedHeader, size, payload⟩ := by
  obtain ⟨first, there, kind, announced⟩ := decodeFixedHeader_eq_ok_iff.mp fixed
  obtain ⟨_, layout, _⟩ := start.decodeVariableHeader_spans build _ _ header
  simp only [Layout.frame, there, kind, announced, layout, rest, Outcome.value?_ok,
    Option.bind_eq_bind, Option.bind_some]

end Frames

end Aqua
