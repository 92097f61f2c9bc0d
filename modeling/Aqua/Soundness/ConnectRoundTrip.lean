import Aqua.Proofs.FieldRoundTrip
import Aqua.Proofs.FieldWidth
import Aqua.Proofs.ConnackBlock
import Aqua.Proofs.Frame
import Aqua.Proofs.Payload
import Aqua.Spec.ClientConnect

/-! # The CONNECT of a 3.1.1 client, decoded

The payload decoder is the same for all versions, and behind a will flag it reads will properties without
asking for the version. A 3.1.1 client writes none, so its CONNECT is decoded as it was sent if and only if
it has no will.
-/

namespace Aqua

open Wire Wire.Reader

namespace ClientConnect

variable {c : ClientConnect} {build : Build}

theorem connectFlags_reads (userName password cleanSession : Bool) (will : Option (QoS × Bool)) :
    Reads ConnectFlags.tryFrom [flagBits userName password will cleanSession] {
      userNameFlag := userName
      passwordFlag := password
      willRetain := (will.map Prod.snd).getD false
      willQos := (will.map Prod.fst).getD .qos0
      willFlag := will.isSome
      cleanStart := cleanSession } := by
  apply (Reads.index _).bind_nil
  rcases will with _ | ⟨qos, retain⟩
  · cases userName <;> cases password <;> cases cleanSession <;> exact fun _ _ => rfl
  · cases userName <;> cases password <;> cases cleanSession <;> cases retain <;> cases qos <;>
      exact fun _ _ => rfl

/-- The packet behind its variable header. -/
def headed (c : ClientConnect) : Connect where
  protocolName := ⟨"MQTT"⟩
  protocolVer := ⟨4⟩
  connectFlags := c.connectFlags
  keepalive := c.keepAlive

private theorem header_reads (c : ClientConnect) : Reads (Connect.decodeVariableHeader {}) c.header c.headed := by
  have name : Reads ProtocolName.tryFrom (putTruncated (stringBytes "MQTT")) ⟨"MQTT"⟩ :=
    ProtocolName.tryFrom_reads (by decide)
  have level : Reads ProtocolVersion.tryFrom [0x04] ⟨4⟩ := (Reads.index _).map
  have flags : Reads ConnectFlags.tryFrom [c.flags] c.connectFlags := by
    have read := connectFlags_reads c.userName.isSome c.password.isSome c.cleanSession
      (c.will.map fun will => (will.qos, will.retain))
    simp only [Option.map_map, Option.isSome_map] at read
    exact read
  have keepAlive : Reads KeepAlive.tryFrom (be16Bytes c.keepAlive.value) c.keepAlive := (Reads.u16 _).map
  rw [header, List.append_assoc, List.append_assoc]
  exact name.bind (level.bind (flags.bind (keepAlive.bind_nil (Reads.pure _))))

/-- A field of the payload that is read when its flag is set. -/
theorem optional_reads {α : Type} {value : Option α} {bytes : α → Bytes} {field : FieldReader α}
    {start : Connect} (store : Option α → Connect) (blank : store none = start)
    (read : ∀ a ∈ value, Reads field (bytes a) a) :
    Reads (if value.isSome then field >>= fun a => pure (store (some a)) else pure start)
      (optionBytes value bytes) (store value) := by
  cases value with
  | none =>
    rw [blank]
    exact Reads.pure start
  | some a => exact (read a rfl).bind_nil (Reads.pure _)

private theorem payload_reads (fits : c.Fits) (plain : c.will = none) :
    Reads c.headed.readPayload c.payload c.decoded := by
  have clientId : Reads ClientId.tryFrom (putTruncated (stringBytes c.clientId.value)) c.clientId :=
    stringField_reads ClientId.mk fits.clientId
  have will : Reads (Connect.readWill { c.headed with clientId := c.clientId }) []
      { c.headed with clientId := c.clientId } := by
    have unset : ¬ c.headed.connectFlags.willFlag = true := by
      simp [headed, connectFlags, plain]
    rw [Connect.readWill, if_neg unset]
    exact Reads.pure _
  have userName := optional_reads (fun name => { c.headed with clientId := c.clientId, username := name })
    rfl fun name present => stringField_reads UserName.mk (fits.userName name present)
  have password := optional_reads (fun password =>
    { c.headed with clientId := c.clientId, username := c.userName, password := password })
    rfl fun password present => binaryField_reads Password.mk (fits.password password present)
  have whole : Reads c.headed.readPayload _ _ := clientId.bind (will.bind (userName.bind password))
  have bytes : c.payload = putTruncated (stringBytes c.clientId.value) ++ ([] ++
      (optionBytes c.userName (fun name => putTruncated (stringBytes name.value)) ++
        optionBytes c.password fun password => putTruncated password.value)) := by
    simp only [payload, plain, List.append_assoc]
    rfl
  have packet : c.decoded = { c.headed with
      clientId := c.clientId, username := c.userName, password := c.password } := by
    simp only [decoded, plain]
    rfl
  rw [bytes, packet]
  exact whole

/-- The size of the payload fields of a packet. -/
def payloadWidth (p : Connect) : ℕ :=
  stringWidth p.clientId.value +
  optionSize p.willTopic (fun topic => stringWidth topic.value) +
  optionSize p.willPayload (fun message => binaryWidth message.value) +
  optionSize p.username (fun name => stringWidth name.value) +
  optionSize p.password fun password => binaryWidth password.value

private theorem readUserName_width {self p : Connect} {buf : Bytes} {pos next : ℕ} (blank : self.username = none)
    (read : self.readUserName buf pos = .ok (p, next)) :
    next + payloadWidth self = pos + payloadWidth p ∧ p.password = self.password := by
  unfold Connect.readUserName at read
  split at read
  · obtain ⟨name, mid, inner, stored⟩ := bind_eq_ok_iff.mp read
    cases stored
    have : next = pos + stringWidth name.value := UserName.tryFrom_sized inner
    refine ⟨?_, rfl⟩
    simp only [payloadWidth, blank, optionSize, Option.map_some, Option.getD_some, Option.map_none,
      Option.getD_none]
    omega
  · cases read
    exact ⟨rfl, rfl⟩

private theorem readPassword_width {self p : Connect} {buf : Bytes} {pos next : ℕ} (blank : self.password = none)
    (read : self.readPassword buf pos = .ok (p, next)) : next + payloadWidth self = pos + payloadWidth p := by
  unfold Connect.readPassword at read
  split at read
  · obtain ⟨password, mid, inner, stored⟩ := bind_eq_ok_iff.mp read
    cases stored
    have : next = pos + binaryWidth password.value := Password.tryFrom_sized inner
    simp only [payloadWidth, blank, optionSize, Option.map_some, Option.getD_some, Option.map_none,
      Option.getD_none]
    omega
  · cases read
    rfl

/-- In front of a will a property length is read. -/
theorem readWill_width {self p : Connect} {buf : Bytes} {pos next : ℕ}
    (flag : self.connectFlags.willFlag = true) (blank : self.willTopic = none ∧ self.willPayload = none)
    (read : self.readWill buf pos = .ok (p, next)) :
    pos + payloadWidth p < next + payloadWidth self ∧ p.username = self.username ∧
      p.password = self.password := by
  rw [Connect.readWill, if_pos flag] at read
  obtain ⟨willProperties, afterBlock, block, read⟩ := bind_eq_ok_iff.mp read
  obtain ⟨topic, afterTopic, name, read⟩ := bind_eq_ok_iff.mp read
  obtain ⟨message, last, content, stored⟩ := bind_eq_ok_iff.mp read
  cases stored
  have : pos < afterBlock := (propertyBlock_progresses WillProperties.readProperty_lawful _ block).1
  have : afterTopic = afterBlock + stringWidth topic.value := TopicName.tryFrom_sized name
  have : next = afterTopic + binaryWidth message.value := WillPayload.tryFrom_sized content
  refine ⟨?_, rfl, rfl⟩
  simp only [payloadWidth, blank, optionSize, Option.map_some, Option.getD_some, Option.map_none,
    Option.getD_none]
  omega

/-- A payload with a will is read further than its fields are wide. -/
theorem readPayload_width {self p : Connect} {buf : Bytes} {next : ℕ}
    (flag : self.connectFlags.willFlag = true)
    (blank : self.willTopic = none ∧ self.willPayload = none ∧ self.username = none ∧ self.password = none)
    (read : self.readPayload buf 0 = .ok (p, next)) : payloadWidth p < next := by
  obtain ⟨noTopic, noMessage, noName, noPassword⟩ := blank
  obtain ⟨clientId, first, name, read⟩ := bind_eq_ok_iff.mp read
  have : first = 0 + stringWidth clientId.value := ClientId.tryFrom_sized name
  obtain ⟨_, second, will, read⟩ := bind_eq_ok_iff.mp read
  have willed : ({ self with clientId } : Connect).connectFlags.willFlag = true := flag
  obtain ⟨wide, sameName, samePassword⟩ := readWill_width willed ⟨noTopic, noMessage⟩ will
  obtain ⟨named, third, user, read⟩ := bind_eq_ok_iff.mp read
  obtain ⟨wide', samePassword'⟩ := readUserName_width (sameName.trans noName) user
  have wide'' := readPassword_width (samePassword'.trans (samePassword.trans noPassword)) read
  have start : payloadWidth { self with clientId } = stringWidth clientId.value := by
    simp only [payloadWidth, noTopic, noMessage, noName, noPassword, optionSize, Option.map_none,
      Option.getD_none, Nat.add_zero]
  omega

private theorem payload_length (c : ClientConnect) : c.payload.length = payloadWidth c.decoded := by
  unfold payload payloadWidth decoded
  cases c.will <;> cases c.userName <;> cases c.password <;>
    simp [optionBytes, optionSize, stringWidth, binaryWidth] <;> omega

private theorem header_length (c : ClientConnect) : c.header.length = 10 := by
  have name : (stringBytes "MQTT").length = 4 := by decide
  simp only [header, List.length_append, putTruncated_length, be16Bytes_length, List.length_singleton, name]

private theorem two_le_payload_length (c : ClientConnect) : 2 ≤ c.payload.length := by
  simp only [payload, List.length_append, putTruncated_length]
  omega

private theorem optionBytes_length_lt {α : Type} {value : Option α} {bytes : α → Bytes} {bound : ℕ} (pos : 0 < bound)
    (short : ∀ a ∈ value, (bytes a).length < bound) : (optionBytes value bytes).length < bound := by
  cases value with
  | none => exact pos
  | some a => exact short a rfl

private theorem body_length (fits : c.Fits) : c.body.length < 2 ^ 28 := by
  have will : (optionBytes c.will fun will =>
      putTruncated (stringBytes will.topic.value) ++ putTruncated will.message.value).length < 2 ^ 18 := by
    refine optionBytes_length_lt (by decide) fun will present => ?_
    have topic := fits.topic will present
    have message := fits.message will present
    simp only [List.length_append, putTruncated_length]
    omega
  have userName : (optionBytes c.userName fun name =>
      putTruncated (stringBytes name.value)).length < 2 ^ 17 := by
    refine optionBytes_length_lt (by decide) fun name present => ?_
    have short := fits.userName name present
    rw [putTruncated_length]
    omega
  have password : (optionBytes c.password fun password => putTruncated password.value).length < 2 ^ 17 := by
    refine optionBytes_length_lt (by decide) fun password present => ?_
    have short := fits.password password present
    rw [putTruncated_length]
    omega
  have clientId := fits.clientId
  simp only [body, payload, List.length_append, header_length, putTruncated_length]
  omega

/-- The packet on the wire is one frame. -/
def Fits.frame (fits : c.Fits) : Frame where
  first := 0x10
  lengthField := encodeVariableBytes c.body.length
  body := c.body
  announced := encodeVariableBytes_announces (body_length fits)

private theorem packetOfFirstByte_connect : packetOfFirstByte 0x10 = .ok (.connect {}) := by decide

/-- What stands behind a payload with a will is not what was sent behind it. -/
theorem rest_ne {self p : Connect} {rest s : Bytes} (flag : self.connectFlags.willFlag = true)
    (blank : self.willTopic = none ∧ self.willPayload = none ∧ self.username = none ∧ self.password = none)
    (decoded : self.decodePayload (c.payload ++ s) = .ok (p, rest)) (same : p = c.decoded) : rest ≠ s := by
  rintro rfl
  obtain ⟨next, read, behind⟩ := Connect.decodePayload_eq_ok_iff.mp decoded
  have within := self.readPayload_lawful.within read (Nat.zero_le _)
  have further := readPayload_width flag blank read
  have lengths := congrArg List.length behind
  rw [same, ← payload_length] at further
  rw [List.length_append] at within
  rw [List.length_drop, List.length_append] at lengths
  omega

end ClientConnect

private theorem ClientConnect.decodeVariableHeader_reads (c : ClientConnect) (build : Build) (length : ℕ)
    (version : Option ProtocolVersion) :
    Reads ((ControlPacket.connect {}).decodeVariableHeader build length version) c.header
      (.connect c.headed) :=
  c.header_reads.map

/-- A CONNECT with a will is not read as it was sent up to what stands behind it. -/
theorem ClientConnect.misread {build : Build} {d next : Decoder} (done : d.state = .done) {c : ClientConnect}
    (fits : c.Fits) {s : Bytes} (willed : c.will ≠ none)
    (emits : (d.holding (c.wire ++ s)).Emits build (.connect c.decoded) next) : next.buf ≠ s := by
  obtain ⟨start, starts, outcome⟩ := (Decoder.emits_frame_iff done fits.frame s).mp emits
  cases packetOfFirstByte_connect.symm.trans starts
  obtain ⟨_, headed, size, read, ends⟩ := Decoder.bodyOutcome_eq_some_iff.mp outcome
  have known := (c.decodeVariableHeader_reads build c.body.length d.protocolVersion).start (c.payload ++ s)
  rw [← List.append_assoc] at known
  cases known.symm.trans read
  have flag : c.headed.connectFlags.willFlag = true := Option.isSome_iff_ne_none.mpr willed
  rcases ends with ⟨whole, _, _⟩ | ⟨_, _, rest, payload, rfl⟩
  · have short : c.header.length = c.body.length := whole
    have := c.two_le_payload_length
    rw [body, List.length_append] at short
    omega
  · have behind : (c.body ++ s).drop c.header.length = c.payload ++ s := by
      rw [body, List.append_assoc, List.drop_left]
    change ControlPacket.decodePayload _ ((c.body ++ s).drop c.header.length) = _ at payload
    rw [behind] at payload
    obtain ⟨⟨p, remaining⟩, decoded, same⟩ := Outcome.bind_eq_ok_iff.mp payload
    cases same
    exact rest_ne flag ⟨rfl, rfl, rfl, rfl⟩ decoded rfl

/-- For every 3.1.1 CONNECT content and every suffix, the decoder emits the content and leaves the suffix if
and only if there is no will. -/
theorem connect_decoded_iff (build : Build) {d : Decoder} (done : d.state = .done) {c : ClientConnect}
    (fits : c.Fits) (s : Bytes) :
    (∃ next, (d.holding (c.wire ++ s)).Emits build (.connect c.decoded) next ∧ next.buf = s) ↔
      c.will = none := by
  constructor
  · rintro ⟨next, emits, left⟩
    by_contra willed
    exact ClientConnect.misread done fits willed emits left
  · intro plain
    have size := c.two_le_payload_length
    have filled : c.payload ≠ [] := List.ne_nil_of_length_pos (by omega)
    have payload : c.headed.decodePayload (c.payload ++ s) = .ok (c.decoded, s) :=
      Connect.decodePayload_eq_ok_iff.mpr
        ⟨_, (ClientConnect.payload_reads fits plain).start s, List.drop_left.symm⟩
    have decoded : (ControlPacket.connect c.headed).decodePayload (c.payload ++ s) =
        .ok (.connect c.decoded, s) := by
      rw [ControlPacket.decodePayload, payload]
      rfl
    have nonempty : fits.frame.body ++ s ≠ [] :=
      List.append_ne_nil_of_left_ne_nil (List.append_ne_nil_of_right_ne_nil _ filled) s
    have first : packetOfFirstByte fits.frame.first = .ok (.connect {}) :=
      ClientConnect.packetOfFirstByte_connect
    have body : fits.frame.body = c.header ++ c.payload := rfl
    have emitted := Decoder.frame_emitted done first body (c.decodeVariableHeader_reads build _ _) nonempty
      (.inr ⟨filled, decoded⟩)
    exact ⟨_, ⟨3, emitted⟩, rfl⟩

/-- The least a client can say. -/
def plainConnect : ClientConnect where
  keepAlive := ⟨60⟩
  clientId := ⟨"a"⟩
  cleanSession := true

/-- The same client with a will. -/
def willedConnect : ClientConnect := { plainConnect with
  will := some { qos := .qos0, retain := false, topic := ⟨"t"⟩, message := ⟨[0x78]⟩ } }

private theorem plainConnect_fits : plainConnect.Fits where
  clientId := by decide
  topic := by rintro _ ⟨⟩
  message := by rintro _ ⟨⟩
  userName := by rintro _ ⟨⟩
  password := by rintro _ ⟨⟩

private theorem willedConnect_fits : willedConnect.Fits where
  clientId := by decide
  topic := by rintro _ ⟨⟩; decide
  message := by rintro _ ⟨⟩; decide
  userName := by rintro _ ⟨⟩
  password := by rintro _ ⟨⟩

theorem connect_decoded_iff_plain :
    (∃ next, (({} : Decoder).holding (plainConnect.wire ++ [0xc0, 0x00])).Emits ⟨true⟩
      (.connect plainConnect.decoded) next ∧ next.buf = [0xc0, 0x00]) ↔ plainConnect.will = none :=
  connect_decoded_iff ⟨true⟩ rfl plainConnect_fits _

/-- The first byte of the will topic's length is taken for an empty property block, and the topic is read one
byte too late. -/
theorem willedConnect_misread :
    ¬ ∀ (c : ClientConnect) (s : Bytes), c.Fits → ∃ next,
      (({} : Decoder).holding (c.wire ++ s)).Emits ⟨true⟩ (.connect c.decoded) next ∧ next.buf = s := by
  intro claim
  obtain ⟨next, emits, left⟩ := claim willedConnect [0xc0, 0x00] willedConnect_fits
  have willed : willedConnect.will ≠ none := Option.some_ne_none _
  exact ClientConnect.misread rfl willedConnect_fits willed emits left

end Aqua
