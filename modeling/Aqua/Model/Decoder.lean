import Aqua.Model.Subscribe
import Aqua.Model.Connect
import Aqua.Model.Acknowledgement

/-! # The streaming decoder

The dispatch tables over packet types and the three-state machine `poll_decode`. An error of
`poll_decode` ends the connection, so a failed poll returns no decoder.
-/

namespace Aqua

open Wire Wire.Reader

/-- The decoders of PUBACK, PUBREC and PUBCOMP: the packet identifier and nothing else. -/
def ackVariableHeader (protocolVersion : Option ProtocolVersion)
    (packet : PacketId → ProtocolVersion → ControlPacket) : FieldReader ControlPacket := do
  let packetId ← PacketId.tryFrom
  pure (packet packetId (protocolVersion.getD {}))

def ControlPacket.decodeVariableHeader (build : Build) (self : ControlPacket) (remainingLength : ℕ)
    (protocolVersion : Option ProtocolVersion) : FieldReader ControlPacket :=
  match self with
  | .connect p => .connect <$> p.decodeVariableHeader
  | .publish p => .publish <$> p.decodeVariableHeader build remainingLength protocolVersion
  | .subscribe p => .subscribe <$> p.decodeVariableHeader build remainingLength protocolVersion
  | .unsubscribe p => .unsubscribe <$> p.decodeVariableHeader build remainingLength protocolVersion
  | .pingreq p => pure (.pingreq p)
  | .disconnect p => .disconnect <$> p.decodeVariableHeader remainingLength protocolVersion
  | .pubrel p => .pubrel <$> p.decodeVariableHeader remainingLength protocolVersion
  | .puback p => ackVariableHeader protocolVersion fun packetId protocolVersion =>
      .puback { p with packetId, protocolVersion }
  | .pubrec p => ackVariableHeader protocolVersion fun packetId protocolVersion =>
      .pubrec { p with packetId, protocolVersion }
  | .pubcomp p => ackVariableHeader protocolVersion fun packetId protocolVersion =>
      .pubcomp { p with packetId, protocolVersion }
  | _ => fail .notImplemented

/-- Put a decoded packet back under its constructor. -/
def rewrap {α : Type} (packet : α → ControlPacket) (decoded : Result (α × Bytes)) :
    Result (ControlPacket × Bytes) :=
  decoded >>= fun pair => .ok (packet pair.1, pair.2)

def ControlPacket.decodePayload (self : ControlPacket) (buf : Bytes) :
    Result (ControlPacket × Bytes) :=
  match self with
  | .connect p => rewrap .connect (p.decodePayload buf)
  | .publish p => rewrap .publish (p.decodePayload buf)
  | .subscribe p => rewrap .subscribe (p.decodePayload buf)
  | .unsubscribe p => rewrap .unsubscribe (p.decodePayload buf)
  | .pingreq p => .ok (.pingreq p, buf)
  | .pubrel p => .ok (.pubrel p, buf)
  | .disconnect p => .ok (.disconnect p, buf)
  | .puback p => .ok (.puback p, buf)
  | .pubrec p => .ok (.pubrec p, buf)
  | .pubcomp p => .ok (.pubcomp p, buf)
  | _ => .err .notImplemented

/-- DUP, QoS and RETAIN of the first byte of a PUBLISH. -/
def decodeLowerFixedHeader (first : UInt8) : Result (Dup × QoS × Retain) := do
  let qos ← QoS.ofByte ((first &&& 0b00000110) >>> 1)
  pure (⟨first &&& 0b00001000 ≠ 0⟩, qos, ⟨first &&& 0b00000001 ≠ 0⟩)

/-- The packet a frame starts, by its first byte. -/
def packetOfFirstByte (first : UInt8) : Result ControlPacket :=
  let kind := first >>> 4
  if kind = 0b0001 then .ok (.connect {})
  else if kind = 0b1110 then .ok (.disconnect {})
  else if kind = 0b0011 then do
    let (dup, qos, retain) ← decodeLowerFixedHeader first
    pure (.publish { qos, dup, retain })
  else if kind = 0b0100 then .ok (.puback {})
  else if kind = 0b0101 then .ok (.pubrec {})
  else if kind = 0b0110 then
    if first ≠ 0b01100010 then .err .invalidFormat else .ok (.pubrel {})
  else if kind = 0b0111 then .ok (.pubcomp {})
  else if kind = 0b1000 then
    if first ≠ 0b10000010 then .err .invalidFormat else .ok (.subscribe {})
  else if kind = 0b1010 then
    if first ≠ 0b10100010 then .err .invalidFormat else .ok (.unsubscribe {})
  else .err .invalidFormat

/-- The packet and its remaining length; the position behind them is the length of the fixed
header. Every branch of the source reads the remaining length after its own checks. -/
def decodeFixedHeader : FieldReader (ControlPacket × ℕ) := do
  let first ← index
  let packet ← lift (packetOfFirstByte first)
  let remainingLength ← decodeVariableLength
  pure (packet, remainingLength)

inductive DecoderState where
  | fixedHeaderDecoded
  | variableHeaderDecoded
  | done
deriving DecidableEq

structure Decoder where
  state : DecoderState := .done
  tmpPacket : ControlPacket := .undefined
  protocolVersion : Option ProtocolVersion := none
  remainingLength : ℕ := 0
  remainLengthCounter : ℕ := 0
  buf : Bytes := []
deriving DecidableEq

namespace Decoder

def new : Decoder := {}

def setProtocolVersion (self : Decoder) (v : Option ProtocolVersion) : Decoder :=
  { self with protocolVersion := v }

/-- The bytes of one socket read are appended to the buffer. -/
def feed (self : Decoder) (bytes : Bytes) : Decoder := { self with buf := self.buf ++ bytes }

/-- `DecoderState::Done`: the fixed header. -/
def pollFixedHeader (self : Decoder) : Result (Option ControlPacket × Decoder) :=
  if self.buf.length < 2 then .ok (none, self)
  else do
    let ((tmpPacket, remainingLength), nextPos) ← decodeFixedHeader self.buf 0
    let buf ← advance self.buf nextPos
    pure (none, { self with
      tmpPacket, remainingLength, buf, state := .fixedHeaderDecoded, remainLengthCounter := 0 })

/-- `DecoderState::FixedHeaderDecoded`: the variable header. The packet is ready here when the
variable header used up the remaining length. -/
def pollVariableHeader (build : Build) (self : Decoder) :
    Result (Option ControlPacket × Decoder) := do
  let (packet, size) ←
    self.tmpPacket.decodeVariableHeader build self.remainingLength self.protocolVersion self.buf 0
  let buf ← advance self.buf size
  let counter := self.remainLengthCounter + size
  if counter = self.remainingLength then
    pure (some packet, { self with
      buf, remainLengthCounter := counter, state := .done, tmpPacket := .undefined })
  else
    pure (none, { self with
      buf, remainLengthCounter := counter, state := .variableHeaderDecoded, tmpPacket := packet })

/-- `DecoderState::VariableHeaderDecoded`: the payload. -/
def pollPayload (self : Decoder) : Result (Option ControlPacket × Decoder) := do
  let (packet, buf) ← self.tmpPacket.decodePayload self.buf
  pure (some packet, { self with buf, state := .done, tmpPacket := .undefined })

/-- One poll: a packet is `Poll::Ready(Ok(_))`, no packet is `Poll::Pending`. -/
def pollDecode (build : Build) (self : Decoder) : Result (Option ControlPacket × Decoder) :=
  if self.buf = [] then .ok (none, self)
  else match self.state with
    | .done => self.pollFixedHeader
    | .fixedHeaderDecoded => self.pollVariableHeader build
    | .variableHeaderDecoded => self.pollPayload

/-- The decoder with another buffer. -/
def holding (self : Decoder) (buf : Bytes) : Decoder := { self with buf }

/-- Poll until a packet is ready, at most `calls` times. -/
def pollUpTo (build : Build) : ℕ → Decoder → Result (Option ControlPacket × Decoder)
  | 0, self => .ok (none, self)
  | calls + 1, self => do
      let (ready, next) ← self.pollDecode build
      match ready with
      | some packet => pure (some packet, next)
      | none => pollUpTo build calls next

/-- Repeated polls, with no bytes arriving, emit `packet` and leave the decoder `next`. -/
def Emits (build : Build) (self : Decoder) (packet : ControlPacket) (next : Decoder) : Prop :=
  ∃ calls, self.pollUpTo build calls = .ok (some packet, next)

end Decoder

end Aqua
