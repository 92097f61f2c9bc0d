import Aqua.Spec.Client
import Aqua.Spec.Grammar
import Mathlib.Data.List.Duplicate

/-! # Property lists with repetitions

A property block as the list of properties on the wire, legal or not, and the four packets behind CONNECT
that carry one. `single` names the properties the protocol allows once in a packet.
-/

namespace Aqua

open Wire Wire.Reader

/-- An identifier and the bytes of the value. -/
structure WireProperty where
  id : UInt8
  value : Bytes
deriving DecidableEq

/-- The bytes a value of a format is written with, and when the value is a legal one. -/
inductive ValueBytes : Format Unit → Bytes → Prop → Prop
  | flag (byte : UInt8) : ValueBytes Grammar.flag [byte] (byte = 0 ∨ byte = 1)
  | u32 (value : UInt32) : ValueBytes Format.u32.ignore (be32Bytes value) True
  | nonzero16 (value : UInt16) : ValueBytes Grammar.nonzero16 (be16Bytes value) (value ≠ 0)
  | string {content : Bytes} (short : content.length < 2 ^ 16) :
      ValueBytes Grammar.string (putTruncated content) (fromUtf8 content ≠ none)
  | stringPair {key value : Bytes} (shortKey : key.length < 2 ^ 16) (shortValue : value.length < 2 ^ 16) :
      ValueBytes Grammar.stringPair (putTruncated key ++ putTruncated value)
        (fromUtf8 key ≠ none ∧ fromUtf8 value ≠ none)
  | binary {content : Bytes} (short : content.length < 2 ^ 16) :
      ValueBytes Grammar.binary.ignore (putTruncated content) True
  | variableLength {n : ℕ} {digits : Bytes} (reads : Reads decodeVariableLength digits n) :
      ValueBytes Grammar.variableLength.ignore digits True

namespace WireProperty

def wire (p : WireProperty) : Bytes := p.id :: p.value

/-- The value has the layout its identifier asks for. -/
def Formed (table : Grammar.PropertyTable) (p : WireProperty) : Prop :=
  ∀ rule, table p.id = some rule → ∃ legal, ValueBytes rule.value p.value legal

/-- The packet knows the identifier, and the value is legal. -/
def Legal (table : Grammar.PropertyTable) (p : WireProperty) : Prop :=
  ∃ rule, table p.id = some rule ∧ ∃ legal, ValueBytes rule.value p.value legal ∧ legal

end WireProperty

/-- One of the identifiers stands at two positions. -/
def Repeats (ids : List UInt8) (properties : List WireProperty) : Prop :=
  ∃ id ∈ ids, (properties.map WireProperty.id).Duplicate id

instance (ids : List UInt8) (properties : List WireProperty) : Decidable (Repeats ids properties) :=
  inferInstanceAs (Decidable (∃ id ∈ ids, _))

/-- The packets behind CONNECT with a property block of several properties, up to that block. -/
inductive Carrier where
  | publish (dup : Dup) (delivery : Delivery) (retain : Retain) (topic : TopicName)
  | subscribe (id : PacketId)
  | pubrel (id : PacketId) (reason : PubrelReasonCode)
  | disconnect (reason : UInt8)

namespace Carrier

/-- The topic fits behind its length, and the reason is one of the protocol. -/
def Fits : Carrier → Prop
  | publish _ _ _ topic => (stringBytes topic.value).length < 2 ^ 16
  | disconnect reason => DisconnectReasonCode.ofByte? reason ≠ none
  | _ => True

/-- What the first byte of the packet starts. -/
def start : Carrier → ControlPacket
  | publish dup delivery retain _ => .publish { dup, qos := delivery.qos, retain }
  | subscribe _ => .subscribe {}
  | pubrel _ _ => .pubrel {}
  | disconnect _ => .disconnect {}

/-- The variable header up to the property block. -/
def front : Carrier → Bytes
  | publish _ delivery _ topic => putTruncated (stringBytes topic.value) ++ ClientPacket.identifier delivery
  | subscribe id => be16Bytes id.value
  | pubrel id reason => be16Bytes id.value ++ [reason.toByte]
  | disconnect reason => [reason]

def table : Carrier → Grammar.PropertyTable
  | publish .. => Grammar.publishTable
  | subscribe _ => Grammar.subscribeTable
  | pubrel _ _ => Grammar.pubrelTable
  | disconnect _ => Grammar.disconnectTable

/-- The properties that may stand once in the packet. -/
def single : Carrier → List UInt8
  | publish .. => [0x01, 0x02, 0x23, 0x08, 0x09, 0x03]
  | subscribe _ => [0x0b]
  | pubrel _ _ => [0x1f]
  | disconnect _ => [0x11, 0x1f, 0x1c]

/-- Those of them whose presence the property loop tests before it reads another one. -/
def checked : Carrier → List UInt8
  | publish .. => [0x23, 0x08, 0x09, 0x03]
  | subscribe _ => []
  | pubrel _ _ => []
  | disconnect _ => [0x11, 0x1f]

/-- The variable header with this property block is an error for a decoder of version 5. -/
def Rejects (c : Carrier) (build : Build) (remainingLength : ℕ) (block after : Bytes) : Prop :=
  ∃ e, c.start.decodeVariableHeader build remainingLength (some ⟨5⟩) (c.front ++ (block ++ after)) 0 = .err e

end Carrier

end Aqua
