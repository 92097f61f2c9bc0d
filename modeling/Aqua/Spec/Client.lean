import Aqua.Model.Decoder

/-! # What a client of version 3.1.1 sends

The client-to-server packets behind CONNECT, laid out as the protocol prescribes, and for each of
them the packet the broker has to see. Nothing here is taken from the decoder.
-/

namespace Aqua

open Wire

/-- How a PUBLISH is delivered; the identifier goes with the levels that acknowledge. -/
inductive Delivery where
  | atMostOnce
  | atLeastOnce (id : PacketId)
  | exactlyOnce (id : PacketId)
deriving DecidableEq

namespace Delivery

def qos : Delivery → QoS
  | .atMostOnce => .qos0
  | .atLeastOnce _ => .qos1
  | .exactlyOnce _ => .qos2

def packetId : Delivery → Option PacketId
  | .atMostOnce => none
  | .atLeastOnce id | .exactlyOnce id => some id

end Delivery

def QoS.bits : QoS → UInt8
  | .qos0 => 0
  | .qos1 => 1
  | .qos2 => 2

inductive ClientPacket where
  | publish (dup : Dup) (delivery : Delivery) (retain : Retain) (topic : TopicName) (payload : Bytes)
  | puback (id : PacketId)
  | pubrec (id : PacketId)
  | pubrel (id : PacketId)
  | pubcomp (id : PacketId)
  | subscribe (id : PacketId) (filters : List (TopicFilter × QoS))
  | unsubscribe (id : PacketId) (filters : List TopicFilter)
  | pingreq
  | disconnect
deriving DecidableEq

namespace ClientPacket

/-- Type, DUP, QoS and RETAIN of a PUBLISH. -/
def publishByte (dup : Dup) (qos : QoS) (retain : Retain) : UInt8 :=
  let dupBit : UInt8 := if dup.value then 0x08 else 0x00
  let retainBit : UInt8 := if retain.value then 0x01 else 0x00
  let qosBits : UInt8 := qos.bits <<< 1
  0x30 ||| dupBit ||| qosBits ||| retainBit

/-- Packet type and flags. -/
def firstByte : ClientPacket → UInt8
  | publish dup delivery retain _ _ => publishByte dup delivery.qos retain
  | puback _ => 0x40
  | pubrec _ => 0x50
  | pubrel _ => 0x62
  | pubcomp _ => 0x70
  | subscribe _ _ => 0x82
  | unsubscribe _ _ => 0xa2
  | pingreq => 0xc0
  | disconnect => 0xe0

/-- A topic filter and the maximum QoS asked for. -/
def subscription (filter : TopicFilter × QoS) : Bytes :=
  putTruncated (stringBytes filter.1.value) ++ [filter.2.bits]

/-- The packet identifier of a PUBLISH, if it has one. -/
def identifier (delivery : Delivery) : Bytes := optionBytes delivery.packetId (be16Bytes ·.value)

/-- Variable header and payload. -/
def body : ClientPacket → Bytes
  | publish _ delivery _ topic payload =>
      putTruncated (stringBytes topic.value) ++ identifier delivery ++ payload
  | puback id | pubrec id | pubrel id | pubcomp id => be16Bytes id.value
  | subscribe id filters => be16Bytes id.value ++ filters.flatMap subscription
  | unsubscribe id filters =>
      be16Bytes id.value ++ filters.flatMap fun filter => putTruncated (stringBytes filter.value)
  | pingreq | disconnect => []

def wire (q : ClientPacket) : Bytes := q.firstByte :: encodeVariableBytes q.body.length ++ q.body

/-- Strings and the body fit behind their lengths, and a filter list is not empty. -/
def WellFormed (q : ClientPacket) : Prop :=
  q.body.length < 2 ^ 28 ∧ match q with
    | publish _ _ _ topic _ => (stringBytes topic.value).length < 2 ^ 16
    | subscribe _ filters =>
        filters ≠ [] ∧ ∀ filter ∈ filters, (stringBytes filter.1.value).length < 2 ^ 16
    | unsubscribe _ filters =>
        filters ≠ [] ∧ ∀ filter ∈ filters, (stringBytes filter.value).length < 2 ^ 16
    | _ => True

/-- The packet a broker of version 3.1.1 has to see. -/
def decoded : ClientPacket → ControlPacket
  | publish dup delivery retain topicName payload => .publish {
      dup, qos := delivery.qos, retain, topicName, packetId := delivery.packetId
      payloadLength := payload.length, payloadData := payload }
  | puback packetId => .puback { packetId, protocolVersion := ⟨4⟩ }
  | pubrec packetId => .pubrec { packetId, protocolVersion := ⟨4⟩ }
  | pubrel packetId => .pubrel { packetId }
  | pubcomp packetId => .pubcomp { packetId, protocolVersion := ⟨4⟩ }
  | subscribe packetId filters => .subscribe {
      packetId, topicFilters := filters.map fun filter => (filter.1, { qos := filter.2 })
      payloadLength := (filters.flatMap subscription).length }
  | unsubscribe packetId topicFilters => .unsubscribe {
      packetId, topicFilters
      payloadLength := (topicFilters.flatMap fun filter =>
        putTruncated (stringBytes filter.value)).length }
  | pingreq => .pingreq {}
  | disconnect => .disconnect { reasonCode := .normalDisconnection }

end ClientPacket

end Aqua
