import Aqua.Runtime.DashMap
import Aqua.Runtime.Channel
import Aqua.Model.Packet
import Mathlib.Logic.Function.Basic

/-! # The session manager

Five maps shared by all connections: the outbound sender of a connection, the two directions between
MQTT ids and connections, the QoS 2 messages that wait for their PUBREL, and the protocol version of
an MQTT id. A sender names the connection whose channel it feeds; the channels themselves are kept
beside the maps.
-/

namespace Aqua

open Runtime

/-- The id of a connection, drawn when it is accepted. -/
structure Uuid where
  value : BitVec 128
deriving DecidableEq

def channelCapacity : ℕ := 32

/-- The outbound channel of a connection. -/
abbrev OutboundChannel := Channel channelCapacity ControlPacket

/-- The channels of all connections. -/
abbrev Channels := Uuid → OutboundChannel

/-- A sender for the channel of the connection `tx`. -/
structure Outbound where
  tx : Uuid
deriving DecidableEq

/-- What a send did: its result and the channels behind it. -/
abbrev Sent := Except (TrySendError ControlPacket) Unit × Channels

def Outbound.send (self : Outbound) (channels : Channels) (pkt : ControlPacket) : Sent :=
  match (channels self.tx).trySend pkt with
  | .ok channel => (.ok (), Function.update channels self.tx channel)
  | .error e => (.error e, channels)

structure SessionManager where
  byClientId : DashMap Uuid Outbound := .new
  byMqttId : DashMap String Uuid := .new
  byClientMqtt : DashMap Uuid String := .new
  qosTmp : DashMap UInt16 (Publish × QoS) := .new
  mqttVersion : DashMap String ProtocolVersion := .new

namespace SessionManager

def new : SessionManager := {}

/-- For re-sending and for QoS 2. -/
def addStagingPacket (self : SessionManager) (pkt : Publish) (qos : QoS) : SessionManager :=
  match pkt.packetId with
  | some id => { self with qosTmp := self.qosTmp.insert id.value (pkt, qos) }
  | none => self

def fetchPacket (self : SessionManager) (pid : PacketId) : Result Publish :=
  match self.qosTmp.get pid.value with
  | some (publish, _) => .ok publish
  | none => .err .unexpected

def commitPacket (self : SessionManager) (pid : PacketId) : Result Unit × SessionManager :=
  match self.qosTmp.get pid.value with
  | some _ => (.ok (), { self with qosTmp := self.qosTmp.remove pid.value })
  | none => (.err .unexpected, self)

def registerClientId (self : SessionManager) (clientId : Uuid) (outbound : Outbound) :
    SessionManager :=
  { self with byClientId := self.byClientId.insert clientId outbound }

def unregisterClientId (self : SessionManager) (clientId : Uuid) : SessionManager :=
  { self with byClientId := self.byClientId.remove clientId }

def sendByClientId (self : SessionManager) (channels : Channels) (clientId : Uuid)
    (pkt : ControlPacket) : Sent :=
  match self.byClientId.get clientId with
  | some outbound => outbound.send channels pkt
  | none => (.error (.closed pkt), channels)

def sendByMqttId (self : SessionManager) (channels : Channels) (mqttId : String)
    (pkt : ControlPacket) : Sent :=
  match self.byMqttId.get mqttId with
  | some clientId => self.sendByClientId channels clientId pkt
  | none => (.ok (), channels)

def registerMqttId (self : SessionManager) (mqttId : String) (clientId : Uuid) : SessionManager :=
  { self with
    byMqttId := self.byMqttId.insert mqttId clientId
    byClientMqtt := self.byClientMqtt.insert clientId mqttId }

def unregisterMqttId (self : SessionManager) (mqttId : String) : SessionManager :=
  match self.byMqttId.get mqttId with
  | some clientId =>
      { self with
        byMqttId := self.byMqttId.remove mqttId
        byClientMqtt := self.byClientMqtt.remove clientId }
  | none => self

def getMqttId (self : SessionManager) (clientId : Uuid) : Option String :=
  self.byClientMqtt.get clientId

def getProtocolVersion (self : SessionManager) (mqttId : String) : Option ProtocolVersion :=
  self.mqttVersion.get mqttId

def setProtocolVersion (self : SessionManager) (mqttId : String) (version : ProtocolVersion) :
    SessionManager :=
  { self with mqttVersion := self.mqttVersion.insert mqttId version }

end SessionManager

end Aqua
