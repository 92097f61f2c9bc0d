import Aqua.Model.Connection

/-! # The server of the main binary

Its two services keep no state: every request is answered from the packet alone. The answers are written for
version 3.1.1, except the CONNACK, which has the version of the CONNECT.
-/

namespace Aqua

namespace MainService

/-- The version of the answers. -/
def answerVersion : ProtocolVersion := ⟨0x04⟩

def handle : ControlPacket → Response
  | .pingreq _ => .new (.pingresp {})
  | .subscribe subscribe => .new (.suback {
      packetId := subscribe.packetId
      subackProperties := none
      -- every filter is granted QoS 0
      reasonCodes := subscribe.topicFilters.map fun _ => .grantedQos0
      protocolVersion := answerVersion })
  | .publish publish =>
      match publish.qos, publish.packetId with
      | .qos1, some packetId => .new (.puback {
          packetId, reasonCode := none, pubackProperties := none, protocolVersion := answerVersion })
      | .qos2, some packetId => .new (.pubrec {
          packetId, reasonCode := none, pubrecProperties := none, protocolVersion := answerVersion })
      | _, _ => {}
  | .pubrel pubrel => .new (.pubcomp {
      packetId := pubrel.packetId
      pubcompReason := none
      protocolVersion := answerVersion
      pubcompProperties := none })
  | .unsubscribe unsubscribe => .new (.unsuback {
      packetId := unsubscribe.packetId
      unsubackProperties := none
      reasonCodes := List.replicate unsubscribe.topicFilters.length .success
      protocolVersion := answerVersion })
  | _ => {}

/-- The connect service accepts everything. -/
def onConnect : ControlPacket → ConnackResponse
  | .connect connectData => {
      sessionPresent := false, version := connectData.protocolVer, connackProperties := none }
  | _ => {}

/-- Neither call awaits anything, so a future is its result. -/
def services : Services Response ConnackResponse := ⟨handle, onConnect⟩

/-- The future of the connect service is ready when it is polled. -/
def connackOf : ConnectionState Response ConnackResponse → Option ConnackResponse
  | .processingConnect res => some res
  | _ => none

def responseOf : ConnectionState Response ConnackResponse → Option Response
  | .processingService res => some res
  | _ => none

/-- What a poll finds. The error of the service is `Infallible`, and the connect service returns none. -/
def input (state : ConnectionState Response ConnackResponse) (read : SocketRead) (others : ℕ → List ChannelOp) :
    PollInput Empty where
  read
  connect := .ok (connackOf state)
  service := .ok (responseOf state)
  others

/-- What the surroundings of a connection are when it is polled: its channel, the bytes of the socket, and what
the writer does to the channel meanwhile. -/
structure Surroundings where
  channel : OutboundChannel
  read : SocketRead
  others : ℕ → List ChannelOp := fun _ => []

def poll (build : Build) (session : Session Empty Response ConnackResponse) (found : Surroundings) :
    Session Empty Response ConnackResponse :=
  session.poll build services (found.channel, input session.connection.state found.read found.others)

def run (build : Build) (session : Session Empty Response ConnackResponse) (polls : List Surroundings) :
    Session Empty Response ConnackResponse :=
  polls.foldl (poll build) session

end MainService

end Aqua
