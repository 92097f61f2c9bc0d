import Aqua.Model.SessionManager
import Aqua.Model.Topics

/-! # The broker's handlers

What the two services do with a request: the connect service with the first packet of a connection,
the service with every later one. A handler is one step on the state all connections share; the
deliveries it spawns are kept as tasks, each of which is one step at some later time.
-/

namespace Aqua

open Wire Runtime

/-- The packets a service answers with. -/
structure Response where
  packets : List ControlPacket := []
deriving DecidableEq

def Response.new (packet : ControlPacket) : Response := ⟨[packet]⟩

structure ConnackResponse where
  sessionPresent : Bool := false
  version : ProtocolVersion := {}
  connackProperties : Option ConnackProperties := none
deriving DecidableEq

def ConnackResponse.toConnack (self : ConnackResponse) : Connack where
  sessionPresent := self.sessionPresent
  connectReason := .success
  connackProperties := self.connackProperties
  version := self.version

/-- `impl From<Connack> for ConnackResponse`. -/
def ConnackResponse.ofConnack (item : Connack) : ConnackResponse where
  version := item.version
  sessionPresent := item.sessionPresent
  connackProperties := item.connackProperties

structure ConnackError where
  reasonCode : ConnackReason
deriving DecidableEq

/-- `impl From<QoS> for SubackReasonCode`. -/
def SubackReasonCode.ofQoS : QoS → SubackReasonCode
  | .qos0 => .grantedQos0
  | .qos1 => .grantedQos1
  | .qos2 => .grantedQos2

/-- The bodies of the two `tokio::spawn` calls: a QoS 0 or 1 message is retained and delivered, a QoS 2
message released by a PUBREL is delivered under the packet identifier of the PUBREL. -/
inductive Task where
  | deliver (pubpacket : Publish)
  | release (publish : Publish) (packetId : PacketId)
deriving DecidableEq

/-- What the connections share. -/
structure Broker where
  session : SessionManager := .new
  retain : RetainStore := .new
  topics : TopicManager := .new
  channels : Channels := fun _ => .new
  tasks : List Task := []

/-- What a handler returned, and the state behind it. -/
abbrev Answer := Result Response × Broker

namespace Broker

def new : Broker := {}

def spawn (self : Broker) (task : Task) : Broker := { self with tasks := self.tasks ++ [task] }

/-- `get_protocol_version(..).unwrap_or(ProtocolVersion::new(0x04))`. -/
def versionOf (self : Broker) (mqttId : String) : ProtocolVersion :=
  (self.session.getProtocolVersion mqttId).getD ⟨0x04⟩

/-- The protocol names and levels that are accepted. -/
def acceptsLevel (name : String) (level : UInt8) : Bool :=
  (name = "MQTT" && (level = 4 || level = 5)) || (name = "MQIsdp" && level = 3)

/-- The connect service on the connection `clientId`: its result, the state behind it, and the MQTT
id of the connection. -/
def onConnect (self : Broker) (clientId : Uuid) (mqttId : String) (req : ControlPacket) :
    Except ConnackError ConnackResponse × Broker × String :=
  match req with
  | .connect connectData =>
      if acceptsLevel connectData.protocolName.value connectData.protocolVer.value then
        let connackData : Connack := {
          sessionPresent := false
          connectReason := .success
          connackProperties := none
          version := ⟨0x04⟩ }
        let mqttId := connectData.clientId.value
        let session := (self.session.registerMqttId mqttId clientId).setProtocolVersion mqttId
          connackData.version
        (.ok (.ofConnack connackData), { self with session }, mqttId)
      else (.error ⟨.protocolError⟩, self, mqttId)
  | _ => (.error ⟨.protocolError⟩, self, mqttId)

/-- The retained messages collected so far, and the topics they have. -/
structure Collected where
  session : SessionManager
  topics : List TopicName := []
  packets : List Publish := []

/-- One retained message: dropped if its topic was collected before, staged if its QoS is 2. -/
def Collected.add (self : Collected) (p : Publish) : Collected :=
  if p.topicName ∈ self.topics then self
  else {
    session := if p.qos = .qos2 then self.session.addStagingPacket p .qos2 else self.session
    topics := self.topics ++ [p.topicName]
    packets := self.packets ++ [p] }

/-- The retained messages for a list of filters. -/
def collectRetained (self : Broker) (filters : List (TopicFilter × SubscribeOption)) : Collected :=
  (filters.flatMap fun filter => self.retain.checkRetain filter.1.value).foldl Collected.add
    { session := self.session }

def onSubscribe (self : Broker) (mqttId : String) (subpacket : Subscribe) : Answer :=
  let topics :=
    if mqttId ≠ "" then
      subpacket.topicFilters.foldl
        (fun topics filter => topics.register filter.1.value mqttId filter.2) self.topics
    else self.topics
  let successCodes :=
    if mqttId ≠ "" then subpacket.topicFilters.map fun filter => SubackReasonCode.ofQoS filter.2.qos
    else []
  let protocolVersion := self.session.getProtocolVersion mqttId
  let collected := self.collectRetained subpacket.topicFilters
  let self := { self with topics, session := collected.session }
  match protocolVersion with
  | some protocolVersion =>
      (.ok ⟨.suback {
          packetId := subpacket.packetId
          subackProperties := none
          reasonCodes := successCodes
          protocolVersion } :: collected.packets.map ControlPacket.publish⟩, self)
  | none => (.panic, self)

/-- A message without a payload clears what is retained for its topic. -/
def clearRetained (self : Broker) (pubpacket : Publish) : Broker :=
  if pubpacket.retain.value then
    { self with retain := self.retain.removeRetain pubpacket.topicName.value }
  else self

def onPublish (self : Broker) (mqttId : String) (pubpacket : Publish) : Answer :=
  let version := self.versionOf mqttId
  let pubpacket := { pubpacket with protocolVersion := version }
  match pubpacket.packetId, pubpacket.qos with
  -- the assertion that a QoS 2 message has a packet identifier
  | none, .qos2 => (.panic, self)
  | none, .qos1 => (.err .protocolViolation, self)
  | some packetId, .qos2 =>
      let self :=
        if pubpacket.payloadLength = 0 then self.clearRetained pubpacket
        else { self with session := self.session.addStagingPacket pubpacket .qos2 }
      (.ok (.new (.pubrec {
        packetId, reasonCode := some .success, pubrecProperties := none, protocolVersion := version })),
        self)
  | packetId, qos =>
      let self :=
        if pubpacket.payloadLength = 0 then self.clearRetained pubpacket
        else self.spawn (.deliver pubpacket)
      match qos, packetId with
      | .qos1, some packetId =>
          (.ok (.new (.puback {
            packetId, reasonCode := none, pubackProperties := none, protocolVersion := version })), self)
      | _, _ => (.ok (.new .noOperation), self)

def onPubrel (self : Broker) (mqttId : String) (pubrelPacket : Pubrel) : Answer :=
  let packetId := pubrelPacket.packetId
  let version := self.versionOf mqttId
  let self :=
    match self.session.fetchPacket packetId with
    | .ok publish =>
        let self :=
          if publish.payloadLength = 0 ∧ publish.retain.value then
            { self with retain := self.retain.removeRetain publish.topicName.value }
          else
            let self :=
              if publish.retain.value then
                { self with retain := self.retain.updateRetain publish.topicName.value publish }
              else self
            self.spawn (.release publish packetId)
        { self with session := (self.session.commitPacket packetId).2 }
    | _ => self
  (.ok (.new (.pubcomp {
    packetId
    pubcompReason := some .success
    pubcompProperties := none
    protocolVersion := version })), self)

def onPubrec (self : Broker) (mqttId : String) (pubrecPacket : Pubrec) : Answer :=
  (.ok (.new (.pubrel {
    packetId := pubrecPacket.packetId
    pubrelProperties := none
    reasonCode := none
    protocolVersion := self.versionOf mqttId })), self)

def onPubcomp (self : Broker) (pubcompPacket : Pubcomp) : Answer :=
  (.ok (.new .noOperation),
    { self with session := (self.session.commitPacket pubcompPacket.packetId).2 })

def onDisconnect (self : Broker) (mqttId : String) : Answer :=
  (.ok (.new .noOperation),
    if mqttId ≠ "" then { self with session := self.session.unregisterMqttId mqttId } else self)

/-- The service on a connection with the MQTT id `mqttId`. -/
def handle (self : Broker) (mqttId : String) : ControlPacket → Answer
  | .disconnect _ => self.onDisconnect mqttId
  | .pingreq _ => (.ok (.new (.pingresp {})), self)
  | .subscribe subpacket => self.onSubscribe mqttId subpacket
  | .publish pubpacket => self.onPublish mqttId pubpacket
  | .connect _ => (.err .protocolViolation, self)
  | .pubrel pubrelPacket => self.onPubrel mqttId pubrelPacket
  | .pubrec pubrecPacket => self.onPubrec mqttId pubrecPacket
  | .pubcomp pubcompPacket => self.onPubcomp pubcompPacket
  | _ => (.ok (.new .noOperation), self)

/-- `random!(..=1000)`, one draw for each place of a list of subscribers. -/
abbrev Draws := ℕ → Fin 1001

/-- The copy a subscriber of a QoS 0 or 1 message gets. -/
def deliveryMsg (pubpacket : Publish) (option : SubscribeOption) (draw : Fin 1001) : Publish :=
  let packetId := if option.qos = .qos0 then none else pubpacket.packetId
  { pubpacket with
    qos := option.qos
    packetId :=
      if packetId = none ∧ option.qos ≠ .qos0 then some ⟨UInt16.ofNat draw⟩ else packetId }

/-- The copy a subscriber of a released QoS 2 message gets. -/
def releaseMsg (publish : Publish) (packetId : PacketId) (option : SubscribeOption) : Publish :=
  { publish with
    qos := option.qos
    packetId := if option.qos = .qos0 then none else some packetId }

/-- The result of a send is only printed. -/
def sendTo (self : Broker) (subId : String) (msg : Publish) : Broker :=
  { self with channels := (self.session.sendByMqttId self.channels subId (.publish msg)).2 }

/-- The loop over the subscribers of a topic; `msg` gets the place and the option of each. -/
def sendAll (self : Broker) (topic : String) (msg : ℕ → SubscribeOption → Publish) : Broker :=
  (self.topics.subedId topic).zipIdx.foldl
    (fun broker sub => broker.sendTo sub.1.1 (msg sub.2 sub.1.2)) self

def runTask (self : Broker) (draws : Draws) : Task → Broker
  | .deliver pubpacket =>
      let self :=
        if pubpacket.retain.value then
          { self with retain := self.retain.updateRetain pubpacket.topicName.value pubpacket }
        else self
      self.sendAll pubpacket.topicName.value fun place option =>
        deliveryMsg pubpacket option (draws place)
  | .release publish packetId =>
      self.sendAll publish.topicName.value fun _ option => releaseMsg publish packetId option

/-- What happens to the shared state: a connection is accepted and registers its sender, one of the
two services handles a packet, a spawned task runs, a connection offers a packet to its own channel,
the writer takes one or is gone, or the tables are iterated in another order from now on. -/
inductive Event where
  | accept (clientId : Uuid)
  | connect (clientId : Uuid) (mqttId : String) (req : ControlPacket)
  | request (mqttId : String) (packet : ControlPacket)
  | task (task : Task) (draws : Draws)
  | offer (clientId : Uuid) (packet : ControlPacket)
  | take (clientId : Uuid)
  | close (clientId : Uuid)
  | rehash (topics : TopicManager) (retain : RetainStore)

/-- The change of one channel. -/
def onChannel (self : Broker) (clientId : Uuid) (change : OutboundChannel → OutboundChannel) :
    Broker :=
  { self with
    channels := Function.update self.channels clientId (change (self.channels clientId)) }

def accept (self : Broker) (clientId : Uuid) : Broker :=
  { self.onChannel clientId fun _ => .new with
    session := self.session.registerClientId clientId ⟨clientId⟩ }

def offer (self : Broker) (clientId : Uuid) (packet : ControlPacket) : Broker :=
  { self with channels := (Outbound.send ⟨clientId⟩ self.channels packet).2 }

/-- Take one spawned task out. -/
def finish (self : Broker) (task : Task) : Broker := { self with tasks := self.tasks.erase task }

inductive Step (self : Broker) : Event → Broker → Prop
  | accept (clientId : Uuid) : Step self (.accept clientId) (self.accept clientId)
  | connect (clientId : Uuid) (mqttId : String) (req : ControlPacket) :
      Step self (.connect clientId mqttId req) (self.onConnect clientId mqttId req).2.1
  | request (mqttId : String) (packet : ControlPacket) :
      Step self (.request mqttId packet) (self.handle mqttId packet).2
  | task {task : Task} (spawned : task ∈ self.tasks) (draws : Draws) :
      Step self (.task task draws) ((self.finish task).runTask draws task)
  | offer (clientId : Uuid) (packet : ControlPacket) :
      Step self (.offer clientId packet) (self.offer clientId packet)
  | take (clientId : Uuid) : Step self (.take clientId) (self.onChannel clientId .take)
  | close (clientId : Uuid) : Step self (.close clientId) (self.onChannel clientId .close)
  | rehash {topics : TopicManager} {retain : RetainStore}
      (sameTopics : DashMap.Reorders self.topics.topicMap topics.topicMap)
      (sameRetain : DashMap.Reorders self.retain.kvs retain.kvs) :
      Step self (.rehash topics retain) { self with topics, retain }

end Broker

end Aqua
