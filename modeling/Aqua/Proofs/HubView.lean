import Aqua.Proofs.PoolVersions
import Aqua.Soundness.Deliveries
import Aqua.Soundness.Provenance
import Aqua.Spec.Hub
import Mathlib.Algebra.BigOperators.Group.Multiset.Basic
import Mathlib.Algebra.Order.Group.Multiset

/-! # The broker as a hub

The notes of the hub are the messages without their version; those in a mailbox have no packet identifier
either. A task that is not retained yet is a posted note, one that has not looked its subscribers up is kept,
and the sends of the others are copies. A connection is an address, and its channel a mailbox, which other
packets fill up as well and the writer collects from.
-/

namespace Aqua

open Runtime

/-- The hub the broker works as. -/
abbrev BrokerHub := Hub Uuid String String String SubscribeOption PacketId Publish

abbrev BrokerRequest := Hub.Request Uuid String String String SubscribeOption PacketId Publish

/-- The message without the version, which is the broker's. -/
def Publish.letter (p : Publish) : Publish := { p with protocolVersion := {} }

/-- The message of a packet, as a subscriber gets it. -/
def ControlPacket.letter? : ControlPacket → Option Publish
  | .publish p => some p.letter.unnumbered
  | _ => none

namespace Broker

def rules : Hub.Rules String String SubscribeOption PacketId Publish where
  capacity := channelCapacity
  matched := Matches
  topic := fun p => p.topicName.value
  lasting := fun p => p.retain.value
  copy := fun p option => { p with qos := option.qos, packetId := none }
  recalled := Publish.unnumbered
  key := fun p => if p.qos = .qos2 then p.packetId else none

end Broker

/-- What a PUBLISH asks for: nothing if it is refused, a message without a payload to forget the one that is
retained, and a message with QoS 2 to be held until it is released. -/
def Publish.requests (p : Publish) : List BrokerRequest :=
  if p.packetId = none ∧ p.qos ≠ .qos0 then []
  else if p.payloadLength = 0 then
    if p.retain.value then [.forget p.topicName.value] else []
  else match p.qos, p.packetId with
    | .qos2, some id => [.hold id p.letter]
    | _, _ => [.post p.letter]

namespace ControlPacket

/-- What the first packet of a connection asks for. -/
def joins (clientId : Uuid) : ControlPacket → List BrokerRequest
  | .connect p =>
      if Broker.acceptsLevel p.protocolName.value p.protocolVer.value then [.join p.clientId.value clientId] else []
  | _ => []

/-- What a request of a connection with this MQTT id asks for. -/
def requests (clientId : Uuid) (mqttId : String) : ControlPacket → List BrokerRequest
  | .disconnect _ => if mqttId ≠ "" then [.leave mqttId] else []
  | .subscribe p =>
      (if mqttId ≠ "" then [.enroll mqttId (p.topicFilters.map fun filter => (filter.1.value, filter.2))]
        else []) ++ [.recall clientId (p.topicFilters.map fun filter => filter.1.value)]
  | .publish p => p.requests
  | .pubrel p => [.release p.packetId]
  | .pubcomp p => [.discard p.packetId]
  | _ => []

end ControlPacket

/-- A packet without a message takes a place in the mailbox for itself. -/
def ControlPacket.fills (clientId : Uuid) (packet : ControlPacket) : List BrokerRequest :=
  if packet.letter? = none then [.fill clientId] else []

namespace Pool

/-- What the future that a poll finds ready asks for. -/
def handled (self : Pool) (clientId : Uuid) (ready : Bool) : List BrokerRequest :=
  match (self.server.clients clientId).session.connection.state, ready with
  | .processingConnect req, true => req.joins clientId
  | .processingService req, true => req.requests clientId (self.server.clients clientId).mqttId
  | _, _ => []

/-- The packets a connection offers in its next poll. -/
def offers (self : Pool) (clientId : Uuid) : List ControlPacket :=
  (self.server.clients clientId).session.connection.offers

/-- What those packets ask for. -/
def filled (self : Pool) (clientId : Uuid) : List BrokerRequest :=
  (self.offers clientId).flatMap (ControlPacket.fills clientId)

/-- What a step asks the hub for: a poll handles the request of its connection or offers its packets, and a
writer takes from its channel or closes it. -/
def requests (self : Pool) : Event → List BrokerRequest
  | .server (.accept clientId) => [.attach clientId]
  | .server (.poll clientId _ ready) =>
      self.handled clientId ready ++ self.filled clientId
  | .server (.background (.take clientId)) => [.collect clientId]
  | .server (.background (.close clientId)) => [.close clientId]
  | _ => []

end Pool

/-- The subscriptions of the table. -/
def TopicManager.subscriptions (self : TopicManager) : Multiset (String × String × SubscribeOption) :=
  ↑(self.topicMap.iter.flatMap fun row => row.2.map fun sub => (row.1, sub))

namespace Worker

def posted : Worker → Multiset Publish
  | .spawned (.deliver p) => {p.letter}
  | _ => 0

def kept : Worker → Multiset Publish
  | .spawned (.release p _) => {p.letter}
  | .retained task => {task.message.letter}
  | _ => 0

def copies : Worker → Multiset (String × Publish)
  | .sending sends => ↑(sends.map fun send => (send.1, send.2.letter.unnumbered))
  | _ => 0

end Worker

/-- A channel, and the packets that are offered to it next, as a mailbox. -/
def mailboxOf (channel : OutboundChannel) (offers : List ControlPacket) : Mailbox Publish where
  due := offers.filterMap ControlPacket.letter?
  notes := channel.accepted.filterMap ControlPacket.letter?
  waiting := channel.queue.length
  closed := channel.closed

/-- The hub of a broker with these workers, whose connections are about to offer these packets. -/
def Broker.hub (self : Broker) (workers : List Worker) (offers : Uuid → List ControlPacket) : BrokerHub where
  members := self.session.byMqttId.get
  subscriptions := self.topics.subscriptions
  retained := fun topic => (self.retain.kvs.get topic).map Publish.letter
  held := fun id => (self.staged id).map fun entry => entry.1.letter
  posted := (workers.map Worker.posted).sum
  kept := (workers.map Worker.kept).sum
  copies := (workers.map Worker.copies).sum
  mailboxes := fun clientId => mailboxOf (self.channels clientId) (offers clientId)

def Pool.hub (self : Pool) : BrokerHub :=
  self.server.broker.hub self.workers self.offers

namespace TopicManager

variable {self next : TopicManager}

theorem subscriptions_reorders (reorders : DashMap.Reorders self.topicMap next.topicMap) :
    next.subscriptions = self.subscriptions :=
  Multiset.coe_eq_coe.mpr (List.Perm.flatMap_right _ reorders.symm)

theorem subscriptions_register (self : TopicManager) (topicFilter clientId : String) (option : SubscribeOption) :
    (self.register topicFilter clientId option).subscriptions =
      self.subscriptions + {(topicFilter, clientId, option)} := by
  let entries (row : String × List (String × SubscribeOption)) := row.2.map fun sub => (row.1, sub)
  have before : self.subscriptions = ↑((self.subscribers topicFilter).map fun sub => (topicFilter, sub)) +
      ↑((self.topicMap.remove topicFilter).iter.flatMap entries) := by
    rw [subscriptions, Multiset.coe_add, Multiset.coe_eq_coe]
    refine (List.Perm.flatMap_right entries (self.topicMap.iter_perm topicFilter)).trans ?_
    rw [List.flatMap_append, subscribers]
    cases self.topicMap.get topicFilter with
    | none => exact .refl _
    | some subs =>
      rw [Option.toList_some, List.map_singleton, List.flatMap_singleton]
      rfl
  have after : (self.register topicFilter clientId option).subscriptions =
      ↑((self.subscribers topicFilter ++ [(clientId, option)]).map fun sub => (topicFilter, sub)) +
        ↑((self.topicMap.remove topicFilter).iter.flatMap entries) := rfl
  rw [after, before, List.map_append, ← Multiset.coe_add, add_right_comm]
  rfl

/-- The loop over the filters of a SUBSCRIBE. -/
theorem subscriptions_registerAll (filters : List (TopicFilter × SubscribeOption)) (self : TopicManager)
    (clientId : String) :
    (filters.foldl (fun topics filter => topics.register filter.1.value clientId filter.2) self).subscriptions =
      self.subscriptions + ↑(filters.map fun filter => (filter.1.value, clientId, filter.2)) := by
  induction filters generalizing self with
  | nil => exact (add_zero _).symm
  | cons filter filters ih =>
    rw [List.foldl_cons, ih, subscriptions_register, add_assoc]
    rfl

open Classical in
/-- The subscribers of a topic, with the copies they get, are what the hub spreads a note to. -/
theorem spread_subscriptions (self : TopicManager) (note : Publish) :
    Broker.rules.spread self.subscriptions note =
      ↑((self.subedId note.topicName.value).map fun sub => (sub.1, Broker.rules.copy note sub.2)) := by
  rw [Hub.Rules.spread, subscriptions, Multiset.filter_coe, Multiset.map_coe, Broker.subedId_eq, List.filter_flatMap,
    List.map_flatMap, List.map_flatMap]
  congr 2
  funext row
  rw [List.filter_map, List.map_map]
  by_cases matched : Aqua.isMatch row.1 note.topicName.value = true
  · rw [if_pos matched, List.filter_eq_self.mpr]
    · rfl
    · exact fun sub _ => decide_eq_true ((isMatch_iff _ _).mp matched)
  · rw [if_neg matched, List.filter_eq_nil_iff.mpr]
    · rfl
    · exact fun sub _ held => matched ((isMatch_iff _ _).mpr (of_decide_eq_true held))

end TopicManager

end Aqua
