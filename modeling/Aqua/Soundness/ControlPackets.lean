import Aqua.Proofs.PoolVersions
import Aqua.Proofs.Clients
import Aqua.Proofs.Replies

/-! # The control packets of a connection

Deliveries come to a channel whenever a worker sends one. Without them, what is left depends on the requests of
the client alone: the CONNACK, and for each request the packet that acknowledges it, in the order of the
requests. No other connection adds one, and only a full channel loses one.
-/

namespace Aqua

open Wire Runtime

/-- A packet other than a PUBLISH. -/
def isControl : ControlPacket → Bool
  | .publish _ => false
  | _ => true

/-- What acknowledges a request of the client. -/
def controlReplies (mqttId : String) : ControlPacket → List ControlPacket
  | .pingreq _ => [.pingresp {}]
  | .subscribe p => [.suback {
      packetId := p.packetId
      subackProperties := none
      reasonCodes := collectedCodes mqttId p.topicFilters
      protocolVersion := level4 }]
  | .publish p =>
      match p.qos, p.packetId with
      | .qos1, some packetId =>
          [.puback { packetId, reasonCode := none, pubackProperties := none, protocolVersion := level4 }]
      | .qos2, some packetId =>
          [.pubrec { packetId, reasonCode := some .success, pubrecProperties := none, protocolVersion := level4 }]
      | _, _ => []
  | .pubrel p => [.pubcomp {
      packetId := p.packetId
      pubcompReason := some .success
      pubcompProperties := none
      protocolVersion := level4 }]
  | .pubrec p => [.pubrel {
      packetId := p.packetId, pubrelProperties := none, reasonCode := none, protocolVersion := level4 }]
  | _ => []

/-- The control packets, for the client of an MQTT id. -/
def controlling (mqttId : String) : Replying := ⟨isControl, controlReplies mqttId⟩

private theorem filter_isControl_publishes (publishes : List Publish) :
    (publishes.map ControlPacket.publish).filter isControl = [] := by
  rw [List.filter_eq_nil_iff]
  intro packet member
  obtain ⟨p, _, rfl⟩ := List.mem_map.mp member
  exact Bool.false_ne_true

/-- The loop over a response leaves messages as they are. -/
theorem written_publishes (publishes : List Publish) :
    written (publishes.map ControlPacket.publish) = publishes.map ControlPacket.publish := by
  induction publishes with
  | nil => rfl
  | cons p publishes ih => exact congrArg (ControlPacket.publish p :: ·) ih

/-- Where the version stored is 4, the control packets of an answer are what acknowledges the request. -/
theorem AllV4.control {broker : Broker} {mqttId : String} {packet : ControlPacket} {res : Response}
    (all : AllV4 broker) (answers : (broker.handle mqttId packet).1 = .ok res) :
    (written res.packets).filter isControl = controlReplies mqttId packet := by
  have version := all.versionOf mqttId
  cases packet with
  | connect p => cases answers
  | subscribe p =>
    cases known : broker.session.getProtocolVersion mqttId with
    | none =>
      simp only [Broker.handle, Broker.onSubscribe, known] at answers
      cases answers
    | some v =>
      obtain rfl : v = level4 := all.versions mqttId v known
      cases (broker.subscribe_answer known p).symm.trans answers
      dsimp only [controlReplies]
      rw [written.eq_4 _ _ (fun _ wrong => by cases wrong) (fun wrong => by cases wrong), written_publishes,
        List.filter_cons_of_pos rfl, filter_isControl_publishes]
  | publish p =>
    simp only [Broker.handle, Broker.onPublish, version] at answers
    cases qos : p.qos <;> cases id : p.packetId <;> rw [qos, id] at answers <;> cases answers <;>
      simp only [controlReplies, qos, id] <;> rfl
  | pubrel p =>
    simp only [Broker.handle, Broker.onPubrel, version] at answers
    cases answers
    rfl
  | pubrec p =>
    simp only [Broker.handle, Broker.onPubrec, version] at answers
    cases answers
    rfl
  | _ =>
    cases answers
    rfl

namespace Pool

variable {build : Build} {self next : Pool} {event : Event} {clientId : Uuid}

/-- What a connection is to answer with, from its requests. -/
def controls (self : Pool) (clientId : Uuid) : List ControlPacket :=
  (controlling (self.server.clients clientId).mqttId).expected (self.server.clients clientId).session.trace

/-- The control packets a channel has accepted. -/
def controlsSent (self : Pool) (clientId : Uuid) : List ControlPacket :=
  (self.server.broker.channels clientId).accepted.filter isControl

/-- The offers of a connection are what is expected of it. -/
theorem ClientStep.settled {client : Client} (step : self.ClientStep build event clientId client)
    (reachable : self.Reachable build)
    (settled : (controlling (self.server.clients clientId).mqttId).Settled Server.services
      (self.server.clients clientId).session) :
    (controlling client.mqttId).Settled Server.services client.session := by
  cases step with
  | stays => exact settled
  | accepted fresh => exact Replying.settled_new _ _
  | @polled input broker mqttId live goesOn read ready polls given =>
    have connect := @Server.resolve_connect self.server (self.server.clients clientId) clientId read ready
    have service := @Server.resolve_service self.server (self.server.clients clientId) clientId read ready
    have stays := @Server.resolve_mqttId self.server (self.server.clients clientId) clientId read ready
    rw [given] at connect service stays
    have answers : (controlling (self.server.clients clientId).mqttId).Answers Server.services
        (self.server.clients clientId).session.connection.state input := by
      intro request res phase answered
      obtain ⟨req, phase', handled⟩ := service answered
      cases phase.symm.trans phase'
      exact reachable.all.control handled
    have after := @Replying.Settled.poll _ _ _ build _ _ _ settled (broker.channels clientId, input) answers
    by_cases accepted : ∃ res, input.connect = .ok (some res)
    · -- a CONNECT is accepted: nothing was requested under the old MQTT id
      obtain ⟨res, accepted⟩ := accepted
      obtain ⟨req, phase, _, _⟩ := connect accepted
      have reached := (reachable.known clientId).inPhase.2 goesOn
      rw [phase] at reached
      obtain ⟨first, _, whole⟩ := reached
      refine after.congr rfl ?_ ?_
      · intro request called
        simp [Session.poll, goesOn, Connection.poll, phase, accepted, whole] at called
      · intro _ request wrong
        simp [Session.poll, goesOn, Connection.poll, phase, accepted] at wrong
    · rw [not_exists] at accepted
      obtain rfl : mqttId = _ := stays accepted
      exact after

private theorem Reachable.settled (reachable : self.Reachable build) (clientId : Uuid) :
    (controlling (self.server.clients clientId).mqttId).Settled Server.services
      (self.server.clients clientId).session := by
  obtain ⟨events, run⟩ := reachable
  induction run with
  | nil => exact Replying.settled_new _ _
  | snoc earlier step ih => exact (step.client clientId).settled ⟨_, earlier⟩ ih

/-- Besides the messages of the deliveries, a channel has accepted what the connection has offered. -/
theorem Step.controlsSent (step : self.Step build event next) (reachable : self.Reachable build)
    (same : self.controlsSent clientId =
      (self.server.clients clientId).session.accepted.filter isControl) :
    next.controlsSent clientId = (next.server.clients clientId).session.accepted.filter isControl := by
  have sound := reachable.sound
  cases step with
  | server noTask step =>
    cases step with
    | @accept accepted fresh =>
      change ((self.server.broker.accept accepted).channels clientId).accepted.filter isControl =
        ((self.server.accept accepted).clients clientId).session.accepted.filter isControl
      simp only [Broker.accept, Broker.onChannel, Server.accept, Function.update_apply]
      split
      · rfl
      · exact same
    | @poll polled live goesOn read ready =>
      cases given : self.server.resolve (self.server.clients polled) polled read ready with | mk input behind =>
      obtain ⟨broker, mqttId⟩ := behind
      have channels : broker.channels = self.server.broker.channels := by
        have kept := self.server.resolve_channels (self.server.clients polled) polled read ready
        rwa [given] at kept
      have alone : ∀ k, input.others k = [] := by
        have found := self.server.resolve_others (self.server.clients polled) polled read ready
        rwa [given] at found
      change ((self.server.poll build polled read ready).broker.channels clientId).accepted.filter isControl =
        ((self.server.poll build polled read ready).clients clientId).session.accepted.filter isControl
      rw [Server.poll_eq given]
      simp only [Broker.onChannel, Function.update_apply]
      split
      · next own =>
        subst own
        rw [Connection.poll_accepted _ _ alone, List.filter_append, channels]
        simp only [Session.accepted, Session.poll, goesOn, List.filterMap_append, List.filter_append]
        rw [show (self.server.broker.channels clientId).accepted.filter isControl = _ from same]
        rfl
      · rw [channels]
        exact same
    | @background event broker background step =>
      change (broker.channels clientId).accepted.filter isControl = _
      rcases background_channels background noTask step clientId with kept | taken | closed
      · rw [kept]
        exact same
      · rw [taken, Channel.accepted_take]
        exact same
      · rw [closed]
        exact same
  | work place draws =>
    change ((self.crew.work place draws).broker.channels clientId).accepted.filter isControl = _
    rw [Crew.work_channels sound.server.connected, Channel.accepted_foldl_offer, List.filter_append]
    have messages : (((self.crew.bound? place clientId).toList.map ControlPacket.publish).take
        (self.server.broker.channels clientId).room).filter isControl = [] := by
      rw [← List.map_take, filter_isControl_publishes]
    exact (congrArg _ messages).trans ((List.append_nil _).trans same)

private theorem Reachable.controlsSent (reachable : self.Reachable build) (clientId : Uuid) :
    self.controlsSent clientId = (self.server.clients clientId).session.accepted.filter isControl := by
  obtain ⟨events, run⟩ := reachable
  induction run with
  | nil => rfl
  | snoc earlier step ih => exact step.controlsSent ⟨_, earlier⟩ ih

end Pool

/-- In every reachable pool, the control packets a channel has accepted are among what the connection is to
answer with, in this order and no more often. If each of them found room they are the beginning of it, and
all of it whenever the connection waits for the next request. -/
theorem control_packets {build : Build} {pool : Pool} (reachable : pool.Reachable build) (clientId : Uuid) :
    (pool.controlsSent clientId).Sublist (pool.controls clientId) ∧
      ((∀ packet found, .offered packet found ∈ (pool.server.clients clientId).session.trace →
          isControl packet = true → found.HasRoom 1) →
        pool.controlsSent clientId <+: pool.controls clientId ∧
        ((pool.server.clients clientId).session.result = .ok none →
          (pool.server.clients clientId).session.connection.state = .readingPacket →
            pool.controlsSent clientId = pool.controls clientId)) := by
  have settled := reachable.settled clientId
  rw [reachable.controlsSent clientId]
  refine ⟨?_, fun room => ?_⟩
  · exact ((accepted_sublist _).filter isControl).trans settled.offers.sublist
  · have all : (pool.server.clients clientId).session.accepted.filter isControl =
        (controlling (pool.server.clients clientId).mqttId).offered (pool.server.clients clientId).session.trace :=
      filter_accepted_eq room
    rw [all]
    refine ⟨settled.offers, fun goesOn reading => ?_⟩
    obtain ⟨due, isDue, whole⟩ := settled.due goesOn
    rw [reading] at isDue
    obtain rfl : due = [] := isDue
    exact (List.append_nil _).symm.trans whole

/-- Behind its CONNECT, SUBSCRIBE and PUBLISH, the client has a CONNACK and a SUBACK. -/
theorem control_packets_echoing :
    (Pool.echoing.controlsSent ⟨0⟩).Sublist [.connack { version := level4 }, .suback {
      packetId := ⟨1⟩, reasonCodes := [.grantedQos1], protocolVersion := level4 }] :=
  (control_packets Pool.echoing_reachable ⟨0⟩).1

end Aqua
