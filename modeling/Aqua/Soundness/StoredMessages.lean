import Aqua.Proofs.Sendable

/-! # Under which keys messages are kept

The store of retained messages is read by topic and the table of staged messages by packet identifier; both
keys are also written in the messages. In every run they agree, only messages published with RETAIN are
retained, only messages of QoS 2 are staged, and none of them is empty. So a PUBREL never finds a message
that would clear a topic.
-/

namespace Aqua

open Wire Runtime

/-- What is staged has QoS 2, and is staged under its packet identifier. -/
def SessionManager.Filed (self : SessionManager) : Prop := ∀ key entry, self.qosTmp.get key = some entry →
  entry.2 = .qos2 ∧ entry.1.qos = .qos2 ∧ entry.1.packetId = some ⟨key⟩

/-- A message is retained under its topic, and staged under its packet identifier. -/
structure Broker.Filed (broker : Broker) : Prop where
  retained : ∀ topic message, broker.retain.kvs.get topic = some message →
    message.topicName.value = topic ∧ message.retain.value = true
  staged : broker.session.Filed

namespace SessionManager.Filed

variable {session : SessionManager}

private theorem add {pkt : Publish} (staged : session.Filed) (qos2 : pkt.qos = .qos2) :
    (session.addStagingPacket pkt .qos2).Filed := by
  intro key entry found
  unfold SessionManager.addStagingPacket at found
  split at found
  · next id known =>
    rw [DashMap.get_insert] at found
    split at found
    · next same =>
      cases found
      exact ⟨rfl, qos2, same ▸ known⟩
    · exact staged key entry found
  · exact staged key entry found

private theorem commit (staged : session.Filed) (pid : PacketId) : (session.commitPacket pid).2.Filed := by
  intro key entry found
  unfold SessionManager.commitPacket at found
  split at found
  · dsimp only at found
    rw [DashMap.get_remove] at found
    split at found
    · cases found
    · exact staged key entry found
  · exact staged key entry found

private theorem collect {publishes : List Publish} {collected : Broker.Collected}
    (staged : collected.session.Filed) :
    (publishes.foldl Broker.Collected.add collected).session.Filed := by
  induction publishes generalizing collected with
  | nil => exact staged
  | cons p publishes ih =>
    apply ih
    unfold Broker.Collected.add
    split
    · exact staged
    · dsimp only
      split
      · next qos2 => exact staged.add qos2
      · exact staged

end SessionManager.Filed

namespace Broker.Filed

variable {self : Broker}

private theorem new : Filed Broker.new where
  retained := fun topic message wrong => by cases wrong
  staged := fun key entry wrong => by cases wrong

private theorem withSession {session : SessionManager} (filed : self.Filed) (staged : session.Filed) :
    Filed { self with session } := ⟨filed.retained, staged⟩

private theorem updateRetain {message : Publish} (filed : self.Filed) (retain : message.retain.value = true) :
    Filed { self with retain := self.retain.updateRetain message.topicName.value message } where
  retained := by
    intro topic other found
    rw [RetainStore.updateRetain, DashMap.get_insert] at found
    split at found
    · next same =>
      cases found
      exact ⟨same.symm, retain⟩
    · exact filed.retained topic other found
  staged := filed.staged

private theorem removeRetain (filed : self.Filed) (topic : String) :
    Filed { self with retain := self.retain.removeRetain topic } where
  retained := by
    intro topic' message found
    rw [RetainStore.removeRetain, DashMap.get_remove] at found
    split at found
    · cases found
    · exact filed.retained topic' message found
  staged := filed.staged

private theorem onConnect (filed : self.Filed) (clientId : Uuid) (mqttId : String) (req : ControlPacket) :
    (self.onConnect clientId mqttId req).2.1.Filed := by
  cases req with
  | connect p =>
    simp only [Broker.onConnect]
    split
    · exact filed.withSession filed.staged
    · exact filed
  | _ => exact filed

private theorem onPublish (filed : self.Filed) (mqttId : String) (pubpacket : Publish) :
    (self.onPublish mqttId pubpacket).2.Filed := by
  obtain ⟨_, _, after⟩ | ⟨_, _, after⟩ | ⟨_, _, qos2, after⟩ | ⟨_, _, _, after⟩ :=
    self.onPublish_cases mqttId pubpacket <;> rw [after]
  · exact filed
  · unfold Broker.clearRetained
    split
    · exact filed.removeRetain _
    · exact filed
  · exact filed.withSession (filed.staged.add qos2)
  · exact ⟨filed.retained, filed.staged⟩

private theorem onPubrel (filed : self.Filed) (mqttId : String) (pubrelPacket : Pubrel) :
    (self.onPubrel mqttId pubrelPacket).2.Filed := by
  have commits : ∀ {self : Broker}, self.Filed → Filed { self with
      session := (self.session.commitPacket pubrelPacket.packetId).2 } :=
    fun filed => filed.withSession (filed.staged.commit _)
  simp only [Broker.onPubrel, SessionManager.fetchPacket]
  cases self.session.qosTmp.get pubrelPacket.packetId.value with
  | none => exact filed
  | some entry =>
    dsimp only
    split
    · exact commits (filed.removeRetain _)
    · split
      · next retain =>
        have updated := filed.updateRetain retain
        exact commits ⟨updated.retained, updated.staged⟩
      · exact commits ⟨filed.retained, filed.staged⟩

/-- Every handler. -/
theorem handle (filed : self.Filed) (mqttId : String) (packet : ControlPacket) :
    (self.handle mqttId packet).2.Filed := by
  cases packet with
  | disconnect p =>
    simp only [Broker.handle, Broker.onDisconnect]
    split
    · refine filed.withSession ?_
      rw [SessionManager.Filed, unregisterMqttId_qosTmp]
      exact filed.staged
    · exact filed
  | subscribe p =>
    simp only [Broker.handle, Broker.onSubscribe]
    split <;> exact ⟨filed.retained, SessionManager.Filed.collect filed.staged⟩
  | publish p => exact filed.onPublish mqttId p
  | pubrel p => exact filed.onPubrel mqttId p
  | pubcomp p => exact filed.withSession (filed.staged.commit _)
  | _ => exact filed

end Broker.Filed

namespace Pool

variable {build : Build} {self next : Pool} {event : Event}

private theorem Step.filed (step : self.Step build event next) (filed : self.server.broker.Filed) :
    next.server.broker.Filed := by
  cases step with
  | server noTask step =>
    cases step with
    | accept fresh => exact ⟨filed.retained, filed.staged⟩
    | @poll clientId live goesOn read ready =>
      have resolved : (self.server.resolve (self.server.clients clientId) clientId read ready).2.1.Filed := by
        obtain same | ⟨req, _, after⟩ | ⟨req, _, after⟩ :=
          self.server.resolve_broker (self.server.clients clientId) clientId read ready
        · exact same ▸ filed
        · exact after ▸ filed.onConnect _ _ req
        · exact after ▸ filed.handle _ req
      exact ⟨resolved.retained, resolved.staged⟩
    | background background step =>
      cases step with
      | task spawned draws => cases noTask
      | rehash sameTopics sameRetain =>
        refine ⟨fun topic message found => filed.retained topic message ?_, filed.staged⟩
        rw [← sameRetain.get_eq]
        exact found
      | take clientId => exact ⟨filed.retained, filed.staged⟩
      | close clientId => exact ⟨filed.retained, filed.staged⟩
      | _ => cases background
  | work place draws =>
    change (self.crew.work place draws).broker.Filed
    unfold Crew.work
    split
    · next worker there =>
      cases worker with
      | spawned task =>
        cases task with
        | deliver pubpacket =>
          simp only [Broker.work, Broker.retainFor]
          split
          · next retain => exact filed.updateRetain retain
          · exact filed
        | release publish packetId => exact filed
      | retained task => exact filed
      | sending sends =>
        cases sends with
        | nil => exact filed
        | cons send rest => exact ⟨filed.retained, filed.staged⟩
    · exact filed

theorem Reachable.filed (reachable : self.Reachable build) : self.server.broker.Filed := by
  obtain ⟨events, run⟩ := reachable
  induction run with
  | nil => exact .new
  | snoc earlier step ih => exact step.filed ih

end Pool

namespace Pool

/-- A CONNECT of the client `a`, and a message for the topic `t` of QoS 2 and to be retained. -/
def waitingBytes : Bytes :=
  [0x10, 0x0d, 0x00, 0x04, 0x4d, 0x51, 0x54, 0x54, 0x04, 0x02, 0x00, 0x3c, 0x00, 0x01, 0x61,
    0x35, 0x06, 0x00, 0x01, 0x74, 0x00, 0x07, 0x68]

/-- A connection has sent them, and the message is staged. -/
def waiting : Pool :=
  let accepted := Pool.new.enter (Pool.new.server.accept ⟨0⟩)
  (Pool.resume ⟨false⟩ ⟨0⟩)^[8]
    (accepted.enter (accepted.server.poll ⟨false⟩ ⟨0⟩ (.ready waitingBytes) true))

private theorem waiting_reachable : waiting.Reachable ⟨false⟩ := by
  have accepted : (Pool.new.enter (Pool.new.server.accept ⟨0⟩)).Reachable ⟨false⟩ :=
    (Reachable.new _).accept rfl
  refine (accepted.poll rfl rfl (.ready waitingBytes) true).resume 8 fun k lt => ?_
  interval_cases k <;> exact ⟨rfl, rfl⟩

end Pool

/-- A message as the broker keeps it: with the announced payload, which is not empty, and with an identifier
exactly if its QoS is not 0. -/
def Publish.Kept (p : Publish) : Prop :=
  p.payloadData.length = p.payloadLength ∧ p.payloadLength ≠ 0 ∧ (p.packetId = none ↔ p.qos = .qos0)

/-- In every reachable pool, a retained message is filed under its topic and was published with RETAIN, a
staged message is filed under its identifier and has QoS 2, and both have a payload. So a PUBREL that finds a
message spawns the delivery of it, and only retains. -/
theorem stored_messages {build : Build} {pool : Pool} (reachable : pool.Reachable build) :
    (∀ topic message, pool.server.broker.retain.kvs.get topic = some message →
      message.topicName.value = topic ∧ message.retain.value = true ∧ message.Kept) ∧
    (∀ key entry, pool.server.broker.session.qosTmp.get key = some entry →
      entry.2 = .qos2 ∧ entry.1.qos = .qos2 ∧ entry.1.packetId = some ⟨key⟩ ∧ entry.1.Kept) ∧
    ∀ mqttId (pubrelPacket : Pubrel) publish,
      pool.server.broker.session.fetchPacket pubrelPacket.packetId = .ok publish →
        (pool.server.broker.handle mqttId (.pubrel pubrelPacket)).2.tasks =
          pool.server.broker.tasks ++ [.release publish pubrelPacket.packetId] ∧
        (pool.server.broker.handle mqttId (.pubrel pubrelPacket)).2.retain =
          if publish.retain.value then pool.server.broker.retain.updateRetain publish.topicName.value publish
          else pool.server.broker.retain := by
  have filed := reachable.filed
  have sound := reachable.sendable.messages
  have carries := reachable.sound.server.messages
  refine ⟨fun topic message found => ?_, fun key entry found => ?_, fun mqttId pubrelPacket publish found => ?_⟩
  · obtain ⟨same, retain⟩ := filed.retained topic message found
    have own := sound.retained topic message found
    exact ⟨same, retain, own.payload, (carries.retained topic message found).1, own.packetId⟩
  · obtain ⟨qos, qos2, same⟩ := filed.staged key entry found
    have own := sound.staged key entry found
    exact ⟨qos, qos2, same, own.payload, (carries.staged key entry found).1, own.packetId⟩
  · unfold SessionManager.fetchPacket at found
    split at found
    · next staged =>
      cases found
      have full := (carries.staged _ _ staged).1
      simp only [Broker.handle, Broker.onPubrel, SessionManager.fetchPacket, staged, full, false_and, if_false]
      split <;> exact ⟨rfl, rfl⟩
    · cases found

theorem stored_messages_waiting :
    (Pool.waiting.server.broker.handle "a" (.pubrel { packetId := ⟨7⟩ })).2.tasks =
      Pool.waiting.server.broker.tasks ++ [.release {
        qos := .qos2, retain := ⟨true⟩, topicName := ⟨"t"⟩, packetId := some ⟨7⟩, payloadLength := 1
        payloadData := [0x68], protocolVersion := ⟨4⟩ } ⟨7⟩] :=
  ((stored_messages Pool.waiting_reachable).2.2 "a" { packetId := ⟨7⟩ } _ rfl).1

end Aqua
