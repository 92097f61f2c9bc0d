import Aqua.Model.Server
import Aqua.Proofs.Handlers

/-! # The messages the broker keeps

A message is kept in three places: staged until its PUBREL, retained for later subscribers, or in a
task until that runs. What is true of every message a handler takes in is true of all of them.
-/

namespace Aqua

open Runtime

def Task.message : Task → Publish
  | .deliver pubpacket => pubpacket
  | .release publish _ => publish

namespace Broker

/-- Every message that is kept satisfies `P`. -/
structure Keeps (P : Publish → Prop) (broker : Broker) : Prop where
  staged : ∀ key entry, broker.session.qosTmp.get key = some entry → P entry.1
  retained : ∀ topic message, broker.retain.kvs.get topic = some message → P message
  tasks : ∀ task ∈ broker.tasks, P task.message

namespace Keeps

variable {P : Publish → Prop} {self : Broker}

theorem new : Keeps P Broker.new where
  staged := fun key entry wrong => by cases wrong
  retained := fun topic message wrong => by cases wrong
  tasks := List.forall_mem_nil _

theorem withSession {session : SessionManager} (keeps : Keeps P self)
    (staged : ∀ key entry, session.qosTmp.get key = some entry → P entry.1) :
    Keeps P { self with session } :=
  ⟨staged, keeps.retained, keeps.tasks⟩

theorem withTopics (keeps : Keeps P self) (topics : TopicManager) : Keeps P { self with topics } :=
  ⟨keeps.staged, keeps.retained, keeps.tasks⟩

theorem withChannels (keeps : Keeps P self) (channels : Channels) : Keeps P { self with channels } :=
  ⟨keeps.staged, keeps.retained, keeps.tasks⟩

theorem staged_addStagingPacket {session : SessionManager} {pkt : Publish} {qos : QoS}
    (staged : ∀ key entry, session.qosTmp.get key = some entry → P entry.1) (own : P pkt) :
    ∀ key entry, (session.addStagingPacket pkt qos).qosTmp.get key = some entry → P entry.1 := by
  intro key entry found
  unfold SessionManager.addStagingPacket at found
  split at found
  · rw [DashMap.get_insert] at found
    split at found
    · cases found
      exact own
    · exact staged key entry found
  · exact staged key entry found

theorem staged_commitPacket {session : SessionManager} {pid : PacketId}
    (staged : ∀ key entry, session.qosTmp.get key = some entry → P entry.1) :
    ∀ key entry, (session.commitPacket pid).2.qosTmp.get key = some entry → P entry.1 := by
  intro key entry found
  unfold SessionManager.commitPacket at found
  split at found
  · dsimp only at found
    rw [DashMap.get_remove] at found
    split at found
    · cases found
    · exact staged key entry found
  · exact staged key entry found

theorem updateRetain {topic : String} {message : Publish} (keeps : Keeps P self) (own : P message) :
    Keeps P { self with retain := self.retain.updateRetain topic message } where
  staged := keeps.staged
  retained := by
    intro topic' message' found
    rw [RetainStore.updateRetain, DashMap.get_insert] at found
    split at found
    · cases found
      exact own
    · exact keeps.retained topic' message' found
  tasks := keeps.tasks

theorem removeRetain {topic : String} (keeps : Keeps P self) :
    Keeps P { self with retain := self.retain.removeRetain topic } where
  staged := keeps.staged
  retained := by
    intro topic' message' found
    rw [RetainStore.removeRetain, DashMap.get_remove] at found
    split at found
    · cases found
    · exact keeps.retained topic' message' found
  tasks := keeps.tasks

theorem spawn {task : Task} (keeps : Keeps P self) (own : P task.message) :
    Keeps P (self.spawn task) where
  staged := keeps.staged
  retained := keeps.retained
  tasks := by
    rw [Broker.spawn, List.forall_mem_append, List.forall_mem_singleton]
    exact ⟨keeps.tasks, own⟩

theorem finish {task : Task} (keeps : Keeps P self) : Keeps P (self.finish task) where
  staged := keeps.staged
  retained := keeps.retained
  tasks := fun other member => keeps.tasks other (List.mem_of_mem_erase member)

theorem onConnect (keeps : Keeps P self) (clientId : Uuid) (mqttId : String) (req : ControlPacket) :
    Keeps P (self.onConnect clientId mqttId req).2.1 := by
  cases req with
  | connect p =>
    simp only [Broker.onConnect]
    split
    · exact keeps.withSession keeps.staged
    · exact keeps
  | _ => exact keeps

theorem onPublish {mqttId : String} {pubpacket : Publish} (keeps : Keeps P self)
    (own : pubpacket.payloadLength ≠ 0 → P (self.stamped mqttId pubpacket)) :
    Keeps P (self.onPublish mqttId pubpacket).2 := by
  obtain ⟨_, _, after⟩ | ⟨_, _, after⟩ | ⟨full, _, _, after⟩ | ⟨full, _, _, after⟩ :=
    self.onPublish_cases mqttId pubpacket <;> rw [after]
  · exact keeps
  · unfold Broker.clearRetained
    split
    · exact keeps.removeRetain
    · exact keeps
  · exact keeps.withSession (staged_addStagingPacket keeps.staged (own full))
  · exact keeps.spawn (own full)

theorem onPubrel {mqttId : String} {pubrelPacket : Pubrel} (keeps : Keeps P self) :
    Keeps P (self.onPubrel mqttId pubrelPacket).2 := by
  have commits : ∀ {self : Broker}, Keeps P self → Keeps P { self with
      session := (self.session.commitPacket pubrelPacket.packetId).2 } :=
    fun keeps => keeps.withSession (staged_commitPacket keeps.staged)
  simp only [Broker.onPubrel, SessionManager.fetchPacket]
  cases found : self.session.qosTmp.get pubrelPacket.packetId.value with
  | none => exact keeps
  | some entry =>
    have own := keeps.staged _ _ found
    dsimp only
    split
    · exact commits keeps.removeRetain
    · split
      · exact commits ((keeps.updateRetain own).spawn own)
      · exact commits (keeps.spawn own)

/-- What the loop over the retained messages keeps: the staged messages and the collected ones. -/
theorem collects {publishes : List Publish} {collected : Collected} (own : ∀ p ∈ publishes, P p)
    (staged : ∀ key entry, collected.session.qosTmp.get key = some entry → P entry.1)
    (packets : ∀ p ∈ collected.packets, P p) :
    (∀ key entry, (publishes.foldl Collected.add collected).session.qosTmp.get key = some entry →
      P entry.1) ∧
    ∀ p ∈ (publishes.foldl Collected.add collected).packets, P p := by
  induction publishes generalizing collected with
  | nil => exact ⟨staged, packets⟩
  | cons p publishes ih =>
    rw [List.forall_mem_cons] at own
    apply ih own.2
    · unfold Collected.add
      split
      · exact staged
      · dsimp only
        split
        · exact staged_addStagingPacket staged own.1
        · exact staged
    · unfold Collected.add
      split
      · exact packets
      · rw [List.forall_mem_append, List.forall_mem_singleton]
        exact ⟨packets, own.1⟩

theorem collectRetained (keeps : Keeps P self) (filters : List (TopicFilter × SubscribeOption)) :
    (∀ key entry, (self.collectRetained filters).session.qosTmp.get key = some entry → P entry.1) ∧
      ∀ p ∈ (self.collectRetained filters).packets, P p := by
  apply collects
  · intro p member
    obtain ⟨filter, _, matched⟩ := List.mem_flatMap.mp member
    obtain ⟨entry, kept, rfl⟩ := List.mem_map.mp matched
    exact keeps.retained entry.1 entry.2 (DashMap.mem_iter_iff.mp (List.mem_of_mem_filter kept))
  · exact keeps.staged
  · exact List.forall_mem_nil _

theorem onSubscribe {mqttId : String} {subpacket : Subscribe} (keeps : Keeps P self) :
    Keeps P (self.onSubscribe mqttId subpacket).2 := by
  have collected := keeps.withSession (keeps.collectRetained subpacket.topicFilters).1
  simp only [Broker.onSubscribe]
  split <;> exact collected.withTopics _

/-- Every handler, if it takes in no other messages. -/
theorem handle {mqttId : String} {packet : ControlPacket} (keeps : Keeps P self)
    (own : ∀ p, packet = .publish p → p.payloadLength ≠ 0 → P (self.stamped mqttId p)) :
    Keeps P (self.handle mqttId packet).2 := by
  cases packet with
  | disconnect p =>
    simp only [Broker.handle, Broker.onDisconnect]
    split
    · exact keeps.withSession (by rw [unregisterMqttId_qosTmp]; exact keeps.staged)
    · exact keeps
  | subscribe p => exact keeps.onSubscribe
  | publish p => exact keeps.onPublish (own p rfl)
  | pubrel p => exact keeps.onPubrel
  | pubcomp p => exact keeps.withSession (staged_commitPacket keeps.staged)
  | _ => exact keeps

/-- Every message a service answers with is one that is kept. -/
theorem answer {mqttId : String} {packet : ControlPacket} {res : Response} (keeps : Keeps P self)
    (answers : (self.handle mqttId packet).1 = .ok res) : ∀ p, .publish p ∈ res.packets → P p := by
  have single : ∀ {other : ControlPacket}, .ok (Response.new other) = (.ok res : Result Response) →
      (∀ p, other ≠ .publish p) → ∀ p, .publish p ∈ res.packets → P p := by
    intro other same silent p member
    cases same
    exact absurd (List.mem_singleton.mp member).symm (silent p)
  cases packet with
  | connect p => cases answers
  | publish p =>
    simp only [Broker.handle, Broker.onPublish] at answers
    split at answers
    · cases answers
    · cases answers
    · exact single answers fun _ wrong => by cases wrong
    · split at answers
      · exact single answers fun _ wrong => by cases wrong
      · exact single answers fun _ wrong => by cases wrong
  | subscribe p =>
    simp only [Broker.handle, Broker.onSubscribe] at answers
    split at answers
    · cases answers
      intro message member
      rcases List.mem_cons.mp member with wrong | among
      · cases wrong
      · obtain ⟨_, kept, same⟩ := List.mem_map.mp among
        cases same
        exact (keeps.collectRetained p.topicFilters).2 _ kept
    · cases answers
  | _ => exact single answers fun _ wrong => by cases wrong

theorem runTask {draws : Draws} {task : Task} (keeps : Keeps P self) (own : P task.message) :
    Keeps P (self.runTask draws task) := by
  cases task with
  | deliver pubpacket =>
    simp only [Broker.runTask]
    rw [sendAll_eq]
    apply Keeps.withChannels
    split
    · exact keeps.updateRetain own
    · exact keeps
  | release publish packetId =>
    simp only [Broker.runTask]
    rw [sendAll_eq]
    exact keeps.withChannels _

theorem accept (keeps : Keeps P self) (clientId : Uuid) : Keeps P (self.accept clientId) :=
  (keeps.withChannels _).withSession keeps.staged

theorem background {event : Event} {next : Broker} (keeps : Keeps P self) (step : self.Step event next)
    (background : Server.Background event) : Keeps P next := by
  cases step with
  | task spawned draws => exact keeps.finish.runTask (keeps.tasks _ spawned)
  | take clientId => exact keeps.withChannels _
  | close clientId => exact keeps.withChannels _
  | rehash sameTopics sameRetain =>
    refine ⟨keeps.staged, fun topic message found => ?_, keeps.tasks⟩
    rw [sameRetain.get_eq] at found
    exact keeps.retained topic message found
  | _ => cases background

end Keeps

end Broker

end Aqua
