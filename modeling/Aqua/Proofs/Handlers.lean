import Aqua.Model.Broker

/-! # What a handler changes

For each part of the state the connections share, the packets whose handler changes it, and how. A
handler never touches a channel, the connections by their id or the protocol versions.
-/

namespace Aqua

open Runtime

/-- The packet identifier of a delivery is that of the publisher, or a draw if there is none. -/
theorem deliveryMsg_packetId {pubpacket : Publish} {option : SubscribeOption} {draw : Fin 1001}
    (handshake : option.qos ≠ .qos0) : (Broker.deliveryMsg pubpacket option draw).packetId =
      some (pubpacket.packetId.getD ⟨UInt16.ofNat draw⟩) := by
  unfold Broker.deliveryMsg
  dsimp only
  rw [if_neg handshake]
  cases pubpacket.packetId with
  | none => exact if_pos ⟨rfl, handshake⟩
  | some id => exact if_neg fun wrong => by cases wrong.1

/-- A delivery has an identifier exactly if its QoS is not 0. -/
theorem deliveryMsg_packetId_none_iff {pubpacket : Publish} {option : SubscribeOption} {draw : Fin 1001} :
    (Broker.deliveryMsg pubpacket option draw).packetId = none ↔ option.qos = .qos0 := by
  by_cases zero : option.qos = .qos0
  · simp [Broker.deliveryMsg, zero]
  · rw [deliveryMsg_packetId zero]
    exact iff_of_false nofun zero

namespace Broker

variable {self : Broker} {mqttId : String}

/-- The message as the handler of a PUBLISH passes it on. -/
def stamped (self : Broker) (mqttId : String) (pubpacket : Publish) : Publish :=
  { pubpacket with protocolVersion := self.versionOf mqttId }

/-- What the handler of a PUBLISH can do: refuse the packet, clear what is retained, stage the
message, or spawn its delivery. -/
theorem onPublish_cases (self : Broker) (mqttId : String) (pubpacket : Publish) :
    (pubpacket.packetId = none ∧ pubpacket.qos ≠ .qos0 ∧
      (self.onPublish mqttId pubpacket).2 = self) ∨
    (pubpacket.payloadLength = 0 ∧ (pubpacket.packetId ≠ none ∨ pubpacket.qos = .qos0) ∧
      (self.onPublish mqttId pubpacket).2 = self.clearRetained (self.stamped mqttId pubpacket)) ∨
    (pubpacket.payloadLength ≠ 0 ∧ pubpacket.packetId ≠ none ∧ pubpacket.qos = .qos2 ∧
      (self.onPublish mqttId pubpacket).2 =
        { self with session := self.session.addStagingPacket (self.stamped mqttId pubpacket) .qos2 }) ∨
    (pubpacket.payloadLength ≠ 0 ∧ (pubpacket.packetId ≠ none ∨ pubpacket.qos = .qos0) ∧
      pubpacket.qos ≠ .qos2 ∧
      (self.onPublish mqttId pubpacket).2 = self.spawn (.deliver (self.stamped mqttId pubpacket))) := by
  obtain ⟨dup, qos, retain, topicName, pubProperties, packetId, payloadLength, payloadData, version⟩ :=
    pubpacket
  by_cases empty : payloadLength = 0 <;> cases packetId <;> cases qos <;>
    simp [onPublish, stamped, empty]

/-- Only the staged messages differ. -/
structure SameMaps (session session' : SessionManager) : Prop where
  byClientId : session'.byClientId = session.byClientId
  byMqttId : session'.byMqttId = session.byMqttId
  byClientMqtt : session'.byClientMqtt = session.byClientMqtt
  mqttVersion : session'.mqttVersion = session.mqttVersion

variable {session session' session'' : SessionManager}

theorem SameMaps.refl (session : SessionManager) : SameMaps session session := ⟨rfl, rfl, rfl, rfl⟩

theorem SameMaps.trans (first : SameMaps session session') (second : SameMaps session' session'') :
    SameMaps session session'' where
  byClientId := second.byClientId.trans first.byClientId
  byMqttId := second.byMqttId.trans first.byMqttId
  byClientMqtt := second.byClientMqtt.trans first.byClientMqtt
  mqttVersion := second.mqttVersion.trans first.mqttVersion

theorem addStagingPacket_sameMaps (session : SessionManager) (pkt : Publish) (qos : QoS) :
    SameMaps session (session.addStagingPacket pkt qos) := by
  unfold SessionManager.addStagingPacket
  split
  · exact ⟨rfl, rfl, rfl, rfl⟩
  · exact .refl session

theorem commitPacket_sameMaps (session : SessionManager) (pid : PacketId) :
    SameMaps session (session.commitPacket pid).2 := by
  unfold SessionManager.commitPacket
  split
  · exact ⟨rfl, rfl, rfl, rfl⟩
  · exact .refl session

theorem add_sameMaps (collected : Collected) (p : Publish) :
    SameMaps collected.session (collected.add p).session := by
  unfold Collected.add
  split
  · exact .refl _
  · simp only
    split
    · exact addStagingPacket_sameMaps _ _ _
    · exact .refl _

theorem foldl_add_sameMaps (publishes : List Publish) (collected : Collected) :
    SameMaps collected.session (publishes.foldl Collected.add collected).session := by
  induction publishes generalizing collected with
  | nil => exact .refl _
  | cons p publishes ih => exact (add_sameMaps collected p).trans (ih _)

theorem collectRetained_sameMaps (self : Broker)
    (filters : List (TopicFilter × SubscribeOption)) :
    SameMaps self.session (self.collectRetained filters).session := by
  unfold collectRetained
  exact foldl_add_sameMaps _ { session := self.session }

theorem onPublish_sameMaps (self : Broker) (mqttId : String) (pubpacket : Publish) :
    SameMaps self.session (self.onPublish mqttId pubpacket).2.session := by
  obtain ⟨_, _, after⟩ | ⟨_, _, after⟩ | ⟨_, _, _, after⟩ | ⟨_, _, _, after⟩ :=
    self.onPublish_cases mqttId pubpacket <;> rw [after]
  · exact .refl _
  · unfold clearRetained
    split <;> exact .refl _
  · exact addStagingPacket_sameMaps _ _ _
  · exact .refl _

theorem onPubrel_sameMaps (self : Broker) (mqttId : String) (pubrelPacket : Pubrel) :
    SameMaps self.session (self.onPubrel mqttId pubrelPacket).2.session := by
  unfold onPubrel
  simp only
  split
  · dsimp only
    split
    · exact commitPacket_sameMaps _ _
    · dsimp only [spawn]
      split <;> exact commitPacket_sameMaps _ _
  · exact .refl _

/-- What a handler does to the maps of connections and versions: nothing, unless the packet is a
DISCONNECT. -/
theorem handle_session (self : Broker) (mqttId : String) (packet : ControlPacket) :
    SameMaps self.session (self.handle mqttId packet).2.session ∨
      ∃ p, packet = .disconnect p ∧
        (self.handle mqttId packet).2.session = self.session.unregisterMqttId mqttId := by
  cases packet with
  | disconnect p =>
    unfold handle onDisconnect
    by_cases named : mqttId ≠ ""
    · exact .inr ⟨p, rfl, by simp only [if_pos named]⟩
    · exact .inl (by simp only [if_neg named]; exact .refl _)
  | subscribe p =>
    refine .inl ?_
    have collects := self.collectRetained_sameMaps p.topicFilters
    unfold handle onSubscribe
    dsimp only
    split <;> exact collects
  | publish p => exact .inl (self.onPublish_sameMaps mqttId p)
  | pubrel p => exact .inl (self.onPubrel_sameMaps mqttId p)
  | pubcomp p => exact .inl (commitPacket_sameMaps _ _)
  | _ => exact .inl (.refl _)

theorem unregisterMqttId_byClientId (session : SessionManager) (mqttId : String) :
    (session.unregisterMqttId mqttId).byClientId = session.byClientId := by
  unfold SessionManager.unregisterMqttId
  split <;> rfl

theorem unregisterMqttId_mqttVersion (session : SessionManager) (mqttId : String) :
    (session.unregisterMqttId mqttId).mqttVersion = session.mqttVersion := by
  unfold SessionManager.unregisterMqttId
  split <;> rfl

theorem unregisterMqttId_qosTmp (session : SessionManager) (mqttId : String) :
    (session.unregisterMqttId mqttId).qosTmp = session.qosTmp := by
  unfold SessionManager.unregisterMqttId
  split <;> rfl

theorem unregisterMqttId_byMqttId (session : SessionManager) (mqttId other : String) :
    (session.unregisterMqttId mqttId).byMqttId.get other =
      if other = mqttId then none else session.byMqttId.get other := by
  unfold SessionManager.unregisterMqttId
  split
  · exact DashMap.get_remove _ _ _
  · next unknown =>
    split
    · next same => rw [same, unknown]
    · rfl

/-- Handling a request registers nobody. -/
theorem handle_registered {self : Broker} {mqttId other : String} {packet : ControlPacket} {clientId : Uuid}
    (known : (self.handle mqttId packet).2.session.byMqttId.get other = some clientId) :
    self.session.byMqttId.get other = some clientId := by
  rcases self.handle_session mqttId packet with same | ⟨_, _, after⟩
  · rwa [same.byMqttId] at known
  · rw [after, unregisterMqttId_byMqttId] at known
    split at known
    · cases known
    · exact known

theorem handle_byClientId (self : Broker) (mqttId : String) (packet : ControlPacket) :
    (self.handle mqttId packet).2.session.byClientId = self.session.byClientId := by
  rcases self.handle_session mqttId packet with same | ⟨_, _, after⟩
  · exact same.byClientId
  · rw [after]
    exact unregisterMqttId_byClientId _ _

theorem handle_mqttVersion (self : Broker) (mqttId : String) (packet : ControlPacket) :
    (self.handle mqttId packet).2.session.mqttVersion = self.session.mqttVersion := by
  rcases self.handle_session mqttId packet with same | ⟨_, _, after⟩
  · exact same.mqttVersion
  · rw [after]
    exact unregisterMqttId_mqttVersion _ _

@[simp] theorem clearRetained_channels (self : Broker) (pubpacket : Publish) :
    (self.clearRetained pubpacket).channels = self.channels := by
  unfold clearRetained
  split <;> rfl

@[simp] theorem clearRetained_topics (self : Broker) (pubpacket : Publish) :
    (self.clearRetained pubpacket).topics = self.topics := by
  unfold clearRetained
  split <;> rfl

theorem channels_onChannel (self : Broker) (clientId other : Uuid)
    (change : OutboundChannel → OutboundChannel) :
    (self.onChannel clientId change).channels other =
      if other = clientId then change (self.channels clientId) else self.channels other := by
  simp only [onChannel, Function.update_apply]

theorem handle_channels (self : Broker) (mqttId : String) (packet : ControlPacket) :
    (self.handle mqttId packet).2.channels = self.channels := by
  cases packet with
  | disconnect p =>
    simp only [handle, onDisconnect]
    split <;> rfl
  | subscribe p =>
    simp only [handle, onSubscribe]
    split <;> rfl
  | publish p =>
    obtain ⟨_, _, after⟩ | ⟨_, _, after⟩ | ⟨_, _, _, after⟩ | ⟨_, _, _, after⟩ :=
      self.onPublish_cases mqttId p <;> simp only [handle, after, clearRetained_channels, spawn]
  | pubrel p =>
    simp only [handle, onPubrel]
    split
    · split
      · rfl
      · split <;> rfl
    · rfl
  | _ => rfl

/-- The table of subscriptions behind a packet: a SUBSCRIBE registers its filters in turn. -/
theorem handle_topics (self : Broker) (mqttId : String) (packet : ControlPacket) :
    (self.handle mqttId packet).2.topics =
      match packet with
      | .subscribe subpacket =>
          if mqttId ≠ "" then
            subpacket.topicFilters.foldl
              (fun topics filter => topics.register filter.1.value mqttId filter.2) self.topics
          else self.topics
      | _ => self.topics := by
  cases packet with
  | disconnect p =>
    simp only [handle, onDisconnect]
    split <;> rfl
  | subscribe p =>
    simp only [handle, onSubscribe]
    split <;> rfl
  | publish p =>
    obtain ⟨_, _, after⟩ | ⟨_, _, after⟩ | ⟨_, _, _, after⟩ | ⟨_, _, _, after⟩ :=
      self.onPublish_cases mqttId p <;> simp only [handle, after, clearRetained_topics, spawn]
  | pubrel p =>
    simp only [handle, onPubrel]
    split
    · split
      · rfl
      · split <;> rfl
    · rfl
  | _ => rfl

/-- The message that waits for the PUBREL with a packet identifier. -/
def staged (self : Broker) (id : PacketId) : Option (Publish × QoS) :=
  self.session.qosTmp.get id.value

theorem value_eq_iff (id id' : PacketId) : id.value = id'.value ↔ id = id' := by
  cases id
  cases id'
  simp

theorem get_addStagingPacket (session : SessionManager) (pkt : Publish) (qos : QoS)
    (id : PacketId) :
    (session.addStagingPacket pkt qos).qosTmp.get id.value =
      if pkt.packetId = some id then some (pkt, qos) else session.qosTmp.get id.value := by
  unfold SessionManager.addStagingPacket
  cases pkt.packetId with
  | none => simp
  | some own => simp only [DashMap.get_insert, value_eq_iff, Option.some.injEq, eq_comm (a := id)]

theorem get_commitPacket (session : SessionManager) (pid id : PacketId) :
    (session.commitPacket pid).2.qosTmp.get id.value =
      if pid = id then none else session.qosTmp.get id.value := by
  unfold SessionManager.commitPacket
  cases found : session.qosTmp.get pid.value with
  | some _ => simp only [DashMap.get_remove, value_eq_iff, eq_comm (a := id)]
  | none =>
    dsimp only
    split
    · next same => rw [← same, found]
    · rfl

theorem publish_staged (self : Broker) (mqttId : String) (pubpacket : Publish) (id : PacketId) :
    (self.handle mqttId (.publish pubpacket)).2.staged id =
      if pubpacket.qos = .qos2 ∧ pubpacket.payloadLength ≠ 0 ∧ pubpacket.packetId = some id then
        some (self.stamped mqttId pubpacket, .qos2)
      else self.staged id := by
  dsimp only [handle]
  obtain ⟨none_id, _, after⟩ | ⟨empty, _, after⟩ | ⟨full, _, qos2, after⟩ | ⟨_, _, qos, after⟩ :=
    self.onPublish_cases mqttId pubpacket <;> rw [after]
  · rw [if_neg (by simp [none_id])]
  · rw [if_neg (by simp [empty]), staged, staged, clearRetained]
    split <;> rfl
  · simp only [staged, get_addStagingPacket, qos2, full, ne_eq, not_false_eq_true, true_and]
    rfl
  · rw [if_neg (by simp [qos])]
    rfl

theorem pubrel_staged (self : Broker) (mqttId : String) (pubrelPacket : Pubrel) (id : PacketId) :
    (self.handle mqttId (.pubrel pubrelPacket)).2.staged id =
      if pubrelPacket.packetId = id then none else self.staged id := by
  simp only [handle, onPubrel, SessionManager.fetchPacket, staged]
  cases found : self.session.qosTmp.get pubrelPacket.packetId.value with
  | none =>
    dsimp only
    split
    · next same => rw [← same, found]
    · rfl
  | some entry =>
    dsimp only
    split
    · exact get_commitPacket _ _ _
    · dsimp only [spawn]
      split <;> exact get_commitPacket _ _ _

theorem pubcomp_staged (self : Broker) (mqttId : String) (pubcompPacket : Pubcomp)
    (id : PacketId) :
    (self.handle mqttId (.pubcomp pubcompPacket)).2.staged id =
      if pubcompPacket.packetId = id then none else self.staged id :=
  get_commitPacket _ _ _

/-- A PUBREL spawns the delivery of the message that waits for it. -/
theorem pubrel_tasks (self : Broker) (mqttId : String) (pubrelPacket : Pubrel) :
    (self.handle mqttId (.pubrel pubrelPacket)).2.tasks =
      self.tasks ++
        match self.staged pubrelPacket.packetId with
        | some (publish, _) =>
            if publish.payloadLength = 0 ∧ publish.retain.value then []
            else [.release publish pubrelPacket.packetId]
        | none => [] := by
  simp only [handle, onPubrel, SessionManager.fetchPacket, staged]
  cases self.session.qosTmp.get pubrelPacket.packetId.value with
  | none => simp
  | some entry =>
    dsimp only
    split
    · simp
    · dsimp only [spawn]
      split <;> rfl

theorem publish_tasks_of_qos2 (self : Broker) (mqttId : String) {pubpacket : Publish}
    (qos2 : pubpacket.qos = .qos2) :
    (self.handle mqttId (.publish pubpacket)).2.tasks = self.tasks := by
  dsimp only [handle]
  obtain ⟨_, _, after⟩ | ⟨_, _, after⟩ | ⟨_, _, _, after⟩ | ⟨_, _, other, _⟩ :=
    self.onPublish_cases mqttId pubpacket
  · rw [after]
  · rw [after, clearRetained]
    split <;> rfl
  · rw [after]
  · exact absurd qos2 other

theorem foldl_add_get {publishes : List Publish} {id : PacketId} {message : Publish × QoS}
    (collected : Collected)
    (same : ∀ p ∈ publishes, p.qos = .qos2 → p.packetId = some id → (p, QoS.qos2) = message)
    (found : collected.session.qosTmp.get id.value = some message) :
    (publishes.foldl Collected.add collected).session.qosTmp.get id.value = some message := by
  induction publishes generalizing collected with
  | nil => exact found
  | cons p publishes ih =>
    apply ih
    · exact fun other member => same other (List.mem_cons_of_mem p member)
    · unfold Collected.add
      split
      · exact found
      · dsimp only
        split
        · next qos2 =>
          rw [get_addStagingPacket]
          split
          · next own => rw [same p (List.mem_cons_self ..) qos2 own]
          · exact found
        · exact found

/-- The messages a SUBSCRIBE stages are retained ones with QoS 2. -/
theorem subscribe_staged {self : Broker} {mqttId : String} {subpacket : Subscribe} {id : PacketId}
    {message : Publish × QoS}
    (same : ∀ filter ∈ subpacket.topicFilters, ∀ p ∈ self.retain.checkRetain filter.1.value,
      p.qos = .qos2 → p.packetId = some id → (p, QoS.qos2) = message)
    (found : self.staged id = some message) :
    (self.handle mqttId (.subscribe subpacket)).2.staged id = some message := by
  have sameAll : ∀ p ∈ subpacket.topicFilters.flatMap fun filter =>
      self.retain.checkRetain filter.1.value,
      p.qos = .qos2 → p.packetId = some id → (p, QoS.qos2) = message := by
    intro p member
    obtain ⟨filter, listed, matched⟩ := List.mem_flatMap.mp member
    exact same filter listed p matched
  have collects := foldl_add_get { session := self.session } sameAll found
  simp only [handle, onSubscribe]
  split <;> exact collects

/-- A delivery changes nothing but the channels. -/
theorem sendAll_eq (self : Broker) (topic : String) (msg : ℕ → SubscribeOption → Publish) :
    self.sendAll topic msg = { self with channels := (self.sendAll topic msg).channels } := by
  unfold sendAll
  generalize (self.topics.subedId topic).zipIdx = subs
  induction subs generalizing self with
  | nil => rfl
  | cons sub subs ih => exact ih (self.sendTo sub.1.1 (msg sub.2 sub.1.2))

theorem runTask_session (self : Broker) (draws : Draws) (task : Task) :
    (self.runTask draws task).session = self.session := by
  cases task with
  | deliver pubpacket =>
    simp only [runTask]
    rw [sendAll_eq]
    dsimp only
    split <;> rfl
  | release publish packetId =>
    simp only [runTask]
    rw [sendAll_eq]

end Broker

end Aqua
