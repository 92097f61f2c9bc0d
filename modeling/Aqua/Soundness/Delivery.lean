import Aqua.Proofs.ServerRuns
import Mathlib.Tactic.IntervalCases

/-! # Delivery of a message

The handler of a PUBLISH, the handler of its PUBREL and the task they spawn put one copy for every
entry of a matching filter into the channel of the registered client, as long as there is room. A
message without a payload spawns no task: it clears what is retained and reaches nobody.
-/

namespace Aqua

open Runtime

namespace Broker

variable {self : Broker}

/-- The entries of the table whose filter matches the topic and whose client is registered on the
connection. -/
def entries (self : Broker) (topic : String) (clientId : Uuid) : List (String × SubscribeOption) :=
  (self.topics.topicMap.iter.flatMap fun row => if isMatch row.1 topic then row.2 else []).filter
    fun entry => self.session.byMqttId.get entry.1 = some clientId

/-- The lookup of the subscriptions reads the table off. -/
theorem subedId_eq (topics : TopicManager) (topic : String) :
    topics.subedId topic =
      topics.topicMap.iter.flatMap fun row => if isMatch row.1 topic then row.2 else [] := by
  simp only [TopicManager.subedId, List.flatMap_map]
  apply List.flatMap_congr
  intro row member
  rw [DashMap.mem_iter_iff.mp member]
  rfl

/-- A packet sent to an MQTT id is offered to the channel of the connection it is registered on. -/
theorem sendTo_channels (connected : self.session.Connected) (subId : String) (msg : Publish)
    (clientId : Uuid) :
    (self.sendTo subId msg).channels clientId =
      if self.session.byMqttId.get subId = some clientId then
        (self.channels clientId).offer (.publish msg)
      else self.channels clientId := by
  simp only [sendTo, SessionManager.sendByMqttId]
  cases known : self.session.byMqttId.get subId with
  | none => rfl
  | some other =>
    simp only [SessionManager.sendByClientId, connected _ _ known, Outbound.send, Option.some.injEq]
    by_cases same : other = clientId
    · rw [if_pos same, ← same, Channel.offer]
      cases (self.channels other).trySend (.publish msg) with
      | ok next => exact Function.update_self ..
      | error e => rfl
    · rw [if_neg same]
      cases (self.channels other).trySend (.publish msg) with
      | ok next => exact Function.update_of_ne (Ne.symm same) ..
      | error e => rfl

/-- The copies of a message for one connection, in the order in which they are sent. -/
def copies (self : Broker) (topic : String) (msg : ℕ → SubscribeOption → Publish) (clientId : Uuid) :
    List Publish :=
  ((self.topics.subedId topic).zipIdx.filter fun sub =>
    self.session.byMqttId.get sub.1.1 = some clientId).map fun sub => msg sub.2 sub.1.2

private theorem sendAll_channels (connected : self.session.Connected) (topic : String)
    (msg : ℕ → SubscribeOption → Publish) (clientId : Uuid) :
    (self.sendAll topic msg).channels clientId =
      ((self.copies topic msg clientId).map ControlPacket.publish).foldl Channel.offer
        (self.channels clientId) := by
  unfold sendAll copies
  generalize (self.topics.subedId topic).zipIdx = subs
  induction subs generalizing self with
  | nil => rfl
  | cons sub subs ih =>
    rw [List.foldl_cons, ih (show (self.sendTo sub.1.1 _).session.Connected from connected),
      sendTo_channels connected]
    by_cases own : self.session.byMqttId.get sub.1.1 = some clientId
    · rw [if_pos own, List.filter_cons_of_pos (by simpa using own)]
      rfl
    · rw [if_neg own, List.filter_cons_of_neg (by simpa using own)]
      rfl

/-- There is one copy for each entry. -/
theorem copies_entries {R : Publish → Prop} (self : Broker) (topic : String)
    {msg : ℕ → SubscribeOption → Publish} (copied : ∀ place option, R (msg place option))
    (clientId : Uuid) :
    List.Forall₂ (fun _ message => R message) (self.entries topic clientId)
      (self.copies topic msg clientId) := by
  have numbered : self.entries topic clientId = ((self.topics.subedId topic).zipIdx.filter fun sub =>
      self.session.byMqttId.get sub.1.1 = some clientId).map Prod.fst := by
    rw [entries, ← subedId_eq]
    conv_lhs => rw [← List.zipIdx_map_fst 0 (self.topics.subedId topic)]
    rw [List.filter_map]
    rfl
  rw [numbered, copies, List.forall₂_map_left_iff, List.forall₂_map_right_iff, List.forall₂_same]
  exact fun sub _ => copied sub.2 sub.1.2

/-- A message that is a copy of `original` for some subscriber. -/
def CopyOf (original message : Publish) : Prop :=
  message.topicName = original.topicName ∧ message.payloadData = original.payloadData

/-- A task offers every connection one copy of its message for each entry. -/
theorem runTask_channels (connected : self.session.Connected) (draws : Draws) (task : Task)
    (clientId : Uuid) : ∃ copies : List Publish,
      (self.runTask draws task).channels clientId =
        (copies.map ControlPacket.publish).foldl Channel.offer (self.channels clientId) ∧
      List.Forall₂ (fun _ => CopyOf task.message)
        (self.entries task.message.topicName.value clientId) copies := by
  cases task with
  | deliver pubpacket =>
    let retained := if pubpacket.retain.value then
        { self with retain := self.retain.updateRetain pubpacket.topicName.value pubpacket }
      else self
    have session : retained.session = self.session := by unfold retained; split <;> rfl
    have topics : retained.topics = self.topics := by unfold retained; split <;> rfl
    have channels : retained.channels = self.channels := by unfold retained; split <;> rfl
    have sent := @sendAll_channels retained (by rw [session]; exact connected)
      pubpacket.topicName.value (fun place option => deliveryMsg pubpacket option (draws place)) clientId
    rw [channels] at sent
    refine ⟨_, sent, ?_⟩
    have same : retained.entries pubpacket.topicName.value clientId =
        self.entries pubpacket.topicName.value clientId := by rw [entries, entries, session, topics]
    rw [Task.message, ← same]
    exact retained.copies_entries _ (fun _ _ => ⟨rfl, rfl⟩) clientId
  | release publish packetId =>
    refine ⟨_, sendAll_channels connected _ _ clientId, ?_⟩
    exact self.copies_entries _ (fun _ _ => ⟨rfl, rfl⟩) clientId

/-- The handler of a PUBLISH and, for QoS 2, the handler of its PUBREL. -/
def publish (self : Broker) (mqttId : String) (p : Publish) (pubrel : Pubrel) : Broker :=
  let published := (self.handle mqttId (.publish p)).2
  if p.qos = .qos2 then (published.handle mqttId (.pubrel pubrel)).2 else published

/-- The tasks that were spawned behind `earlier` have run. -/
def settle (self : Broker) (draws : Draws) (earlier : List Task) : Broker :=
  (self.tasks.drop earlier.length).foldl
    (fun broker task => (broker.finish task).runTask draws task) self

/-- The message the handlers of a PUBLISH spawn a task for. -/
def spawned (self : Broker) (mqttId : String) (p : Publish) (pubrel : Pubrel) : Option Task :=
  if p.payloadData ≠ [] then
    some (if p.qos = .qos2 then .release (self.stamped mqttId p) pubrel.packetId
      else .deliver (self.stamped mqttId p))
  else if p.qos = .qos2 then
    (self.staged pubrel.packetId).map fun other => .release other.1 pubrel.packetId
  else none

private theorem publish_tasks {p : Publish} {pubrel : Pubrel} (keeps : self.Keeps Publish.Carries)
    (sound : p.Sound) (own : p.qos = .qos2 → p.packetId = some pubrel.packetId) (mqttId : String) :
    (self.publish mqttId p pubrel).tasks = self.tasks ++ (self.spawned mqttId p pubrel).toList := by
  unfold publish spawned
  by_cases qos2 : p.qos = .qos2
  · rw [if_pos qos2, pubrel_tasks, publish_tasks_of_qos2 self mqttId qos2, publish_staged]
    simp only [qos2, own qos2, and_true, true_and, sound.payloadLength_ne_zero, if_true]
    by_cases carries : p.payloadData ≠ []
    · have length : p.payloadLength ≠ 0 := sound.payloadLength_ne_zero.mpr carries
      simp [carries, stamped, length]
    · rw [if_neg carries, if_neg carries]
      cases found : self.staged pubrel.packetId with
      | none => rfl
      | some other =>
        have length : other.1.payloadLength ≠ 0 := (keeps.staged _ other found).1
        simp [length]
  · rw [if_neg qos2, if_neg qos2, if_neg qos2]
    obtain ⟨unset, notQos0, _⟩ | ⟨empty, _, after⟩ | ⟨_, _, wrong, _⟩ | ⟨full, _, _, after⟩ :=
      self.onPublish_cases mqttId p
    · exact absurd (sound.packetId.mp unset) notQos0
    · rw [if_neg (fun carries => sound.payloadLength_ne_zero.mpr carries empty)]
      simp only [handle, after, clearRetained]
      split <;> simp
    · exact absurd wrong qos2
    · rw [if_pos (sound.payloadLength_ne_zero.mp full)]
      simp only [handle, after, spawn]
      rfl

/-- The handlers change neither the connections nor the subscriptions. -/
theorem publish_keeps (self : Broker) (mqttId : String) (p : Publish) (pubrel : Pubrel) :
    SameMaps self.session (self.publish mqttId p pubrel).session ∧
      (self.publish mqttId p pubrel).topics = self.topics ∧
      (self.publish mqttId p pubrel).channels = self.channels := by
  have published : SameMaps self.session (self.handle mqttId (.publish p)).2.session :=
    self.onPublish_sameMaps mqttId p
  unfold publish
  split
  · rw [handle_topics, handle_channels, handle_topics, handle_channels]
    exact ⟨published.trans (onPubrel_sameMaps _ mqttId pubrel), rfl, rfl⟩
  · rw [handle_topics, handle_channels]
    exact ⟨published, rfl, rfl⟩

/-- What the task of a PUBLISH, if any, puts into the channels. -/
theorem settle_channels {p : Publish} {pubrel : Pubrel}
    (connected : self.session.Connected) (keeps : self.Keeps Publish.Carries) (sound : p.Sound)
    (own : p.qos = .qos2 → p.packetId = some pubrel.packetId) (mqttId : String) (draws : Draws)
    (clientId : Uuid) : ∃ copies : List Publish,
      (((self.publish mqttId p pubrel).settle draws self.tasks).channels clientId).accepted =
        (self.channels clientId).accepted ++
          (copies.map ControlPacket.publish).take (self.channels clientId).room ∧
      match self.spawned mqttId p pubrel with
      | none => copies = []
      | some task => List.Forall₂ (fun _ => CopyOf task.message)
          (self.entries task.message.topicName.value clientId) copies := by
  obtain ⟨maps, topics, channels⟩ := self.publish_keeps mqttId p pubrel
  have tasks := publish_tasks keeps sound own mqttId
  have new : (self.publish mqttId p pubrel).tasks.drop self.tasks.length =
      (self.spawned mqttId p pubrel).toList := by
    rw [tasks, List.drop_left]
  unfold settle
  rw [new]
  cases self.spawned mqttId p pubrel with
  | none =>
    refine ⟨[], ?_, rfl⟩
    rw [List.map_nil, List.take_nil, List.append_nil]
    exact congrArg (fun channels => (channels clientId).accepted) channels
  | some task =>
    have connected' : ((self.publish mqttId p pubrel).finish task).session.Connected := by
      intro mqttId clientId known
      rw [show ((self.publish _ p pubrel).finish task).session.byMqttId = _ from maps.byMqttId] at known
      rw [show ((self.publish _ p pubrel).finish task).session.byClientId = _ from maps.byClientId]
      exact connected _ _ known
    obtain ⟨copies, sent, each⟩ := runTask_channels connected' draws task clientId
    refine ⟨copies, ?_, ?_⟩
    · rw [Option.toList_some, List.foldl_cons, List.foldl_nil, sent, Channel.accepted_foldl_offer]
      rw [show ((self.publish mqttId p pubrel).finish task).channels = _ from channels]
    · have same : ((self.publish mqttId p pubrel).finish task).entries = self.entries := by
        funext topic clientId
        unfold entries
        rw [show ((self.publish mqttId p pubrel).finish task).topics = _ from topics,
          show ((self.publish _ p pubrel).finish task).session.byMqttId = _ from maps.byMqttId]
      rwa [same] at each

/-- Between two states every connection was sent one copy of the message for each of its entries, and
nothing else. -/
def Delivered (before after : Broker) (p : Publish) : Prop :=
  ∀ clientId, ∃ sent : List Publish,
    (after.channels clientId).accepted =
      (before.channels clientId).accepted ++ sent.map ControlPacket.publish ∧
    List.Forall₂ (fun _ => CopyOf p) (before.entries p.topicName.value clientId) sent

/-- A message with a payload finds room for every copy. A message without one is for nobody, and its
PUBREL releases nothing that another connection gets. -/
def CanDeliver (self : Broker) (p : Publish) (pubrel : Pubrel) : Prop :=
  ∀ clientId,
    if p.payloadData ≠ [] then
      (self.entries p.topicName.value clientId).length ≤ (self.channels clientId).room
    else
      self.entries p.topicName.value clientId = [] ∧
        ∀ other, p.qos = .qos2 → self.staged pubrel.packetId = some other →
          self.entries other.1.topicName.value clientId = [] ∨ (self.channels clientId).room = 0

/-- Copies of a message that arrive where they should. -/
theorem sent_iff_room {entries : List (String × SubscribeOption)} {copies : List Publish} {p : Publish}
    {room : ℕ} (each : List.Forall₂ (fun _ => CopyOf p) entries copies) :
    (∃ sent : List Publish,
      (copies.map ControlPacket.publish).take room = sent.map ControlPacket.publish ∧
      List.Forall₂ (fun _ => CopyOf p) entries sent) ↔ entries.length ≤ room := by
  constructor
  · rintro ⟨sent, taken, all⟩
    have lengths := congrArg List.length taken
    rw [List.length_take, List.length_map, List.length_map, ← all.length_eq, ← each.length_eq] at lengths
    omega
  · intro fits
    refine ⟨copies, List.take_of_length_le ?_, each⟩
    rw [List.length_map, ← each.length_eq]
    exact fits

/-- Nothing arrives. -/
theorem sent_of_nothing {entries : List (String × SubscribeOption)} {p : Publish} {room : ℕ} :
    (∃ sent : List Publish,
      (([] : List Publish).map ControlPacket.publish).take room = sent.map ControlPacket.publish ∧
      List.Forall₂ (fun _ => CopyOf p) entries sent) ↔ entries = [] := by
  constructor
  · rintro ⟨sent, none, all⟩
    rw [List.map_nil, List.take_nil, eq_comm, List.map_eq_nil_iff] at none
    rw [none] at all
    exact List.forall₂_nil_right_iff.mp all
  · rintro rfl
    exact ⟨[], List.take_nil, .nil⟩

/-- Copies of another message, which has a payload, must not arrive. -/
theorem sent_iff_nothing {entries others : List (String × SubscribeOption)} {copies : List Publish}
    {p other : Publish} {room : ℕ} (empty : p.payloadData = []) (carries : other.payloadData ≠ [])
    (each : List.Forall₂ (fun _ => CopyOf other) others copies) :
    (∃ sent : List Publish,
      (copies.map ControlPacket.publish).take room = sent.map ControlPacket.publish ∧
      List.Forall₂ (fun _ => CopyOf p) entries sent) ↔ entries = [] ∧ (others = [] ∨ room = 0) := by
  constructor
  · rintro ⟨sent, taken, all⟩
    cases sent with
    | nil =>
      refine ⟨List.forall₂_nil_right_iff.mp all, ?_⟩
      rw [List.map_nil, List.take_eq_nil_iff, List.map_eq_nil_iff] at taken
      refine taken.symm.imp_left fun none => ?_
      rw [none] at each
      exact List.forall₂_nil_right_iff.mp each
    | cons message sent =>
      -- the first message that arrives would be a copy of both
      cases each with
      | nil => simp at taken
      | cons copy _ =>
        cases room with
        | zero => simp at taken
        | succ room =>
          rw [List.map_cons, List.take_succ_cons, List.map_cons, List.cons.injEq,
            ControlPacket.publish.injEq] at taken
          obtain ⟨rfl, _⟩ := taken
          cases all with
          | cons own _ => exact absurd (copy.2.symm.trans (own.2.trans empty)) carries
  · rintro ⟨rfl, none⟩
    refine ⟨[], ?_, .nil⟩
    rw [List.map_nil, List.take_eq_nil_iff, List.map_eq_nil_iff]
    refine none.symm.imp_right fun none => ?_
    rw [none] at each
    exact List.forall₂_nil_left_iff.mp each

end Broker

/-- For every reachable state of the server, every message a decoder emits and every client that
publishes it: the handlers of the PUBLISH (and of its PUBREL for QoS 2) and the task they spawn send one
copy for each matching entry of a registered client and nothing else, exactly if the message has a
payload and every copy finds room, or it has none and there is nobody to send it to. -/
theorem delivered_iff {build : Build} {server : Server} (reachable : server.Reachable build)
    {p : Publish} (emitted : p.Emitted) {pubrel : Pubrel}
    (own : p.qos = .qos2 → p.packetId = some pubrel.packetId) (mqttId : String)
    (draws : Broker.Draws) :
    server.broker.Delivered
        ((server.broker.publish mqttId p pubrel).settle draws server.broker.tasks) p ↔
      server.broker.CanDeliver p pubrel := by
  have sound := reachable.sound
  apply forall_congr'
  intro clientId
  obtain ⟨copies, sent, each⟩ := Broker.settle_channels sound.connected sound.messages emitted.sound own
    mqttId draws clientId
  simp only [sent, List.append_cancel_left_eq]
  by_cases carries : p.payloadData ≠ []
  · rw [if_pos carries]
    rw [Broker.spawned, if_pos carries] at each
    apply Broker.sent_iff_room
    dsimp only at each
    split at each <;> exact each
  · have empty : p.payloadData = [] := not_not.mp carries
    rw [if_neg carries]
    rw [Broker.spawned, if_neg carries] at each
    by_cases qos2 : p.qos = .qos2
    · rw [if_pos qos2] at each
      cases found : server.broker.staged pubrel.packetId with
      | none =>
        rw [found] at each
        rw [show copies = [] from each, Broker.sent_of_nothing]
        simp
      | some other =>
        rw [found] at each
        have carried : other.1.payloadData ≠ [] := (sound.messages.staged _ other found).2
        rw [Broker.sent_iff_nothing empty carried each]
        refine and_congr_right fun _ => ⟨?_, fun all => all other qos2 rfl⟩
        rintro nothing _ _ ⟨rfl⟩
        exact nothing
    · rw [if_neg qos2] at each
      rw [show copies = [] from each, Broker.sent_of_nothing]
      simp [qos2]

/-- A CONNECT of the client `a` and its SUBSCRIBE to the topic `t`. -/
def subscribeBytes : Bytes :=
  [0x10, 0x0d, 0x00, 0x04, 0x4d, 0x51, 0x54, 0x54, 0x04, 0x02, 0x00, 0x3c, 0x00, 0x01, 0x61,
    0x82, 0x06, 0x00, 0x01, 0x00, 0x01, 0x74, 0x00]

/-- A server whose only client has sent them. -/
def listening : Server :=
  (Server.resume ⟨false⟩ ⟨0⟩)^[8]
    ((Server.new.accept ⟨0⟩).poll ⟨false⟩ ⟨0⟩ (.ready subscribeBytes) true)

theorem listening_reachable : listening.Reachable ⟨false⟩ := by
  have accepted : (Server.new.accept ⟨0⟩).Reachable ⟨false⟩ := (Server.Reachable.new _).step (.accept rfl)
  refine (accepted.poll rfl rfl _ _).resume 8 fun k lt => ?_
  interval_cases k <;> exact ⟨rfl, rfl⟩

/-- Its channels hold nothing but the CONNACK. -/
theorem listening_room (clientId : Uuid) : (listening.broker.channels clientId).room ≠ 0 := by
  by_cases own : clientId = ⟨0⟩
  · rw [own]
    decide
  · have fresh : (Server.new.accept ⟨0⟩).broker.channels clientId = .new := Function.update_of_ne own _ _
    have untouched : ∀ count, ((Server.resume ⟨false⟩ ⟨0⟩)^[count] ((Server.new.accept ⟨0⟩).poll ⟨false⟩
        ⟨0⟩ (.ready subscribeBytes) true)).broker.channels clientId = .new := by
      intro count
      induction count with
      | zero => rw [Function.iterate_zero, id, Server.poll_channels_of_ne _ own, fresh]
      | succ count ih =>
        rw [Function.iterate_succ_apply', Server.resume, Server.poll_channels_of_ne _ own, ih]
    rw [listening, untouched]
    decide

/-- A PUBLISH with QoS 0 to the topic `t`. -/
def publishBytes (payload : Bytes) : Bytes :=
  [0x30, 3 + UInt8.ofNat payload.length, 0x00, 0x01, 0x74] ++ payload

def publishOf (payload : Bytes) : Publish where
  topicName := ⟨"t"⟩
  payloadLength := payload.length
  payloadData := payload

private theorem publishOf_emitted {payload : Bytes} (known : payload = [] ∨ payload = [0x68, 0x69]) :
    (publishOf payload).Emitted := by
  have fed : ((Decoder.new.setProtocolVersion (some ⟨4⟩)).feed (publishBytes payload)).Reachable ⟨false⟩ :=
    (Decoder.Reachable.new.setProtocolVersion _).feed _
  rcases known with rfl | rfl
  · exact ⟨_, _, _, fed.poll rfl, rfl⟩
  · exact ⟨_, _, _, (fed.poll rfl).poll rfl, rfl⟩

theorem delivered_iff_hi :
    listening.broker.Delivered
        ((listening.broker.publish "b" (publishOf [0x68, 0x69]) {}).settle (fun _ => 0)
          listening.broker.tasks) (publishOf [0x68, 0x69]) ↔
      listening.broker.CanDeliver (publishOf [0x68, 0x69]) {} :=
  delivered_iff listening_reachable (publishOf_emitted (.inr rfl)) (fun wrong => by cases wrong) "b" _

/-- The subscriber gets nothing although its channel has room. -/
theorem empty_not_delivered :
    ¬ ∀ (server : Server) (p : Publish) (pubrel : Pubrel) (mqttId : String) (draws : Broker.Draws),
      server.Reachable ⟨false⟩ → p.Emitted →
      (p.qos = .qos2 → p.packetId = some pubrel.packetId) →
      (∀ clientId, (server.broker.channels clientId).room ≠ 0) →
        server.broker.Delivered
          ((server.broker.publish mqttId p pubrel).settle draws server.broker.tasks) p := by
  intro claim
  obtain ⟨sent, accepted, each⟩ := claim listening (publishOf []) {} "b" (fun _ => 0) listening_reachable
    (publishOf_emitted (.inl rfl)) (fun wrong => by cases wrong) listening_room ⟨0⟩
  have unchanged : (((listening.broker.publish "b" (publishOf []) {}).settle (fun _ => 0)
      listening.broker.tasks).channels ⟨0⟩).accepted = (listening.broker.channels ⟨0⟩).accepted := rfl
  rw [unchanged, List.self_eq_append_right, List.map_eq_nil_iff] at accepted
  rw [accepted, List.forall₂_nil_right_iff] at each
  exact absurd (congrArg List.length each) (by decide)

end Aqua
