import Aqua.Proofs.Enqueued
import Aqua.Soundness.Forwarding
import Aqua.Soundness.VersionPerConnection

/-! # What the handlers rely on

A decoder emits messages with a payload of the announced length, and with an identifier exactly where the QoS needs
one. The handlers panic on no such message. Staging, retaining and copying keep both, so the header of every
message a subscriber gets can be written, and its length is that of the bytes behind it.
-/

namespace Aqua

open Wire Runtime

/-- The header is written, and its length field counts the bytes behind it, payload included. -/
def Publish.Framed (p : Publish) : Prop :=
  ∃ first length body, p.encodeHeader = .ok (first :: encodeVariableBytes length ++ body) ∧
    length = (body ++ p.payloadData).length ∧
    (length < 2 ^ 28 → SelfDelimiting (first :: encodeVariableBytes length ++ (body ++ p.payloadData)))

private theorem Publish.Sound.framed {p : Publish} (sound : p.Sound) : p.Framed := by
  obtain ⟨ids, writtenId, _, _⟩ := Publish.encodePacketId_reads sound.packetId
  obtain ⟨properties, written, _⟩ := p.encodeProperties_length
  have total : ((putTruncated (stringBytes p.topicName.value) ++ ids ++ properties) ++ p.payloadData).length =
      (putTruncated (stringBytes p.topicName.value) ++ ids ++ properties).length + p.payloadLength := by
    rw [List.length_append, sound.payload]
  refine ⟨_, _, _, Publish.encodeHeader_eq writtenId written, total.symm, fun small => ?_⟩
  exact (selfDelimiting_iff _ _ _).mpr ⟨small, total⟩

namespace Publish.Sound

variable {p : Publish}

/-- The version is nothing the handlers rely on. -/
theorem withVersion (sound : p.Sound) (version : ProtocolVersion) :
    ({ p with protocolVersion := version } : Publish).Sound :=
  ⟨sound.payload, sound.packetId⟩

theorem copies {task : Task} {msg : Publish} (sound : task.message.Sound) (copies : task.Copies msg) :
    msg.Sound := by
  cases copies with
  | live pubpacket option draw => exact ⟨sound.payload, deliveryMsg_packetId_none_iff⟩
  | released publish packetId option =>
    refine ⟨sound.payload, ?_⟩
    simp only [Broker.releaseMsg, ite_eq_left_iff, reduceCtorEq, imp_false, not_not]

/-- The handler of a sound message answers. -/
theorem answered (sound : p.Sound) (broker : Broker) (mqttId : String) :
    ∃ response, (broker.handle mqttId (.publish p)).1 = .ok response := by
  obtain ⟨dup, qos, retain, topicName, pubProperties, packetId, payloadLength, payloadData, version⟩ := p
  have identified := sound.packetId
  cases packetId with
  | none =>
    cases identified.mp rfl
    exact ⟨_, rfl⟩
  | some id =>
    cases qos with
    | qos0 => cases identified.mpr rfl
    | qos1 => exact ⟨_, rfl⟩
    | qos2 => exact ⟨_, rfl⟩

end Publish.Sound

/-- What a subscriber may get: a copy a task makes, or a retained message. -/
inductive Broker.Delivers (self : Broker) : Publish → Prop
  | copy {task : Task} {msg : Publish} (spawned : task ∈ self.tasks) (copies : task.Copies msg) :
      Delivers self msg
  | retained {topic : String} {msg : Publish} (kept : self.retain.kvs.get topic = some msg) : Delivers self msg

private theorem Broker.Keeps.delivers {self : Broker} {msg : Publish} (keeps : self.Keeps Publish.Sound)
    (delivers : self.Delivers msg) : msg.Sound := by
  cases delivers with
  | copy spawned copies => exact (keeps.tasks _ spawned).copies copies
  | retained kept => exact keeps.retained _ _ kept

/-- The packet is sound if it is a message. -/
def ControlPacket.SoundMessage (self : ControlPacket) : Prop := ∀ p, self = .publish p → p.Sound

/-- Every message is sound: the kept ones, the ones a channel has accepted, and the ones a connection is about to
offer. -/
structure Server.SoundMessages (build : Build) (server : Server) : Prop where
  sound : server.Sound build
  kept : server.broker.Keeps Publish.Sound
  enqueued : server.broker.Enqueued ControlPacket.SoundMessage
  outgoing : ∀ clientId, ∀ packet ∈ (server.clients clientId).session.connection.state.outgoing,
    packet.SoundMessage

namespace Server.SoundMessages

variable {build : Build} {server : Server}

private theorem new (build : Build) : Server.new.SoundMessages build where
  sound := .new build
  kept := .new
  enqueued := .new
  outgoing := fun _ => List.forall_mem_nil _

private theorem accept (messages : server.SoundMessages build) (clientId : Uuid) :
    (server.accept clientId).SoundMessages build where
  sound := messages.sound.accept clientId
  kept := messages.kept.accept clientId
  enqueued := messages.enqueued.accept clientId
  outgoing := by
    apply forall_update (P := fun _ client => ∀ packet ∈ client.session.connection.state.outgoing,
      packet.SoundMessage)
    · exact List.forall_mem_nil _
    · exact messages.outgoing

/-- The handlers take in sound messages only. -/
theorem resolve (messages : server.SoundMessages build) (clientId : Uuid) (read : SocketRead) (ready : Bool) :
    (server.resolve (server.clients clientId) clientId read ready).2.1.Keeps Publish.Sound := by
  obtain same | ⟨req, _, after⟩ | ⟨req, phase, after⟩ :=
    server.resolve_broker (server.clients clientId) clientId read ready
  · rw [same]
    exact messages.kept
  · rw [after]
    exact messages.kept.onConnect _ _ req
  · rw [after]
    apply messages.kept.handle
    rintro p rfl _
    exact ((messages.sound.clients clientId).received p phase).withVersion _

private theorem poll (messages : server.SoundMessages build) {clientId : Uuid}
    (live : (server.clients clientId).live = true)
    (goesOn : (server.clients clientId).session.result = .ok none) (read : SocketRead) (ready : Bool) :
    (server.poll build clientId read ready).SoundMessages build := by
  have sound := messages.sound.poll live read ready
  have kept := messages.resolve clientId read ready
  have channels := server.resolve_channels (server.clients clientId) clientId read ready
  have alone := funext (server.resolve_others (server.clients clientId) clientId read ready)
  have service := @Server.resolve_service server (server.clients clientId) clientId read ready
  cases given : server.resolve (server.clients clientId) clientId read ready with | mk input behind =>
  obtain ⟨broker, mqttId⟩ := behind
  rw [given] at kept channels alone service
  dsimp only at kept channels alone service
  have enqueued : broker.Enqueued ControlPacket.SoundMessage := by
    rw [Broker.Enqueued, channels]
    exact messages.enqueued
  have polls := (server.clients clientId).session.connection.polls build services (broker.channels clientId) input
  rw [Server.poll_eq given] at sound ⊢
  refine ⟨sound, kept.withChannels _, ?_, ?_⟩
  · dsimp only
    apply enqueued.onChannel
    intro packet member
    rcases mem_poll_channel polls alone member with before | offered
    · exact enqueued clientId packet before
    · exact messages.outgoing clientId packet offered
  · apply forall_update (P := fun _ client => ∀ packet ∈ client.session.connection.state.outgoing,
      packet.SoundMessage)
    · intro packet member
      simp only [Session.poll, goesOn] at member
      rcases polls.outgoing member with before | ⟨res, _, rfl⟩ | ⟨res, answers, among⟩
      · exact messages.outgoing clientId packet before
      · exact fun p wrong => by cases wrong
      · obtain ⟨req, _, answered⟩ := service answers
        rintro p rfl
        exact messages.kept.answer answered p among
    · exact messages.outgoing

private theorem step {event : Event} {next : Server} (messages : server.SoundMessages build)
    (step : server.Step build event next) : next.SoundMessages build := by
  cases step with
  | accept fresh => exact messages.accept _
  | poll live goesOn read ready => exact messages.poll live goesOn read ready
  | background background step =>
    refine ⟨messages.sound.background background step, messages.kept.background step background, ?_,
      messages.outgoing⟩
    refine messages.enqueued.background (fun task spawned msg copies => ?_) step background
    rintro p ⟨⟩
    exact (messages.kept.tasks task spawned).copies copies

end Server.SoundMessages

private theorem Server.Reachable.soundMessages {build : Build} {server : Server}
    (reachable : server.Reachable build) :
    server.SoundMessages build :=
  reachable.invariant (.new build) fun _ _ _ messages step => messages.step step

/-- Every emitted message has the announced payload, an identifier exactly if its QoS is not 0, and an answer; and
in every reachable server, the header of every message a subscriber may get or a channel has accepted is written
in front of as many bytes as it announces. -/
theorem emitted_messages_sound :
    (∀ p : Publish, p.Emitted → p.payloadData.length = p.payloadLength ∧ (p.packetId ≠ none ↔ p.qos ≠ .qos0) ∧
      ∀ (broker : Broker) (mqttId : String), ∃ response, (broker.handle mqttId (.publish p)).1 = .ok response) ∧
    ∀ (build : Build) (server : Server), server.Reachable build →
      (∀ msg, server.broker.Delivers msg → msg.Framed) ∧
        ∀ clientId msg, .publish msg ∈ (server.broker.channels clientId).accepted → msg.Framed := by
  constructor
  · intro p emitted
    have sound := emitted.sound
    exact ⟨sound.payload, not_congr sound.packetId, sound.answered⟩
  · intro build server reachable
    have messages := reachable.soundMessages
    exact ⟨fun msg delivers => (messages.kept.delivers delivers).framed,
      fun clientId msg accepted => (messages.enqueued clientId _ accepted msg rfl).framed⟩

/-- A server behind the CONNECT of the client `a`, its CONNACK, and a message for the topic `t`, which takes three
polls and one of the service. -/
def publishing : Server :=
  let announced := (joined (connectBytes 4 [])).poll ⟨false⟩ ⟨0⟩ .pending false
  let received := announced.poll ⟨false⟩ ⟨0⟩ (.ready [0x31, 0x04, 0x00, 0x01, 0x74, 0x58]) false
  let decoded := (received.poll ⟨false⟩ ⟨0⟩ .pending false).poll ⟨false⟩ ⟨0⟩ .pending false
  decoded.poll ⟨false⟩ ⟨0⟩ .pending true

private theorem publishing_reachable : publishing.Reachable ⟨false⟩ := by
  have joined := (joined_reachable (.inl rfl)).1
  unfold publishing
  refine .poll (.poll (.poll (.poll (joined.poll ?_ ?_ _ _) ?_ ?_ _ _) ?_ ?_ _ _) ?_ ?_ _ _) ?_ ?_ _ _ <;> rfl

/-- The message as it is delivered. -/
def forwarded : Publish where
  retain := ⟨true⟩
  topicName := ⟨"t"⟩
  payloadLength := 1
  payloadData := [0x58]
  protocolVersion := level4

private theorem publishing_tasks : publishing.broker.tasks = [.deliver forwarded] := rfl

theorem emitted_messages_sound_forwarded :
    (∃ response, (publishing.broker.handle "a" (.publish (anonymous [0x58]).decoded)).1 = .ok response) ∧
      (Broker.deliveryMsg forwarded { qos := .qos1 } 7).Framed := by
  refine ⟨?_, ?_⟩
  · exact (emitted_messages_sound.1 _ (anonymous_emitted (by decide))).2.2 publishing.broker "a"
  · apply (emitted_messages_sound.2 ⟨false⟩ publishing publishing_reachable).1
    have spawned : .deliver forwarded ∈ publishing.broker.tasks := by
      rw [publishing_tasks]
      exact .head _
    exact .copy spawned (.live forwarded { qos := .qos1 } 7)

end Aqua
