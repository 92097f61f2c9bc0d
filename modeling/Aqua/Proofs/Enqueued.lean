import Aqua.Proofs.ServerRuns

/-! # The packets a channel accepts

A channel is fed from two sides: a task sends the copies of its message, and a connection offers the answer of its
service or the CONNACK. What holds of these packets holds of everything a channel has accepted.
-/

namespace Aqua

open Wire Runtime

/-- The copies a task makes of its message for a subscriber. -/
inductive Task.Copies : Task → Publish → Prop
  | live (pubpacket : Publish) (option : SubscribeOption) (draw : Fin 1001) :
      Copies (.deliver pubpacket) (Broker.deliveryMsg pubpacket option draw)
  | released (publish : Publish) (packetId : PacketId) (option : SubscribeOption) :
      Copies (.release publish packetId) (Broker.releaseMsg publish packetId option)

namespace Broker

/-- Every packet a channel has accepted satisfies `Q`. -/
def Enqueued (Q : ControlPacket → Prop) (self : Broker) : Prop :=
  ∀ clientId, ∀ packet ∈ (self.channels clientId).accepted, Q packet

namespace Enqueued

variable {Q : ControlPacket → Prop} {self : Broker}

theorem new : Enqueued Q Broker.new := fun _ => List.forall_mem_nil _

theorem onChannel {clientId : Uuid} {change : OutboundChannel → OutboundChannel} (enqueued : self.Enqueued Q)
    (own : ∀ packet ∈ (change (self.channels clientId)).accepted, Q packet) :
    (self.onChannel clientId change).Enqueued Q := by
  intro other packet member
  rw [channels_onChannel] at member
  split at member
  · exact own packet member
  · exact enqueued other packet member

theorem send {outbound : Outbound} {packet : ControlPacket} (enqueued : self.Enqueued Q) (own : Q packet) :
    ({ self with channels := (outbound.send self.channels packet).2 } : Broker).Enqueued Q := by
  unfold Outbound.send
  cases sent : (self.channels outbound.tx).trySend packet with
  | ok next =>
    have accepted : (self.onChannel outbound.tx fun _ => next).Enqueued Q := by
      apply enqueued.onChannel
      rw [Channel.accepted_trySend sent, List.forall_mem_append, List.forall_mem_singleton]
      exact ⟨enqueued _, own⟩
    exact accepted
  | error e => exact enqueued

theorem sendTo {subId : String} {msg : Publish} (enqueued : self.Enqueued Q) (own : Q (.publish msg)) :
    (self.sendTo subId msg).Enqueued Q := by
  simp only [Broker.sendTo, SessionManager.sendByMqttId, SessionManager.sendByClientId]
  split
  · split
    · exact enqueued.send own
    · exact enqueued
  · exact enqueued

theorem sendAll {topic : String} {msg : ℕ → SubscribeOption → Publish} (enqueued : self.Enqueued Q)
    (own : ∀ place option, Q (.publish (msg place option))) : (self.sendAll topic msg).Enqueued Q := by
  unfold Broker.sendAll
  generalize (self.topics.subedId topic).zipIdx = subs
  induction subs generalizing self with
  | nil => exact enqueued
  | cons sub subs ih => exact ih (enqueued.sendTo (own _ _))

theorem runTask {draws : Draws} {task : Task} (enqueued : self.Enqueued Q)
    (own : ∀ msg, task.Copies msg → Q (.publish msg)) : (self.runTask draws task).Enqueued Q := by
  cases task with
  | deliver pubpacket =>
    unfold Broker.runTask
    apply sendAll
    · split <;> exact enqueued
    · exact fun place option => own _ (.live pubpacket option (draws place))
  | release publish packetId =>
    unfold Broker.runTask
    apply enqueued.sendAll
    exact fun place option => own _ (.released publish packetId option)

theorem background {event : Event} {next : Broker} (enqueued : self.Enqueued Q)
    (own : ∀ task ∈ self.tasks, ∀ msg, task.Copies msg → Q (.publish msg)) (step : self.Step event next)
    (background : Server.Background event) : next.Enqueued Q := by
  cases step with
  | @task task spawned draws =>
    have finished : (self.finish task).Enqueued Q := enqueued
    exact finished.runTask (own task spawned)
  | take clientId =>
    apply enqueued.onChannel
    rw [Channel.accepted_take]
    exact enqueued clientId
  | close clientId => exact enqueued.onChannel (enqueued clientId)
  | rehash sameTopics sameRetain => exact enqueued
  | _ => cases background

theorem accept (enqueued : self.Enqueued Q) (clientId : Uuid) : (self.accept clientId).Enqueued Q := by
  have fresh : (self.onChannel clientId fun _ => .new).Enqueued Q := by
    apply enqueued.onChannel
    rw [Channel.accepted_new]
    exact List.forall_mem_nil _
  exact fresh

end Enqueued

end Broker

/-- The packets a connection is about to offer. -/
def ConnectionState.outgoing {F CF : Type} : ConnectionState F CF → List ControlPacket
  | .responseConnect res => [.connack res.toConnack]
  | .writingPacket res => res.packets
  | _ => []

theorem mem_writePackets {packets : List ControlPacket} {place : ℕ} {channel : OutboundChannel}
    {packet : ControlPacket}
    (member : packet ∈
      (Connection.writePackets (fun _ => []) place packets channel).2.1.accepted) :
    packet ∈ channel.accepted ∨ packet ∈ packets := by
  induction place, packets, channel using Connection.writePackets.induct fun _ => [] with
  | case1 place channel => exact .inl member
  | case2 place p rest channel => exact .inl member
  | case3 place rest channel ih => exact (ih member).imp_right (List.mem_cons_of_mem _)
  | case4 place first rest channel not_disconnect not_noop found next sent ends final actions writes
      ih =>
    rw [Connection.writePackets.eq_4 _ _ _ _ _ not_disconnect not_noop, sent] at member
    rw [writes] at ih
    simp only [writes] at member
    rcases ih member with earlier | later
    · rw [Channel.accepted_trySend sent, List.mem_append, List.mem_singleton] at earlier
      rcases earlier with before | rfl
      · exact .inl before
      · exact .inr (List.mem_cons_self ..)
    · exact .inr (List.mem_cons_of_mem _ later)
  | case5 place first rest channel not_disconnect not_noop found message full ends final actions writes
      ih =>
    rw [Connection.writePackets.eq_4 _ _ _ _ _ not_disconnect not_noop, full] at member
    rw [writes] at ih
    simp only [found, writes] at member
    exact (ih member).imp_right (List.mem_cons_of_mem _)
  | case6 place first rest channel not_disconnect not_noop found message closed =>
    rw [Connection.writePackets.eq_4 _ _ _ _ _ not_disconnect not_noop, closed] at member
    exact .inl member

/-- A poll adds nothing to the channel but what the connection was about to offer. -/
theorem mem_poll_channel {F CF ε : Type} {build : Build} {services : Services F CF} {connection : Connection F CF}
    {channel : OutboundChannel} {input : PollInput ε} {polled : Connection.Polled ε F CF}
    (polls : Connection.Polls build services connection channel input polled)
    (alone : input.others = fun _ => []) {packet : ControlPacket}
    (member : packet ∈ polled.channel.accepted) :
    packet ∈ channel.accepted ∨ packet ∈ connection.state.outgoing := by
  cases polls with
  | announces state sent =>
    rw [state, ConnectionState.outgoing, List.mem_singleton]
    exact sent packet member
  | writes state wrote ends =>
    rw [alone] at wrote
    have stays := @mem_writePackets _ 0 channel packet (by rw [wrote]; exact member)
    rwa [state]
  | _ => exact .inl member

/-- What a connection is about to offer behind a poll: what it was about to offer before, the CONNACK for an accepted
CONNECT, or the answer of its service. -/
theorem Connection.Polls.outgoing {F CF ε : Type} {build : Build} {services : Services F CF}
    {connection : Connection F CF} {channel : OutboundChannel} {input : PollInput ε}
    {polled : Connection.Polled ε F CF}
    (polls : Connection.Polls build services connection channel input polled) {packet : ControlPacket}
    (member : packet ∈ polled.connection.state.outgoing) :
    packet ∈ connection.state.outgoing ∨
      (∃ res, input.connect = .ok (some res) ∧ packet = .connack res.toConnack) ∨
      ∃ res, input.service = .ok (some res) ∧ packet ∈ res.packets := by
  cases polls with
  | waits state decodes => exact .inl (state ▸ member)
  | fails idle ready state decodes =>
    rw [state] at member
    cases member
  | connects state next decodes version =>
    rw [next] at member
    cases member
  | refuses state other next decodes =>
    rw [next] at member
    cases member
  | @accepts fut res state resolved => exact .inr (.inl ⟨res, resolved, List.mem_singleton.mp member⟩)
  | reads state next decodes =>
    rw [next] at member
    cases member
  | answers state resolved => exact .inr (.inr ⟨_, resolved, member⟩)
  | writes state wrote ends => rcases ends with ⟨_, rfl, _⟩ | ⟨_, rfl, _⟩ <;> cases member
  | _ => cases member

end Aqua
