import Aqua.Proofs.Clients
import Aqua.Soundness.RetainedOnSubscribe
import Aqua.Soundness.StoredMessages
import Aqua.Soundness.Subscriptions

/-! # Where the messages of a channel come from

The broker makes up no message and sends none that was not asked for. Every PUBLISH in a channel is one that
some client has published, under the QoS of a subscription that this connection or another one with the same
client id has asked for; or it is a retained message for a filter of the connection's own SUBSCRIBE.
-/

namespace Aqua

open Wire Runtime

namespace Pool

/-- A client has published this message, with a payload; only the version is the broker's. -/
def Published (self : Pool) (message : Publish) : Prop :=
  ∃ clientId p, (self.server.clients clientId).Received (.publish p) ∧ p.payloadLength ≠ 0 ∧
    message = { p with protocolVersion := message.protocolVersion }

/-- A client of this name has subscribed, with this option, to a filter that matches the topic. -/
def Subscribed (self : Pool) (name topic : String) (option : SubscribeOption) : Prop :=
  ∃ clientId sub filter, (self.server.clients clientId).Received (.subscribe sub) ∧
    (self.server.clients clientId).Named name ∧ name ≠ "" ∧ (filter, option) ∈ sub.topicFilters ∧
    Matches filter.value topic

/-- A copy of a published message for a subscription of the name; its QoS is that of the subscription. -/
def Requested (self : Pool) (name : String) (msg : Publish) : Prop :=
  ∃ message option packetId, self.Published message ∧ self.Subscribed name message.topicName.value option ∧
    msg = { message with qos := option.qos, packetId }

/-- A retained message for a filter the connection has subscribed to. -/
def Replayed (self : Pool) (clientId : Uuid) (msg : Publish) : Prop :=
  self.Published msg ∧ msg.retain.value = true ∧ ∃ sub, ∃ filter ∈ sub.topicFilters,
    (self.server.clients clientId).Received (.subscribe sub) ∧ Matches filter.1.value msg.topicName.value

/-- A message of the channel was asked for, if it is one. -/
def Accounted (self : Pool) (clientId : Uuid) (packet : ControlPacket) : Prop :=
  ∀ msg, packet = .publish msg →
    (∃ name, (self.server.clients clientId).Named name ∧ self.Requested name msg) ∨ self.Replayed clientId msg

/-- Every entry of the table of subscriptions was asked for. -/
def Listed (self : Pool) : Prop :=
  ∀ filter name option, (name, option) ∈ self.server.broker.topics.subscribers filter →
    ∃ clientId sub topicFilter, (self.server.clients clientId).Received (.subscribe sub) ∧
      (self.server.clients clientId).Named name ∧ name ≠ "" ∧ (topicFilter, option) ∈ sub.topicFilters ∧
      topicFilter.value = filter

/-- Whatever the clients have done in one pool, they have done in the other. -/
def Continues (self next : Pool) : Prop :=
  ∀ clientId, (self.server.clients clientId).Continues (next.server.clients clientId)

variable {build : Build} {self next : Pool} {event : Event}

private theorem Published.mono {message : Publish} (published : self.Published message)
    (continues : self.Continues next) :
    next.Published message := by
  obtain ⟨clientId, p, received, full, same⟩ := published
  exact ⟨clientId, p, received.mono (continues clientId), full, same⟩

private theorem Subscribed.mono {name topic : String} {option : SubscribeOption}
    (subscribed : self.Subscribed name topic option) (continues : self.Continues next) :
    next.Subscribed name topic option := by
  obtain ⟨clientId, sub, filter, received, named, rest⟩ := subscribed
  exact ⟨clientId, sub, filter, received.mono (continues clientId), named.mono (continues clientId), rest⟩

private theorem Requested.mono {name : String} {msg : Publish} (requested : self.Requested name msg)
    (continues : self.Continues next) : next.Requested name msg := by
  obtain ⟨message, option, packetId, published, subscribed, same⟩ := requested
  exact ⟨message, option, packetId, published.mono continues, subscribed.mono continues, same⟩

private theorem Accounted.mono {clientId : Uuid} {packet : ControlPacket} (accounted : self.Accounted clientId packet)
    (continues : self.Continues next) : next.Accounted clientId packet := by
  intro msg same
  rcases accounted msg same with ⟨name, named, requested⟩ | ⟨published, retain, sub, filter, listed, received, matched⟩
  · exact .inl ⟨name, named.mono (continues clientId), requested.mono continues⟩
  · exact .inr ⟨published.mono continues, retain, sub, filter, listed, received.mono (continues clientId), matched⟩

private theorem Listed.mono (listed : self.Listed) (continues : self.Continues next)
    (same : ∀ filter, next.server.broker.topics.subscribers filter = self.server.broker.topics.subscribers filter) :
    next.Listed := by
  intro filter name option member
  rw [same] at member
  obtain ⟨clientId, sub, topicFilter, received, named, rest⟩ := listed filter name option member
  exact ⟨clientId, sub, topicFilter, received.mono (continues clientId), named.mono (continues clientId), rest⟩

/-- A step leaves the table alone, or handles a SUBSCRIBE. -/
theorem Step.subscribers (step : self.Step build event next) :
    (∀ filter, next.server.broker.topics.subscribers filter = self.server.broker.topics.subscribers filter) ∨
      ∃ clientId sub, (self.server.clients clientId).session.result = .ok none ∧
        (self.server.clients clientId).session.connection.state = .processingService (.subscribe sub) ∧
        (self.server.clients clientId).mqttId ≠ "" ∧
        next.server.broker.topics = sub.topicFilters.foldl (fun topics filter =>
          topics.register filter.1.value (self.server.clients clientId).mqttId filter.2)
            self.server.broker.topics := by
  have unchanged : ∀ {topics : TopicManager}, topics = self.server.broker.topics → ∀ filter,
      topics.subscribers filter = self.server.broker.topics.subscribers filter := by
    rintro topics rfl filter
    rfl
  cases step with
  | server noTask step =>
    cases step with
    | accept fresh => exact .inl (unchanged rfl)
    | @poll clientId live goesOn read ready =>
      change (∀ filter, (self.server.resolve (self.server.clients clientId) clientId read ready).2.1.topics.subscribers
        filter = _) ∨ _
      obtain same | ⟨req, _, after⟩ | ⟨req, phase, after⟩ :=
        self.server.resolve_broker (self.server.clients clientId) clientId read ready
      · exact .inl (unchanged (by rw [same]))
      · refine .inl (unchanged ?_)
        rw [after]
        cases req with
        | connect p =>
          simp only [Broker.onConnect]
          split <;> rfl
        | _ => rfl
      · have table := self.server.broker.handle_topics (self.server.clients clientId).mqttId req
        rw [← after] at table
        cases req with
        | subscribe sub =>
          by_cases named : (self.server.clients clientId).mqttId ≠ ""
          · exact .inr ⟨clientId, sub, goesOn, phase, named, table.trans (if_pos named)⟩
          · exact .inl (unchanged (table.trans (if_neg named)))
        | _ => exact .inl (unchanged table)
    | background background step =>
      cases step with
      | task spawned draws => cases noTask
      | rehash sameTopics sameRetain =>
        refine .inl fun filter => ?_
        exact congrArg (Option.getD · []) (sameTopics.get_eq filter)
      | take clientId => exact .inl (unchanged rfl)
      | close clientId => exact .inl (unchanged rfl)
      | _ => cases background
  | work place draws => exact .inl (unchanged (self.crew.work_topics place draws))

private theorem Reachable.continuesAll (reachable : self.Reachable build) (step : self.Step build event next) :
    self.Continues next := reachable.continues step

private theorem Reachable.listed (reachable : self.Reachable build) : self.Listed := by
  obtain ⟨events, run⟩ := reachable
  induction run with
  | nil => exact fun filter name option wrong => by cases wrong
  | @snoc events event before next earlier step ih =>
    have reachable : before.Reachable build := ⟨events, earlier⟩
    have continues := reachable.continuesAll step
    obtain same | ⟨clientId, sub, goesOn, phase, filled, table⟩ := step.subscribers
    · exact ih.mono continues same
    · intro filter name option member
      rw [table, ← TopicManager.mem_options, TopicManager.options_registerAll, List.mem_append,
        TopicManager.mem_options] at member
      rcases member with old | new
      · obtain ⟨own, sub', topicFilter, received, named, rest⟩ := ih filter name option old
        exact ⟨own, sub', topicFilter, received.mono (continues own), named.mono (continues own), rest⟩
      · split at new
        · next same =>
          obtain ⟨received, named⟩ := (reachable.known clientId).processing goesOn phase
          obtain ⟨⟨topicFilter, own⟩, among, rfl⟩ := List.mem_map.mp new
          obtain ⟨among, spelled⟩ := List.mem_filter.mp among
          exact ⟨clientId, sub, topicFilter, received.mono (continues clientId),
            same ▸ named.mono (continues clientId), same ▸ filled, among, of_decide_eq_true spelled⟩
        · cases new

end Pool

/-- A copy is the message under another QoS and another identifier. -/
theorem Task.Copies.eq {task : Task} {msg : Publish} (copies : task.Copies msg) :
    msg = { task.message with qos := msg.qos, packetId := msg.packetId } := by
  cases copies <;> rfl

/-- A service answers with a message only where it handles a SUBSCRIBE. -/
theorem Broker.mem_answer {self : Broker} {mqttId : String} {packet : ControlPacket} {res : Response}
    {msg : Publish} (answers : (self.handle mqttId packet).1 = .ok res) (member : .publish msg ∈ res.packets) :
    ∃ sub, packet = .subscribe sub ∧ msg ∈ (self.collectRetained sub.topicFilters).packets := by
  have single : ∀ {other : ControlPacket}, .ok (Response.new other) = (.ok res : Result Response) →
      other = .publish msg := by
    intro other same
    cases same
    exact (List.mem_singleton.mp member).symm
  cases packet with
  | connect p => cases answers
  | publish p =>
    simp only [Broker.handle, Broker.onPublish] at answers
    split at answers
    · cases answers
    · cases answers
    · cases single answers
    · split at answers
      · cases single answers
      · cases single answers
  | subscribe p =>
    simp only [Broker.handle, Broker.onSubscribe] at answers
    split at answers
    · cases answers
      rcases List.mem_cons.mp member with wrong | among
      · cases wrong
      · obtain ⟨_, kept, same⟩ := List.mem_map.mp among
        cases same
        exact ⟨p, rfl, kept⟩
    · cases answers
  | _ => cases single answers

namespace Pool

variable {build : Build} {self next : Pool} {event : Event}

/-- What a step adds was published, and asked for. -/
theorem Reachable.feeds (reachable : self.Reachable build) (continues : self.Continues next) :
    self.Holds next.Published next.Requested next.Accounted →
      self.Feeds next.Published next.Requested next.Accounted := by
  intro holds
  refine ⟨?_, ?_, ?_, ?_, ?_⟩
  · intro clientId p goesOn phase full
    obtain ⟨received, _⟩ := (reachable.known clientId).processing goesOn phase
    exact ⟨clientId, p, received.mono (continues clientId), full, rfl⟩
  · intro task draws published send member
    obtain ⟨copies, option, listed, qos⟩ := Broker.mem_sendsOf member
    obtain ⟨filter, matched, subscriber⟩ := TopicManager.mem_subedId listed
    obtain ⟨clientId, sub, topicFilter, received, named, filled, among, rfl⟩ :=
      reachable.listed filter send.1 option subscriber
    have subscribed : self.Subscribed send.1 task.message.topicName.value option :=
      ⟨clientId, sub, topicFilter, received, named, filled, among, (isMatch_iff _ _).mp matched⟩
    exact ⟨task.message, option, send.2.packetId, published, subscribed.mono continues, qos ▸ copies.eq⟩
  · intro subId msg clientId requested registered other same
    cases same
    exact .inl ⟨subId, (reachable.named registered).mono (continues clientId), requested⟩
  · intro clientId req res _ _ _ msg wrong
    cases wrong
  · intro clientId req res goesOn phase answers packet member msg same
    subst same
    obtain ⟨sub, rfl, collected⟩ := Broker.mem_answer answers (mem_of_mem_written member)
    obtain ⟨received, _⟩ := (reachable.known clientId).processing goesOn phase
    have keyed : self.server.broker.retain.Keyed := fun topic p found => (reachable.filed.retained topic p found).1
    obtain ⟨_, only⟩ := self.server.broker.collectRetained_selects keyed sub.topicFilters
    obtain ⟨topic, kept, filter, listed, matched⟩ := only msg collected
    obtain ⟨rfl, retain⟩ := reachable.filed.retained topic msg kept
    exact .inr ⟨holds.messages.retained _ _ kept, retain, sub, filter, listed, received.mono (continues clientId),
      matched⟩

theorem Reachable.accounted (reachable : self.Reachable build) :
    self.Holds self.Published self.Requested self.Accounted := by
  obtain ⟨events, run⟩ := reachable
  induction run with
  | nil => exact .new _ _ _
  | @snoc events event before next earlier step ih =>
    have reachable : before.Reachable build := ⟨events, earlier⟩
    have continues := reachable.continuesAll step
    have holds : before.Holds next.Published next.Requested next.Accounted :=
      ih.mono (fun _ published => published.mono continues) (fun _ _ requested => requested.mono continues)
        fun _ _ accounted => accounted.mono continues
    exact holds.step (reachable.feeds continues holds) reachable.sound step

end Pool

/-- In every reachable pool, every message a channel has accepted was published by some client, and is a copy
for a subscription of this name or a retained message for a filter of this connection. -/
theorem delivered_messages {build : Build} {pool : Pool} (reachable : pool.Reachable build) (clientId : Uuid)
    (msg : Publish) (accepted : .publish msg ∈ (pool.server.broker.channels clientId).accepted) :
    (∃ name, (pool.server.clients clientId).Named name ∧ pool.Requested name msg) ∨ pool.Replayed clientId msg :=
  reachable.accounted.channels clientId _ accepted msg rfl

/-- The message that was sent back. -/
def echo : Publish where
  qos := .qos1
  topicName := ⟨"t"⟩
  packetId := some ⟨0⟩
  payloadLength := 1
  payloadData := [0x68]
  protocolVersion := ⟨4⟩

/-- It is behind the CONNACK and the SUBACK. -/
theorem echo_accepted :
    .publish echo ∈ ((Pool.echoing.work 0 Pool.leastDraws).server.broker.channels ⟨0⟩).accepted := by
  have channel : ((Pool.echoing.work 0 Pool.leastDraws).server.broker.channels ⟨0⟩).accepted =
      [.connack { version := ⟨4⟩ }, .suback {
        packetId := ⟨1⟩, reasonCodes := [.grantedQos1], protocolVersion := ⟨4⟩ }, .publish echo] := rfl
  rw [channel]
  exact .tail _ (.tail _ (.head _))

theorem delivered_messages_echo :
    (∃ name, ((Pool.echoing.work 0 Pool.leastDraws).server.clients ⟨0⟩).Named name ∧
      (Pool.echoing.work 0 Pool.leastDraws).Requested name echo) ∨
        (Pool.echoing.work 0 Pool.leastDraws).Replayed ⟨0⟩ echo :=
  delivered_messages (Pool.echoing_reachable.step (.work 0 Pool.leastDraws)) ⟨0⟩ echo echo_accepted

end Aqua
