import Aqua.Proofs.Enqueued
import Aqua.Proofs.Workers

/-! # What a step of the pool keeps

Messages come into the pool through the handler of a PUBLISH, and leave it through the channels: as copies a
worker sends, or in the answer of a service. `Holds` says something of the messages on this way, of the
sends of the workers, and of the packets in the channels; `Feeds` is what has to be true of whatever a step
adds.
-/

namespace Aqua

open Wire Runtime

theorem mem_of_mem_written {packets : List ControlPacket} {packet : ControlPacket}
    (member : packet ∈ written packets) : packet ∈ packets := by
  induction packets using written.induct with
  | case1 => exact member
  | case2 p rest => exact absurd member List.not_mem_nil
  | case3 rest ih => exact List.mem_cons_of_mem _ (ih member)
  | case4 first rest not_disconnect not_noop ih =>
    rw [written.eq_4 _ _ not_disconnect not_noop] at member
    rcases List.mem_cons.mp member with rfl | later
    · exact List.mem_cons_self ..
    · exact List.mem_cons_of_mem _ (ih later)

/-- What a connection offers next behind a poll: what it was about to offer before, the CONNACK for an
accepted CONNECT, or the packets of a response. -/
theorem Connection.Polls.mem_offers {F CF ε : Type} {build : Build} {services : Services F CF}
    {connection : Connection F CF} {channel : OutboundChannel} {input : PollInput ε}
    {polled : Connection.Polled ε F CF}
    (polls : Connection.Polls build services connection channel input polled) {packet : ControlPacket}
    (member : packet ∈ polled.connection.offers) :
    packet ∈ connection.offers ∨
      (∃ res, input.connect = .ok (some res) ∧ packet = .connack res.toConnack) ∨
      ∃ res, input.service = .ok (some res) ∧ packet ∈ written res.packets := by
  unfold offers at member ⊢
  cases polls with
  | waits state decodes => exact .inl (state ▸ member)
  | fails idle ready state decodes =>
    rw [state] at member
    cases member
  | connects state next decodes version =>
    rw [next] at member
    cases member
  | refuses state other next decodes =>
    rw [next] at member
    cases member
  | @accepts fut res state resolved => exact .inr (.inl ⟨res, resolved, List.mem_singleton.mp member⟩)
  | reads state next decodes =>
    rw [next] at member
    cases member
  | answers state resolved => exact .inr (.inr ⟨_, resolved, member⟩)
  | writes state wrote ends => rcases ends with ⟨_, rfl, _⟩ | ⟨_, rfl, _⟩ <;> cases member
  | _ => cases member

/-- A send of a task: a copy of its message for one subscription that matches. -/
theorem Broker.mem_sendsOf {self : Broker} {draws : Draws} {task : Task} {send : String × Publish}
    (member : send ∈ self.sendsOf draws task) :
    task.Copies send.2 ∧ ∃ option, (send.1, option) ∈ self.topics.subedId task.message.topicName.value ∧
      send.2.qos = option.qos := by
  cases task with
  | deliver pubpacket =>
    obtain ⟨⟨⟨subId, option⟩, place⟩, among, rfl⟩ := List.mem_map.mp member
    exact ⟨.live pubpacket option (draws place), option, List.fst_mem_of_mem_zipIdx among, rfl⟩
  | release publish packetId =>
    obtain ⟨⟨⟨subId, option⟩, place⟩, among, rfl⟩ := List.mem_map.mp member
    exact ⟨.released publish packetId option, option, List.fst_mem_of_mem_zipIdx among, rfl⟩

/-- Everything a worker is about to send satisfies `S`. -/
def Worker.Sending (S : String → Publish → Prop) : Worker → Prop
  | .sending sends => ∀ send ∈ sends, S send.1 send.2
  | _ => True

namespace Pool

variable {build : Build} {self next : Pool} {event : Event} {P P' : Publish → Prop}
  {S S' : String → Publish → Prop} {Q Q' : Uuid → ControlPacket → Prop}

/-- `P` holds of the messages kept, `S` of the sends of the workers, and `Q` of the packets a connection has
in its channel or offers next. -/
structure Holds (P : Publish → Prop) (S : String → Publish → Prop) (Q : Uuid → ControlPacket → Prop)
    (pool : Pool) : Prop where
  messages : pool.server.broker.Keeps P
  workers : ∀ worker ∈ pool.workers, worker.Holds P ∧ worker.Sending S
  channels : ∀ clientId, ∀ packet ∈ (pool.server.broker.channels clientId).accepted, Q clientId packet
  offers : ∀ clientId, ∀ packet ∈ (pool.server.clients clientId).session.connection.offers, Q clientId packet

/-- What a step adds: the message of a PUBLISH that is handled, the sends of a task, a send that finds a
connection, a CONNACK, and the answer to a request. -/
structure Feeds (P : Publish → Prop) (S : String → Publish → Prop) (Q : Uuid → ControlPacket → Prop)
    (pool : Pool) : Prop where
  publish : ∀ clientId p, (pool.server.clients clientId).session.result = .ok none →
    (pool.server.clients clientId).session.connection.state = .processingService (.publish p) →
    p.payloadLength ≠ 0 → P (pool.server.broker.stamped (pool.server.clients clientId).mqttId p)
  sends : ∀ task draws, P task.message → ∀ send ∈ pool.server.broker.sendsOf draws task, S send.1 send.2
  send : ∀ subId msg clientId, S subId msg →
    pool.server.broker.session.byMqttId.get subId = some clientId → Q clientId (.publish msg)
  connack : ∀ clientId req res, (pool.server.clients clientId).session.result = .ok none →
    (pool.server.clients clientId).session.connection.state = .processingConnect req →
    (pool.server.broker.onConnect clientId (pool.server.clients clientId).mqttId req).1 = .ok res →
      Q clientId (.connack res.toConnack)
  answer : ∀ clientId req res, (pool.server.clients clientId).session.result = .ok none →
    (pool.server.clients clientId).session.connection.state = .processingService req →
    (pool.server.broker.handle (pool.server.clients clientId).mqttId req).1 = .ok res →
      ∀ packet ∈ written res.packets, Q clientId packet

namespace Holds

theorem new (P : Publish → Prop) (S : String → Publish → Prop) (Q : Uuid → ControlPacket → Prop) :
    Pool.new.Holds P S Q where
  messages := .new
  workers := List.forall_mem_nil _
  channels := fun _ => List.forall_mem_nil _
  offers := fun _ => List.forall_mem_nil _

/-- What holds of more packets. -/
theorem mono (holds : self.Holds P S Q) (messages : ∀ p, P p → P' p) (sends : ∀ subId msg, S subId msg → S' subId msg)
    (packets : ∀ clientId packet, Q clientId packet → Q' clientId packet) : self.Holds P' S' Q' where
  messages := ⟨fun key entry found => messages _ (holds.messages.staged key entry found),
    fun topic message found => messages _ (holds.messages.retained topic message found),
    fun task spawned => messages _ (holds.messages.tasks task spawned)⟩
  workers := by
    intro worker member
    obtain ⟨kept, sent⟩ := holds.workers worker member
    cases worker with
    | spawned task => exact ⟨messages _ kept, trivial⟩
    | retained task => exact ⟨messages _ kept, trivial⟩
    | sending rest => exact ⟨trivial, fun send among => sends _ _ (sent send among)⟩
  channels := fun clientId packet member => packets _ _ (holds.channels clientId packet member)
  offers := fun clientId packet member => packets _ _ (holds.offers clientId packet member)

/-- The handlers take in nothing but the message of a PUBLISH. -/
theorem resolve (holds : self.Holds P S Q) (feeds : self.Feeds P S Q) {clientId : Uuid}
    (goesOn : (self.server.clients clientId).session.result = .ok none) (read : SocketRead) (ready : Bool) :
    (self.server.resolve (self.server.clients clientId) clientId read ready).2.1.Keeps P := by
  obtain same | ⟨req, _, after⟩ | ⟨req, phase, after⟩ :=
    self.server.resolve_broker (self.server.clients clientId) clientId read ready
  · rw [same]
    exact holds.messages
  · rw [after]
    exact holds.messages.onConnect _ _ req
  · rw [after]
    apply holds.messages.handle
    rintro p rfl full
    exact feeds.publish clientId p goesOn phase full

theorem server {event : Server.Event} {next : Server} (holds : self.Holds P S Q) (feeds : self.Feeds P S Q)
    (step : self.server.Step build event next) :
    next.broker.Keeps P ∧
      ∀ clientId, ∀ packet ∈ (next.clients clientId).session.connection.offers, Q clientId packet := by
  cases step with
  | accept fresh =>
    refine ⟨holds.messages.accept _, ?_⟩
    apply Server.forall_update (P := fun clientId client => ∀ packet ∈ client.session.connection.offers,
      Q clientId packet)
    · exact List.forall_mem_nil _
    · exact holds.offers
  | @poll clientId live goesOn read ready =>
    have kept := holds.resolve feeds goesOn read ready
    have connect := @Server.resolve_connect self.server (self.server.clients clientId) clientId read ready
    have service := @Server.resolve_service self.server (self.server.clients clientId) clientId read ready
    cases given : self.server.resolve (self.server.clients clientId) clientId read ready with | mk input behind =>
    obtain ⟨broker, mqttId⟩ := behind
    rw [given] at kept connect service
    have polls := (self.server.clients clientId).session.connection.polls build Server.services
      (broker.channels clientId) input
    rw [Server.poll_eq given]
    refine ⟨kept.withChannels _, ?_⟩
    dsimp only
    apply Server.forall_update (P := fun clientId client => ∀ packet ∈ client.session.connection.offers,
      Q clientId packet)
    · intro packet member
      simp only [Session.poll, goesOn] at member
      rcases polls.mem_offers member with before | ⟨res, accepted, rfl⟩ | ⟨res, answers, among⟩
      · exact holds.offers clientId packet before
      · obtain ⟨req, phase, accepts, _⟩ := connect accepted
        exact feeds.connack clientId req res goesOn phase accepts
      · obtain ⟨req, phase, answered⟩ := service answers
        exact feeds.answer clientId req res goesOn phase answered packet among
    · exact holds.offers
  | background background step => exact ⟨holds.messages.background step background, holds.offers⟩

theorem work (holds : self.Holds P S Q) (feeds : self.Feeds P S Q) (place : ℕ) (draws : Broker.Draws) :
    ∀ worker ∈ (self.crew.work place draws).workers, worker.Sending S := by
  unfold Crew.work
  split
  · next worker there =>
    have known := holds.workers worker (List.mem_of_getElem? there)
    intro other member
    rcases List.mem_or_eq_of_mem_set member with before | rfl
    · exact (holds.workers other before).2
    · cases worker with
      | spawned task => exact trivial
      | retained task => exact feeds.sends task draws known.1
      | sending sends =>
        cases sends with
        | nil => exact known.2
        | cons send rest => exact fun later among => known.2 later (List.mem_cons_of_mem _ among)
  · exact fun worker member => (holds.workers worker member).2

/-- What comes in for a connection. -/
theorem incoming (holds : self.Holds P S Q) (feeds : self.Feeds P S Q) (event : Event) {clientId : Uuid}
    {packet : ControlPacket} (member : packet ∈ self.incoming event clientId) : Q clientId packet := by
  unfold Pool.incoming at member
  split at member
  · next polled read ready =>
    split at member
    · exact holds.offers clientId packet member
    · cases member
  · next place draws =>
    obtain ⟨msg, bound, rfl⟩ := List.mem_map.mp member
    obtain ⟨subId, next, known⟩ := Crew.bound?_eq_some_iff.mp (Option.mem_toList.mp bound)
    refine feeds.send subId msg clientId ?_ known
    unfold Crew.next? at next
    split at next
    · next send rest there =>
      cases next
      exact (holds.workers _ (List.mem_of_getElem? there)).2 _ (List.mem_cons_self ..)
    · cases next
  · cases member

/-- The rule for steps. -/
theorem step (holds : self.Holds P S Q) (feeds : self.Feeds P S Q) (sound : self.Sound build)
    (step : self.Step build event next) : next.Holds P S Q := by
  have channels : ∀ clientId, ∀ packet ∈ (next.server.broker.channels clientId).accepted, Q clientId packet := by
    intro clientId packet member
    rw [step.accepted sound, List.mem_append] at member
    rcases member with before | came
    · exact holds.channels clientId packet before
    · exact holds.incoming feeds event (List.mem_of_mem_take came)
  cases step with
  | @server event server noTask step =>
    obtain ⟨messages, offers⟩ := holds.server feeds step
    have hired := @Crew.hire_holds ⟨server.broker, self.workers⟩ _ messages fun worker member =>
      (holds.workers worker member).1
    refine ⟨hired.1, fun worker member => ⟨hired.2 worker member, ?_⟩, channels, offers⟩
    rcases List.mem_append.mp member with before | spawned
    · exact (holds.workers worker before).2
    · obtain ⟨task, _, rfl⟩ := List.mem_map.mp spawned
      exact trivial
  | work place draws =>
    have worked := self.crew.work_holds holds.messages (fun worker member => (holds.workers worker member).1)
      place draws
    exact ⟨worked.1, fun worker member => ⟨worked.2 worker member, holds.work feeds place draws worker member⟩,
      channels, holds.offers⟩

end Holds

/-- The rule for runs: in every reachable pool, a step adds only what may be added. -/
theorem Reachable.holds (reachable : self.Reachable build)
    (feeds : ∀ pool : Pool, pool.Reachable build → pool.Holds P S Q → pool.Feeds P S Q) : self.Holds P S Q := by
  obtain ⟨events, run⟩ := reachable
  induction run with
  | nil => exact .new P S Q
  | snoc earlier step ih =>
    have reachable : Pool.Reachable build _ := ⟨_, earlier⟩
    exact ih.step (feeds _ reachable ih) reachable.sound step

end Pool

end Aqua
