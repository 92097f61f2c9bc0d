import Aqua.Soundness.ControlPackets
import Aqua.Soundness.Provenance

/-! # Packet identifiers of messages in flight

The broker takes the packet identifier of a message it sends over from the publisher, from its PUBREL or
from what is retained, or draws it; it never asks which identifiers the receiving connection has in use. They
are usable as long as each one happens to be.
-/

namespace Aqua

open Wire Runtime

/-- A message that the client has to acknowledge. -/
def ControlPacket.handshake? : ControlPacket → Option Publish
  | .publish p => if p.qos = .qos0 then none else some p
  | _ => none

/-- A QoS 1 message is acknowledged by its PUBACK, a QoS 2 message by its PUBCOMP. -/
def Action.acknowledges (p : Publish) : Action → Bool
  | .received (.puback packet) => p.qos = .qos1 ∧ p.packetId = some packet.packetId
  | .received (.pubcomp packet) => p.qos = .qos2 ∧ p.packetId = some packet.packetId
  | _ => false

/-- What a copy is made from: the message of a task, the subscription it is for, and a draw. -/
structure Source where
  task : Task
  name : String
  option : SubscribeOption
  draw : Fin 1001

/-- Where the identifier of a copy comes from: the publisher, the draw if there is none, or the PUBREL that has
released the message. -/
def Source.id (self : Source) : PacketId :=
  match self.task with
  | .deliver pubpacket => pubpacket.packetId.getD ⟨UInt16.ofNat self.draw⟩
  | .release _ packetId => packetId

namespace Broker

/-- What a task makes its copies from, one for each subscriber of the topic. -/
def sources (self : Broker) (draws : Draws) (task : Task) : List Source :=
  (self.topics.subedId task.message.topicName.value).zipIdx.map fun sub => ⟨task, sub.1.1, sub.1.2, draws sub.2⟩

/-- The first message of each topic. -/
def firsts : List Publish → List Publish
  | [] => []
  | p :: rest => p :: (firsts rest).filter fun q => q.topicName ≠ p.topicName

/-- The retained messages a request finds. -/
def retainedMatches (self : Broker) : ControlPacket → List Publish
  | .subscribe p => firsts (p.topicFilters.flatMap fun filter => self.retain.checkRetain filter.1.value)
  | _ => []

end Broker

/-- The pool, with the messages of every connection that are enqueued and not yet acknowledged, what the worker at
each place makes its next copies from, and the retained messages the last request of each connection has found. -/
structure Ledger where
  pool : Pool
  unacknowledged : Uuid → List Publish := fun _ => []
  sources : ℕ → List Source := fun _ => []
  recalled : Uuid → List Publish := fun _ => []

namespace Ledger

def new : Ledger := { pool := .new }

/-- What a connection has done since. -/
def newActions (self : Ledger) (pool : Pool) (clientId : Uuid) : List Action :=
  (pool.server.clients clientId).session.trace.drop
    (self.pool.server.clients clientId).session.trace.length

/-- What its channel has accepted since. -/
def newPackets (self : Ledger) (pool : Pool) (clientId : Uuid) : List ControlPacket :=
  (pool.server.broker.channels clientId).accepted.drop
    (self.pool.server.broker.channels clientId).accepted.length

/-- A worker looks its subscribers up, or sends a copy. -/
def sourcesBehind (self : Ledger) (event : Pool.Event) (place : ℕ) : List Source :=
  match event with
  | .work worked draws =>
      if place = worked then
        match self.pool.workers[place]? with
        | some (.retained task) => self.pool.server.broker.sources draws task
        | _ => (self.sources place).tail
      else self.sources place
  | .server _ => self.sources place

/-- A request is handled. -/
def recalledBehind (self : Ledger) (event : Pool.Event) (clientId : Uuid) : List Publish :=
  match event with
  | .server (.poll polled _ true) =>
      if clientId = polled then
        match (self.pool.server.clients clientId).session.connection.state with
        | .processingService req => self.pool.server.broker.retainedMatches req
        | _ => self.recalled clientId
      else self.recalled clientId
  | _ => self.recalled clientId

/-- What was not acknowledged meanwhile, and what was enqueued. -/
def enter (self : Ledger) (event : Pool.Event) (pool : Pool) : Ledger where
  pool
  unacknowledged clientId :=
    (self.unacknowledged clientId).filter
      (fun p => !(self.newActions pool clientId).any (Action.acknowledges p)) ++
    (self.newPackets pool clientId).filterMap ControlPacket.handshake?
  sources := self.sourcesBehind event
  recalled := self.recalledBehind event

def Step (build : Build) (self : Ledger) (event : Pool.Event) (next : Ledger) : Prop :=
  self.pool.Step build event next.pool ∧ next = self.enter event next.pool

end Ledger

/-- The packet identifiers are not zero, and no two are the same. -/
structure UsableIds (ids : List (Option PacketId)) : Prop where
  nonzero : ∀ id ∈ ids, ∃ packetId, id = some packetId ∧ packetId.value ≠ 0
  distinct : ids.Nodup

namespace Ledger

end Ledger

private theorem UsableIds.sublist {ids kept : List (Option PacketId)} (usable : UsableIds ids)
    (fewer : kept.Sublist ids) :
    UsableIds kept where
  nonzero := fun id member => usable.nonzero id (fewer.subset member)
  distinct := usable.distinct.sublist fewer

namespace Source

/-- The copy, with the MQTT id it goes to. -/
def send (self : Source) : String × Publish :=
  (self.name, match self.task with
    | .deliver pubpacket => Broker.deliveryMsg pubpacket self.option self.draw
    | .release publish packetId => Broker.releaseMsg publish packetId self.option)

end Source

/-- What a worker has still to send. -/
def Worker.sends : Worker → Sends
  | .sending sends => sends
  | _ => []

namespace Broker

private theorem sendsOf_eq (self : Broker) (draws : Draws) (task : Task) :
    self.sendsOf draws task = (self.sources draws task).map Source.send := by
  rw [sources, List.map_map]
  cases task <;> rfl

/-- The loop over the retained messages collects the first one of each topic. -/
private theorem Collected.packets_eq (visited : List Publish) (collected : Collected) :
    (visited.foldl Collected.add collected).packets =
      collected.packets ++ (firsts visited).filter fun p => p.topicName ∉ collected.topics := by
  induction visited generalizing collected with
  | nil => exact (List.append_nil _).symm
  | cons p rest ih =>
    have first : firsts (p :: rest) = p :: (firsts rest).filter fun q => q.topicName ≠ p.topicName := rfl
    rw [List.foldl_cons, ih, first]
    unfold Collected.add
    by_cases known : p.topicName ∈ collected.topics
    · rw [if_pos known, List.filter_cons_of_neg (by simpa using known), List.filter_filter]
      congr 1
      refine List.filter_congr fun q _ => ?_
      have other : q.topicName ∉ collected.topics → q.topicName ≠ p.topicName :=
        fun fresh same => fresh (same ▸ known)
      by_cases fresh : q.topicName ∈ collected.topics
      · simp [fresh]
      · simp [fresh, other fresh]
    · rw [if_neg known, List.filter_cons_of_pos (by simpa using known), List.filter_filter, List.append_assoc]
      refine congrArg (fun found => collected.packets ++ p :: found) (List.filter_congr fun q _ => ?_)
      simp only [List.mem_append, List.mem_singleton, not_or, Bool.decide_and, ne_eq]

/-- What a SUBSCRIBE collects is what it is to find. -/
private theorem collectRetained_packets (self : Broker) (p : Subscribe) :
    (self.collectRetained p.topicFilters).packets = self.retainedMatches (.subscribe p) := by
  rw [collectRetained, Collected.packets_eq]
  simp [retainedMatches]

private theorem filterMap_handshake? (messages : List Publish) :
    (messages.map ControlPacket.publish).filterMap ControlPacket.handshake? =
      messages.filter fun p => p.qos ≠ .qos0 := by
  induction messages with
  | nil => rfl
  | cons p messages ih =>
    rw [List.map_cons, List.filterMap_cons, List.filter_cons, ih, ControlPacket.handshake?]
    by_cases zero : p.qos = .qos0
    · rw [if_pos zero, if_neg (by simp [zero])]
    · rw [if_neg zero, if_pos (by simp [zero])]

/-- Of an answer, what has to be acknowledged are the retained messages a request finds, behind one packet. -/
private theorem answer_handshakes {self : Broker} {mqttId : String} {req : ControlPacket} {res : Response}
    (answers : (self.handle mqttId req).1 = .ok res) (room : ℕ) :
    ((written res.packets).take room).filterMap ControlPacket.handshake? =
      ((self.retainedMatches req).take (room - 1)).filter fun p => p.qos ≠ .qos0 := by
  have silent : self.retainedMatches req = [] → (∀ p, .publish p ∉ res.packets) →
      ((written res.packets).take room).filterMap ControlPacket.handshake? =
        ((self.retainedMatches req).take (room - 1)).filter fun p => p.qos ≠ .qos0 := by
    intro nothing none
    rw [nothing, List.take_nil, List.filter_nil, List.filterMap_eq_nil_iff]
    intro packet member
    have among := mem_of_mem_written (List.mem_of_mem_take member)
    cases packet with
    | publish p => exact absurd among (none p)
    | _ => rfl
  cases req with
  | subscribe p =>
    cases known : self.session.getProtocolVersion mqttId with
    | none =>
      simp only [handle, onSubscribe, known] at answers
      cases answers
    | some version =>
      cases (self.subscribe_answer known p).symm.trans answers
      rw [written.eq_4 _ _ (fun _ wrong => by cases wrong) (fun wrong => by cases wrong), written_publishes,
        collectRetained_packets]
      cases room with
      | zero => rfl
      | succ room =>
        rw [List.take_succ_cons, Nat.add_sub_cancel, ← List.map_take, List.filterMap_cons]
        exact filterMap_handshake? _
  | _ =>
    refine silent rfl fun p member => ?_
    obtain ⟨sub, wrong, _⟩ := mem_answer answers member
    cases wrong

end Broker

/-- A poll that offers packets reads none. -/
private theorem Connection.Polls.not_received {F CF ε : Type} {build : Build} {services : Services F CF}
    {self : Connection F CF} {channel : OutboundChannel} {input : PollInput ε}
    {polled : Connection.Polled ε F CF} (polls : Connection.Polls build services self channel input polled)
    (offers : self.offers ≠ []) {action : Action} (member : action ∈ polled.actions)
    (packet : ControlPacket) : action ≠ .received packet := by
  cases polls with
  | waits state decodes => cases member
  | fails idle ready state decodes => cases member
  | connects state next decodes version => rw [Connection.offers, state] at offers; exact absurd rfl offers
  | refuses state other next decodes => rw [Connection.offers, state] at offers; exact absurd rfl offers
  | accepts state resolved =>
    rw [List.mem_singleton.mp member]
    rintro ⟨⟩
  | announces state sent =>
    rw [List.mem_singleton.mp member]
    rintro ⟨⟩
  | closed state gone =>
    rw [List.mem_singleton.mp member]
    rintro ⟨⟩
  | reads state next decodes => rw [Connection.offers, state] at offers; exact absurd rfl offers
  | answers state resolved =>
    rw [List.mem_singleton.mp member]
    rintro ⟨⟩
  | @writes res written final actions next result state wrote ends =>
    obtain ⟨made, _, offered, _⟩ := writePackets_offers input.others res.packets 0 channel
    rw [wrote] at offered
    obtain rfl : actions = made.actions := offered
    obtain ⟨_, _, rfl⟩ := mem_offers_actions member
    rintro ⟨⟩

/-- What a connection is about to write is what it was about to write before, or its service has just answered. -/
private theorem Connection.Polls.writing {F CF ε : Type} {build : Build} {services : Services F CF}
    {self : Connection F CF} {channel : OutboundChannel} {input : PollInput ε}
    {polled : Connection.Polled ε F CF} (polls : Connection.Polls build services self channel input polled)
    {res : Response} (writes : polled.connection.state = .writingPacket res) :
    self.state = .writingPacket res ∨ input.service = .ok (some res) := by
  cases polls with
  | waits state decodes => exact .inl (state.symm.trans writes)
  | fails idle ready state decodes => cases state.symm.trans writes
  | connects state next decodes version => cases next.symm.trans writes
  | refuses state other next decodes => cases next.symm.trans writes
  | reads state next decodes => cases next.symm.trans writes
  | answers state resolved =>
    cases writes
    exact .inr resolved
  | writes state wrote ends => rcases ends with ⟨_, rfl, _⟩ | ⟨_, rfl, _⟩ <;> cases writes
  | _ => cases writes

namespace Ledger

variable {build : Build} {self next : Ledger} {event : Pool.Event} {clientId : Uuid}

/-- A step that offers packets to a channel takes none from its connection. -/
private theorem newActions_not_received {pool : Pool} (step : self.pool.Step build event pool)
    (comes : self.pool.incoming event clientId ≠ []) {action : Action}
    (member : action ∈ self.newActions pool clientId) (packet : ControlPacket) :
    action ≠ .received packet := by
  unfold newActions at member
  cases step with
  | server noTask step =>
    cases step with
    | accept fresh => exact absurd rfl comes
    | @poll polled live goesOn read ready =>
      by_cases own : clientId = polled
      · subst own
        have offers : (self.pool.server.clients clientId).session.connection.offers ≠ [] := by
          simpa only [Pool.incoming, if_true] using comes
        cases given : self.pool.server.resolve (self.pool.server.clients clientId) clientId read ready with
        | mk input behind =>
        change action ∈ ((self.pool.server.poll build clientId read
          ready).clients clientId).session.trace.drop _ at member
        rw [Server.poll_eq given] at member
        simp only [Function.update_self, Session.poll, goesOn, List.drop_left] at member
        have polls := (self.pool.server.clients clientId).session.connection.polls build Server.services
          (behind.1.channels clientId) input
        exact polls.not_received offers member packet
      · simp only [Pool.incoming, if_neg own] at comes
        exact absurd rfl comes
    | background background step => exact absurd rfl comes
  | work place draws =>
    change action ∈ (self.pool.server.clients clientId).session.trace.drop
      (self.pool.server.clients clientId).session.trace.length at member
    rw [List.drop_length] at member
    cases member

/-- The messages a step is about to enqueue, if they have to be acknowledged. -/
def due (self : Ledger) (event : Pool.Event) (clientId : Uuid) : List Publish :=
  ((self.pool.incoming event clientId).take
    (self.pool.server.broker.channels clientId).room).filterMap ControlPacket.handshake?

/-- A step adds the messages that are due, and in a step that adds any none is acknowledged. -/
theorem Step.unacknowledged (step : self.Step build event next) (sound : self.pool.Sound build)
    (clientId : Uuid) : ∃ kept : List Publish, kept.Sublist (self.unacknowledged clientId) ∧
      (self.due event clientId ≠ [] → kept = self.unacknowledged clientId) ∧
      next.unacknowledged clientId = kept ++ self.due event clientId := by
  obtain ⟨step, entered⟩ := step
  have packets : self.newPackets next.pool clientId =
      (self.pool.incoming event clientId).take (self.pool.server.broker.channels clientId).room := by
    rw [newPackets, step.accepted sound, List.drop_left]
  have after : next.unacknowledged clientId = (self.unacknowledged clientId).filter
      (fun p => !(self.newActions next.pool clientId).any (Action.acknowledges p)) ++
        self.due event clientId := by
    rw [due, ← packets]
    exact congrFun (congrArg Ledger.unacknowledged entered) clientId
  refine ⟨_, List.filter_sublist, fun comes => ?_, after⟩
  · rw [List.filter_eq_self]
    intro p _
    rw [Bool.not_eq_true', List.any_eq_false]
    intro action member acknowledges
    have incoming : self.pool.incoming event clientId ≠ [] := by
      intro nothing
      apply comes
      rw [due, nothing, List.take_nil, List.filterMap_nil]
    have silent := self.newActions_not_received step incoming member
    cases action with
    | received packet => exact silent packet rfl
    | _ => cases acknowledges

/-- The sends of a worker are made from its sources, and an answer from what its request has found. -/
structure Traced (ledger : Ledger) : Prop where
  sources : ∀ place,
    (ledger.pool.workers[place]?.map Worker.sends).getD [] = (ledger.sources place).map Source.send
  recalled : ∀ clientId res,
    (ledger.pool.server.clients clientId).session.connection.state = .writingPacket res →
    ∀ room, ((written res.packets).take room).filterMap ControlPacket.handshake? =
      ((ledger.recalled clientId).take (room - 1)).filter fun p => p.qos ≠ .qos0

private theorem Traced.new : Traced .new where
  sources := fun place => rfl
  recalled := fun clientId res wrong => by cases wrong

/-- The tasks of a server that has gone on have not looked their subscribers up. -/
private theorem sends_enter (pool : Pool) (server : Server) (place : ℕ) :
    ((pool.enter server).workers[place]?.map Worker.sends).getD [] =
      (pool.workers[place]?.map Worker.sends).getD [] := by
  have workers : (pool.enter server).workers = pool.workers ++ server.broker.tasks.map Worker.spawned := rfl
  rw [workers, List.getElem?_append]
  split
  · rfl
  · next beyond =>
    rw [List.getElem?_eq_none (Nat.le_of_not_lt beyond), List.getElem?_map]
    cases server.broker.tasks[place - pool.workers.length]? <;> rfl

/-- Behind an operation a worker has to send what its sources say. -/
theorem Traced.sends_work (traced : self.Traced) (worked : ℕ) (draws : Broker.Draws) (place : ℕ) :
    ((self.pool.work worked draws).workers[place]?.map Worker.sends).getD [] =
      (self.sourcesBehind (.work worked draws) place).map Source.send := by
  have before := traced.sources place
  rw [Pool.workers_work, sourcesBehind]
  by_cases own : place = worked
  · rw [if_pos own, if_pos own]
    cases there : self.pool.workers[place]? with
    | none =>
      rw [there] at before
      have nothing : self.sources place = [] := List.map_eq_nil_iff.mp before.symm
      rw [nothing]
      rfl
    | some worker =>
      rw [there] at before
      cases worker with
      | spawned task =>
        have nothing : self.sources place = [] := List.map_eq_nil_iff.mp before.symm
        rw [nothing]
        rfl
      | retained task => exact self.pool.server.broker.sendsOf_eq draws task
      | sending sends =>
        have tails := congrArg List.tail before
        rw [← List.map_tail] at tails
        cases sends with
        | nil => exact tails
        | cons send rest => exact tails
  · rw [if_neg own, if_neg own]
    exact before

/-- What a connection is about to write answers what its request has found. -/
theorem Traced.recalled_poll (traced : self.Traced) {polled : Uuid} {read : SocketRead} {ready : Bool}
    (goesOn : (self.pool.server.clients polled).session.result = .ok none) (clientId : Uuid) {res : Response}
    (writes : ((self.pool.server.poll build polled read ready).clients clientId).session.connection.state =
      .writingPacket res) (room : ℕ) :
    ((written res.packets).take room).filterMap ControlPacket.handshake? =
      ((self.recalledBehind (.server (.poll polled read ready)) clientId).take (room - 1)).filter
        fun p => p.qos ≠ .qos0 := by
  cases given : self.pool.server.resolve (self.pool.server.clients polled) polled read ready with | mk input behind =>
  obtain ⟨broker, mqttId⟩ := behind
  rw [Server.poll_eq given] at writes
  dsimp only at writes
  rw [Function.update_apply] at writes
  by_cases own : clientId = polled
  · subst own
    simp only [if_true, Session.poll, goesOn] at writes
    have polls := (self.pool.server.clients clientId).session.connection.polls build Server.services
      (broker.channels clientId) input
    obtain before | answered := polls.writing writes
    · have kept : self.recalledBehind (.server (.poll clientId read ready)) clientId = self.recalled clientId := by
        unfold recalledBehind
        cases ready with
        | false => rfl
        | true =>
          dsimp only
          rw [if_pos rfl, before]
      rw [kept]
      exact traced.recalled clientId res before room
    · have resolves := @Server.resolve_service self.pool.server (self.pool.server.clients clientId) clientId read ready
      rw [given] at resolves
      obtain ⟨req, phase, answers⟩ := resolves answered
      have found : self.recalledBehind (.server (.poll clientId read ready)) clientId =
          self.pool.server.broker.retainedMatches req := by
        cases ready with
        | false =>
          simp only [Server.resolve, phase] at given
          cases given
          cases answered
        | true =>
          unfold recalledBehind
          dsimp only
          rw [if_pos rfl, phase]
      rw [found]
      exact Broker.answer_handshakes answers room
  · rw [if_neg own] at writes
    have kept : self.recalledBehind (.server (.poll polled read ready)) clientId = self.recalled clientId := by
      unfold recalledBehind
      cases ready with
      | false => rfl
      | true => exact if_neg own
    rw [kept]
    exact traced.recalled clientId res writes room

private theorem Traced.step (traced : self.Traced) (step : self.Step build event next) : next.Traced := by
  obtain ⟨pool, unacknowledged, sources, recalled⟩ := next
  obtain ⟨step, entered⟩ := step
  obtain rfl : sources = self.sourcesBehind event := congrArg Ledger.sources entered
  obtain rfl : recalled = self.recalledBehind event := congrArg Ledger.recalled entered
  clear entered
  cases step with
  | work worked draws => exact ⟨traced.sends_work worked draws, traced.recalled⟩
  | @server event server noTask step =>
    refine ⟨fun place => (sends_enter _ _ place).trans (traced.sources place), ?_⟩
    intro clientId res writes
    cases step with
    | @accept accepted fresh =>
      change ((self.pool.server.accept accepted).clients clientId).session.connection.state = _ at writes
      unfold Server.accept at writes
      dsimp only at writes
      rw [Function.update_apply] at writes
      split at writes
      · cases writes
      · exact traced.recalled clientId res writes
    | poll live goesOn read ready => exact traced.recalled_poll goesOn clientId writes
    | background background step => exact traced.recalled clientId res writes

end Ledger

end Aqua
