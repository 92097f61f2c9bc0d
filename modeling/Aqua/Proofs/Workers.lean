import Aqua.Model.Workers
import Aqua.Soundness.ConnectionPhases
import Aqua.Soundness.Delivery
import Mathlib.Tactic.IntervalCases

/-! # Runs with workers

What an operation of a worker and a poll put into the channels. In every reachable state a step adds to a
channel the packets that come in for it, as far as there is room.
-/

namespace Aqua

open Wire Runtime

namespace Broker

variable {self : Broker}

theorem retainFor_eq (self : Broker) (task : Task) :
    ∃ retain, self.retainFor task = { self with retain } := by
  cases task with
  | deliver pubpacket =>
    unfold retainFor
    dsimp only
    split
    · exact ⟨_, rfl⟩
    · exact ⟨self.retain, rfl⟩
  | release publish packetId => exact ⟨self.retain, rfl⟩

/-- An operation of a worker changes what is retained or one channel. -/
theorem work_eq (self : Broker) (draws : Draws) (worker : Worker) :
    ∃ retain channels, (self.work draws worker).1 = { self with retain, channels } := by
  cases worker with
  | spawned task =>
    obtain ⟨retain, same⟩ := self.retainFor_eq task
    exact ⟨retain, self.channels, same⟩
  | retained task => exact ⟨self.retain, self.channels, rfl⟩
  | sending sends =>
    cases sends with
    | nil => exact ⟨self.retain, self.channels, rfl⟩
    | cons send rest => exact ⟨self.retain, _, rfl⟩

theorem retainFor_channels (self : Broker) (task : Task) :
    (self.retainFor task).channels = self.channels := by
  obtain ⟨retain, same⟩ := self.retainFor_eq task
  rw [same]

end Broker

namespace Worker

/-- The message of the task has the property. -/
def Holds (P : Publish → Prop) : Worker → Prop
  | .spawned task => P task.message
  | .retained task => P task.message
  | .sending _ => True

variable {P : Publish → Prop} {broker : Broker}

theorem Holds.work {worker : Worker} (holds : worker.Holds P) (keeps : broker.Keeps P)
    (draws : Broker.Draws) : (broker.work draws worker).1.Keeps P ∧ (broker.work draws worker).2.Holds P := by
  cases worker with
  | spawned task =>
    refine ⟨?_, holds⟩
    cases task with
    | deliver pubpacket =>
      simp only [Broker.work, Broker.retainFor]
      split
      · exact keeps.updateRetain holds
      · exact keeps
    | release publish packetId => exact keeps
  | retained task => exact ⟨keeps, trivial⟩
  | sending sends =>
    cases sends with
    | nil => exact ⟨keeps, trivial⟩
    | cons send rest => exact ⟨keeps.withChannels _, trivial⟩

end Worker

namespace Crew

variable {self : Crew} {place : ℕ} {draws : Broker.Draws}

/-- The worker at a place does its next operation. -/
theorem work_of_some {worker : Worker} (there : self.workers[place]? = some worker) (draws : Broker.Draws) :
    self.work place draws =
      ⟨(self.broker.work draws worker).1, self.workers.set place (self.broker.work draws worker).2⟩ := by
  simp only [work, there]

theorem work_of_none (nobody : self.workers[place]? = none) (draws : Broker.Draws) :
    self.work place draws = self := by
  simp only [work, nobody]

theorem work_eq (self : Crew) (place : ℕ) (draws : Broker.Draws) :
    ∃ retain channels, (self.work place draws).broker = { self.broker with retain, channels } := by
  unfold work
  split
  · exact self.broker.work_eq draws _
  · exact ⟨self.broker.retain, self.broker.channels, rfl⟩

theorem work_session (self : Crew) (place : ℕ) (draws : Broker.Draws) :
    (self.work place draws).broker.session = self.broker.session := by
  obtain ⟨retain, channels, same⟩ := self.work_eq place draws
  rw [same]

theorem work_topics (self : Crew) (place : ℕ) (draws : Broker.Draws) :
    (self.work place draws).broker.topics = self.broker.topics := by
  obtain ⟨retain, channels, same⟩ := self.work_eq place draws
  rw [same]

/-- What holds of the messages of the broker and of its workers holds behind an operation. -/
theorem work_holds {P : Publish → Prop} (keeps : self.broker.Keeps P)
    (holds : ∀ worker ∈ self.workers, worker.Holds P) (place : ℕ) (draws : Broker.Draws) :
    (self.work place draws).broker.Keeps P ∧ ∀ worker ∈ (self.work place draws).workers, worker.Holds P := by
  unfold work
  split
  · next worker there =>
    obtain ⟨keeps', holds'⟩ := (holds worker (List.mem_of_getElem? there)).work keeps draws
    refine ⟨keeps', fun other member => ?_⟩
    rcases List.mem_or_eq_of_mem_set member with before | rfl
    · exact holds other before
    · exact holds'
  · exact ⟨keeps, holds⟩

/-- The tasks that become workers. -/
theorem hire_holds {P : Publish → Prop} (keeps : self.broker.Keeps P)
    (holds : ∀ worker ∈ self.workers, worker.Holds P) :
    self.hire.broker.Keeps P ∧ ∀ worker ∈ self.hire.workers, worker.Holds P := by
  refine ⟨⟨keeps.staged, keeps.retained, List.forall_mem_nil _⟩, ?_⟩
  rw [hire, List.forall_mem_append, List.forall_mem_map]
  exact ⟨holds, keeps.tasks⟩

/-- What the worker at a place sends next, if that goes to the connection. -/
def bound? (self : Crew) (place : ℕ) (clientId : Uuid) : Option Publish :=
  match self.next? place with
  | some send => if self.broker.session.byMqttId.get send.1 = some clientId then some send.2 else none
  | none => none

theorem bound?_eq_some_iff {clientId : Uuid} {msg : Publish} : self.bound? place clientId = some msg ↔
    ∃ subId, self.next? place = some (subId, msg) ∧
      self.broker.session.byMqttId.get subId = some clientId := by
  unfold bound?
  cases self.next? place with
  | none => simp
  | some send => simp [Prod.ext_iff, and_comm]

theorem work_channels (connected : self.broker.session.Connected) (place : ℕ) (draws : Broker.Draws)
    (clientId : Uuid) : (self.work place draws).broker.channels clientId =
      ((self.bound? place clientId).toList.map ControlPacket.publish).foldl Channel.offer
        (self.broker.channels clientId) := by
  unfold bound? next? work
  cases self.workers[place]? with
  | none => rfl
  | some worker =>
    cases worker with
    | spawned task => exact congrFun (self.broker.retainFor_channels task) clientId
    | retained task => rfl
    | sending sends =>
      cases sends with
      | nil => rfl
      | cons send rest =>
        dsimp only [Broker.work]
        rw [Broker.sendTo_channels connected]
        split <;> rfl

end Crew

namespace Connection

variable {F CF ε : Type} {build : Build} {services : Services F CF}

/-- The packets the next poll offers. -/
def offers (self : Connection F CF) : List ControlPacket :=
  match self.state with
  | .responseConnect res => [.connack res.toConnack]
  | .writingPacket res => written res.packets
  | _ => []

/-- The loop over the packets of a response, on a channel nobody else uses meanwhile. -/
theorem writePackets_channel {others : ℕ → List ChannelOp} (alone : ∀ k, others k = [])
    (packets : List ControlPacket) (place : ℕ) (channel : OutboundChannel) :
    (writePackets others place packets channel).2.1 = (written packets).foldl Channel.offer channel := by
  obtain rfl : others = fun _ => [] := funext alone
  induction place, packets, channel using writePackets.induct fun _ => [] with
  | case1 place channel => rfl
  | case2 place p rest channel => rfl
  | case3 place rest channel ih => exact ih
  | case4 place packet rest channel not_disconnect not_noop found next sent ends final actions writes
      ih =>
    have sent : channel.trySend packet = .ok next := sent
    have offered : channel.offer packet = next := by
      rw [Channel.offer, sent]
      rfl
    rw [writePackets.eq_4 _ _ _ _ _ not_disconnect not_noop, written.eq_4 _ _ not_disconnect not_noop,
      List.foldl_cons, List.foldl_nil, sent, offered, ← ih]
  | case5 place packet rest channel not_disconnect not_noop found message full ends final actions
      writes ih =>
    have full : channel.trySend packet = .error (.full message) := full
    have offered : channel.offer packet = channel := by
      rw [Channel.offer, full]
      rfl
    rw [writePackets.eq_4 _ _ _ _ _ not_disconnect not_noop, written.eq_4 _ _ not_disconnect not_noop,
      List.foldl_cons, List.foldl_nil, full, offered]
    exact ih
  | case6 place packet rest channel not_disconnect not_noop found message closed =>
    have closed : channel.trySend packet = .error (.closed message) := closed
    have nothing := Channel.room_of_closed (Channel.closed_of_trySend closed)
    rw [writePackets.eq_4 _ _ _ _ _ not_disconnect not_noop, List.foldl_nil, closed,
      Channel.foldl_offer_of_room_eq_zero nothing]

/-- What a poll does to the channel, if nobody else uses it meanwhile. -/
theorem poll_channel (self : Connection F CF) (channel : OutboundChannel) {input : PollInput ε}
    (alone : ∀ k, input.others k = []) :
    (self.poll build services channel input).channel = self.offers.foldl Channel.offer channel := by
  unfold offers
  cases phase : self.state with
  | preConnection =>
    unfold poll
    rw [phase]
    dsimp only
    split <;> rfl
  | readingPacket =>
    unfold poll
    rw [phase]
    dsimp only
    split <;> rfl
  | processingConnect fut =>
    unfold poll
    rw [phase]
    dsimp only
    split <;> rfl
  | processingService fut =>
    unfold poll
    rw [phase]
    dsimp only
    split <;> rfl
  | responseConnect res =>
    unfold poll
    rw [phase]
    simp only [List.foldl_cons, List.foldl_nil, Channel.offer]
    split
    · next sent => rw [sent]; rfl
    · next full => rw [full]; rfl
    · next closed => rw [closed]; rfl
  | writingPacket res =>
    have wrote := writePackets_channel alone res.packets 0 channel
    unfold poll
    rw [phase]
    dsimp only
    split
    · next writes => rw [writes] at wrote; exact wrote
    · next writes => rw [writes] at wrote; exact wrote
    · next writes => rw [writes] at wrote; exact wrote

end Connection

namespace Server

variable {build : Build}

/-- A poll offers the packets of its connection to its channel. -/
theorem poll_channels (self : Server) (clientId : Uuid) (read : SocketRead) (ready : Bool) :
    (self.poll build clientId read ready).broker.channels clientId =
      (self.clients clientId).session.connection.offers.foldl Channel.offer
        (self.broker.channels clientId) := by
  have others := self.resolve_others (self.clients clientId) clientId read ready
  have channels := self.resolve_channels (self.clients clientId) clientId read ready
  cases given : self.resolve (self.clients clientId) clientId read ready with | mk input behind =>
  rw [given] at others channels
  rw [poll_eq given, Broker.channels_onChannel, if_pos rfl, Connection.poll_channel _ _ others, channels]

/-- A future registers no connection but its own, and that only when it resolves a CONNECT. -/
theorem resolve_registered {self : Server} {client : Client} {clientId other : Uuid} {read : SocketRead}
    {ready : Bool} {mqttId : String}
    (known : (self.resolve client clientId read ready).2.1.session.byMqttId.get mqttId = some other) :
    self.broker.session.byMqttId.get mqttId = some other ∨
      other = clientId ∧ ∃ req res, client.session.connection.state = .processingConnect req ∧
        (self.resolve client clientId read ready).1.connect = .ok (some res) := by
  unfold resolve at known ⊢
  split at known
  · next req phase =>
    rw [phase]
    cases req with
    | connect p =>
      simp only [Broker.onConnect] at known ⊢
      split at known
      · next res broker mqttId' connects =>
        split at connects
        · next accepts =>
          cases connects
          simp only [SessionManager.setProtocolVersion, SessionManager.registerMqttId,
            DashMap.get_insert] at known
          split at known
          · cases known
            exact .inr ⟨rfl, _, _, rfl, rfl⟩
          · exact .inl known
        · cases connects
      · next e broker mqttId' connects =>
        split at connects
        · cases connects
        · cases connects
          exact .inl known
    | _ => exact .inl known
  · exact .inl (Broker.handle_registered known)
  · exact .inl known

end Server

namespace Pool

variable {build : Build} {self next : Pool} {event : Event}

theorem work_of_some {place : ℕ} {worker : Worker} (there : self.workers[place]? = some worker)
    (draws : Broker.Draws) : self.work place draws =
      ⟨{ self.server with broker := (self.server.broker.work draws worker).1 },
        self.workers.set place (self.server.broker.work draws worker).2⟩ := by
  have crew := @Crew.work_of_some self.crew place worker there draws
  rw [work, crew]
  rfl

theorem work_of_none {place : ℕ} (nobody : self.workers[place]? = none) (draws : Broker.Draws) :
    self.work place draws = self := by
  have crew := @Crew.work_of_none self.crew place nobody draws
  rw [work, crew]
  rfl

/-- Only the worker at that place changes. -/
theorem workers_work (self : Pool) (worked : ℕ) (draws : Broker.Draws) (place : ℕ) :
    (self.work worked draws).workers[place]? =
      if place = worked then self.workers[place]?.map fun worker => (self.server.broker.work draws worker).2
      else self.workers[place]? := by
  cases there : self.workers[worked]? with
  | none =>
    rw [work_of_none there]
    split
    · next own => rw [own, there, Option.map_none]
    · rfl
  | some worker =>
    rw [work_of_some there]
    by_cases own : place = worked
    · subst own
      rw [if_pos rfl, there, Option.map_some]
      exact List.getElem?_set_self (List.getElem?_eq_some_iff.mp there).1
    · rw [if_neg own]
      exact List.getElem?_set_ne (Ne.symm own)

/-- The packets a step offers to the channel of a connection. -/
def incoming (self : Pool) (event : Event) (clientId : Uuid) : List ControlPacket :=
  match event with
  | .server (.poll polled _ _) =>
      if clientId = polled then (self.server.clients clientId).session.connection.offers else []
  | .work place _ => (self.crew.bound? place clientId).toList.map ControlPacket.publish
  | _ => []

/-- The server is sound, and so are the messages of the workers; only accepted connections are registered,
and the others have an empty channel. -/
structure Sound (build : Build) (pool : Pool) : Prop where
  server : pool.server.Sound build
  workers : ∀ worker ∈ pool.workers, worker.Holds Publish.Carries
  registered : ∀ mqttId clientId, pool.server.broker.session.byMqttId.get mqttId = some clientId →
    (pool.server.clients clientId).live = true
  unused : ∀ clientId, (pool.server.clients clientId).live = false →
    (pool.server.broker.channels clientId).accepted = []

/-- Besides the tasks, a writer takes a packet from a channel or is gone. -/
theorem background_channels {server : Server} {broker : Broker} {event : Broker.Event}
    (background : Server.Background event) (noTask : isTask (.background event) = false)
    (step : server.broker.Step event broker) (clientId : Uuid) :
    broker.channels clientId = server.broker.channels clientId ∨
      broker.channels clientId = (server.broker.channels clientId).take ∨
      broker.channels clientId = (server.broker.channels clientId).close := by
  cases step with
  | task spawned draws => cases noTask
  | take taken =>
    rw [Broker.channels_onChannel]
    split
    · next own => exact .inr (.inl (own ▸ rfl))
    · exact .inl rfl
  | close closed =>
    rw [Broker.channels_onChannel]
    split
    · next own => exact .inr (.inr (own ▸ rfl))
    · exact .inl rfl
  | rehash sameTopics sameRetain => exact .inl rfl
  | _ => cases background

/-- What a step adds to a channel. -/
theorem Step.accepted (step : self.Step build event next) (sound : self.Sound build) (clientId : Uuid) :
    (next.server.broker.channels clientId).accepted =
      (self.server.broker.channels clientId).accepted ++
        (self.incoming event clientId).take (self.server.broker.channels clientId).room := by
  cases step with
  | server noTask step =>
    have unchanged : ∀ {channel : OutboundChannel},
        channel.accepted = (self.server.broker.channels clientId).accepted →
        channel.accepted = (self.server.broker.channels clientId).accepted ++
          List.take (self.server.broker.channels clientId).room [] := by
      intro channel same
      rw [List.take_nil, List.append_nil]
      exact same
    cases step with
    | @accept accepted fresh =>
      apply unchanged
      change ((self.server.broker.accept accepted).channels clientId).accepted = _
      rw [Broker.accept]
      simp only [Broker.channels_onChannel]
      split
      · next own =>
        rw [own, sound.unused _ fresh]
        rfl
      · rfl
    | @poll polled live goesOn read ready =>
      change ((self.server.poll build polled read ready).broker.channels clientId).accepted = _
      by_cases own : clientId = polled
      · rw [own, Server.poll_channels, Channel.accepted_foldl_offer]
        simp only [incoming, if_true]
      · rw [Server.poll_channels_of_ne _ own]
        simp only [incoming, if_neg own]
        exact unchanged rfl
    | @background event broker background step =>
      apply unchanged
      change (broker.channels clientId).accepted = _
      rcases background_channels background noTask step clientId with same | same | same
      · rw [same]
      · rw [same, Channel.accepted_take]
      · rw [same]
        rfl
  | work place draws =>
    change ((self.crew.work place draws).broker.channels clientId).accepted = _
    rw [Crew.work_channels sound.server.connected, Channel.accepted_foldl_offer]
    rfl

theorem Sound.new (build : Build) : Pool.new.Sound build where
  server := .new build
  workers := List.forall_mem_nil _
  registered := fun mqttId clientId wrong => by cases wrong
  unused := fun clientId _ => rfl

/-- Nothing comes in for a connection that was not accepted. -/
theorem Step.incoming_of_unused (step : self.Step build event next) (sound : self.Sound build)
    {clientId : Uuid} (fresh : (self.server.clients clientId).live = false) :
    self.incoming event clientId = [] := by
  cases step with
  | server noTask step =>
    cases step with
    | @poll polled live goesOn read ready =>
      refine if_neg ?_
      rintro rfl
      cases fresh.symm.trans live
    | _ => rfl
  | work place draws =>
    dsimp only [incoming]
    cases bound : self.crew.bound? place clientId with
    | none => rfl
    | some msg =>
      obtain ⟨subId, _, known⟩ := Crew.bound?_eq_some_iff.mp bound
      cases fresh.symm.trans (sound.registered subId clientId known)

theorem Step.live (step : self.Step build event next) {clientId : Uuid}
    (live : (self.server.clients clientId).live = true) : (next.server.clients clientId).live = true := by
  cases step with
  | server noTask step =>
    have later := Server.Step.live step live
    exact later
  | work place draws => exact live

/-- A connection is registered for an MQTT id by its own poll, or was before. -/
theorem Step.registered (step : self.Step build event next) {mqttId : String} {clientId : Uuid}
    (known : next.server.broker.session.byMqttId.get mqttId = some clientId) :
    self.server.broker.session.byMqttId.get mqttId = some clientId ∨
      (self.server.clients clientId).live = true ∧ ∃ read ready req res,
        event = .server (.poll clientId read ready) ∧
        (self.server.clients clientId).session.connection.state = .processingConnect req ∧
        (self.server.resolve (self.server.clients clientId) clientId read ready).1.connect =
          .ok (some res) := by
  cases step with
  | server noTask step =>
    cases step with
    | accept fresh => exact .inl known
    | @poll polled live goesOn read ready =>
      have resolved : (self.server.resolve (self.server.clients polled) polled read
        ready).2.1.session.byMqttId.get mqttId = some clientId := known
      obtain before | ⟨rfl, req, res, phase, connects⟩ := Server.resolve_registered resolved
      · exact .inl before
      · exact .inr ⟨live, read, ready, req, res, rfl, phase, connects⟩
    | background background step =>
      have same := background.session step
      exact .inl (same ▸ known)
  | work place draws =>
    have session : (self.work place draws).server.broker.session = self.server.broker.session :=
      self.crew.work_session place draws
    rw [session] at known
    exact .inl known

theorem Sound.step (sound : self.Sound build) (step : self.Step build event next) : next.Sound build where
  server := by
    cases step with
    | @server event server noTask step =>
      have after := sound.server.step step
      have hired := @Crew.hire_holds ⟨server.broker, []⟩ _ after.messages (List.forall_mem_nil _)
      exact after.withBroker rfl hired.1
    | work place draws =>
      have worked := self.crew.work_holds sound.server.messages sound.workers place draws
      exact sound.server.withBroker (self.crew.work_session place draws) worked.1
  workers := by
    cases step with
    | @server event server noTask step =>
      have after := sound.server.step step
      have hired := @Crew.hire_holds ⟨server.broker, self.workers⟩ _ after.messages sound.workers
      exact hired.2
    | work place draws =>
      have worked := self.crew.work_holds sound.server.messages sound.workers place draws
      exact worked.2
  registered := by
    intro mqttId clientId known
    obtain before | ⟨live, _⟩ := step.registered known
    · exact step.live (sound.registered mqttId clientId before)
    · exact step.live live
  unused := by
    intro clientId fresh
    have before : (self.server.clients clientId).live = false := by
      cases live : (self.server.clients clientId).live with
      | false => rfl
      | true => cases fresh.symm.trans (step.live live)
    rw [step.accepted sound, step.incoming_of_unused sound before, sound.unused clientId before]
    exact List.take_nil

/-- The states of the pool in some run. -/
def Reachable (build : Build) (pool : Pool) : Prop := ∃ events, Runs (Step build) .new events pool

theorem Reachable.new (build : Build) : Pool.new.Reachable build := ⟨[], .nil⟩

theorem Reachable.step (reachable : self.Reachable build) (step : self.Step build event next) :
    next.Reachable build := by
  obtain ⟨events, run⟩ := reachable
  exact ⟨_, run.snoc step⟩

theorem Reachable.sound (reachable : self.Reachable build) : self.Sound build := by
  obtain ⟨events, run⟩ := reachable
  exact run.invariant (fun _ _ _ sound step => sound.step step) (.new build)

theorem Reachable.accept (reachable : self.Reachable build) {clientId : Uuid}
    (fresh : (self.server.clients clientId).live = false) :
    (self.enter (self.server.accept clientId)).Reachable build :=
  reachable.step (.server rfl (.accept fresh))

theorem Reachable.poll (reachable : self.Reachable build) {clientId : Uuid}
    (live : (self.server.clients clientId).live = true)
    (goesOn : (self.server.clients clientId).session.result = .ok none) (read : SocketRead) (ready : Bool) :
    (self.enter (self.server.poll build clientId read ready)).Reachable build :=
  reachable.step (.server rfl (.poll live goesOn read ready))

/-- A poll that finds no new bytes and a future that is ready. -/
def resume (build : Build) (clientId : Uuid) (self : Pool) : Pool :=
  self.enter (self.server.poll build clientId .pending true)

theorem Reachable.resume {clientId : Uuid} (reachable : self.Reachable build) (count : ℕ)
    (goesOn : ∀ k < count,
      (((Pool.resume build clientId)^[k] self).server.clients clientId).live = true ∧
      (((Pool.resume build clientId)^[k] self).server.clients clientId).session.result = .ok none) :
    ((Pool.resume build clientId)^[count] self).Reachable build := by
  induction count with
  | zero => exact reachable
  | succ count ih =>
    obtain ⟨live, pending⟩ := goesOn count (Nat.lt_succ_self _)
    rw [Function.iterate_succ_apply']
    exact (ih fun k lt => goesOn k (Nat.lt_succ_of_lt lt)).poll live pending _ _

/-- A CONNECT of the client `a`, its SUBSCRIBE to the topic `t` with QoS 1, and a PUBLISH to it with
QoS 0. -/
def echoBytes : Bytes :=
  [0x10, 0x0d, 0x00, 0x04, 0x4d, 0x51, 0x54, 0x54, 0x04, 0x02, 0x00, 0x3c, 0x00, 0x01, 0x61,
    0x82, 0x06, 0x00, 0x01, 0x00, 0x01, 0x74, 0x01, 0x30, 0x04, 0x00, 0x01, 0x74, 0x68]

/-- A connection has sent them, and the task of its message is spawned. -/
def published : Pool :=
  let accepted := Pool.new.enter (Pool.new.server.accept ⟨0⟩)
  (Pool.resume ⟨false⟩ ⟨0⟩)^[13]
    (accepted.enter (accepted.server.poll ⟨false⟩ ⟨0⟩ (.ready echoBytes) true))

theorem zero_lt_draws : 0 < 1001 := by decide

/-- Every identifier drawn is the least one. -/
def leastDraws : Broker.Draws := fun _ => ⟨0, zero_lt_draws⟩

/-- The message is about to be sent back under a random packet identifier, which is 0. -/
def echoing : Pool := (published.work 0 leastDraws).work 0 leastDraws

theorem published_reachable : published.Reachable ⟨false⟩ := by
  have accepted : (Pool.new.enter (Pool.new.server.accept ⟨0⟩)).Reachable ⟨false⟩ :=
    (Reachable.new _).accept rfl
  refine (accepted.poll rfl rfl (.ready echoBytes) true).resume 13 fun k lt => ?_
  interval_cases k <;> exact ⟨rfl, rfl⟩

theorem echoing_reachable : echoing.Reachable ⟨false⟩ :=
  (published_reachable.step (.work 0 _)).step (.work 0 _)

end Pool

end Aqua
