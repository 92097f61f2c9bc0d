import Aqua.Proofs.HubRequests

/-! # The broker refines a publish/subscribe hub

Whatever the connections, the workers and the writers do, and in whatever order, the pool does what a hub does
that is asked for the same. A poll that finds a future ready serves the request of its connection, one that
writes fills the mailbox up with what carries no message, and a writer collects from it; everything else is a
step of the hub's own, or none at all: reading and decoding, the order of the tables, versions and packet
identifiers.
-/

namespace Aqua

open Runtime

namespace Connection

variable {F CF ε : Type} {build : Build} {services : Services F CF} {self : Connection F CF}
  {channel : OutboundChannel} {input : PollInput ε}

/-- Behind the future of the service its answer is offered. -/
private theorem poll_offers_service {input : PollInput MqttError} {fut : F} {result : Result Response}
    (phase : self.state = .processingService fut) (ready : input.service = some <$> result) :
    (self.poll build services channel input).connection.offers = Broker.offersOf result := by
  unfold poll
  rw [phase]
  dsimp only
  rw [ready]
  cases result <;> rfl

/-- A connection that writes no response and announces nothing offers no messages. -/
private theorem offers_quiet (idle : ∀ res, self.state ≠ .writingPacket res) :
    self.offers.filterMap ControlPacket.letter? = [] := by
  unfold offers
  split
  · rfl
  · next res state => exact absurd state (idle res)
  · rfl

/-- Elsewhere, and while that future is pending, no messages are offered next. -/
private theorem poll_offers_quiet (pending : ∀ fut, self.state = .processingService fut → input.service = .ok none) :
    (self.poll build services channel input).connection.offers.filterMap ControlPacket.letter? = [] := by
  cases phase : self.state with
  | processingService fut =>
    unfold poll
    rw [phase]
    dsimp only
    rw [pending fut phase]
    rfl
  | writingPacket res =>
    unfold poll
    rw [phase]
    dsimp only
    split <;> rfl
  | _ =>
    apply offers_quiet
    intro res writes
    have polls := self.polls build services channel input
    generalize self.poll build services channel input = polled at polls writes
    cases polls with
    | waits state decodes => cases phase.symm.trans (state.symm.trans writes)
    | fails idle ready state decodes => cases state.symm.trans writes
    | connects state next decodes version => cases next.symm.trans writes
    | refuses state other next decodes => cases next.symm.trans writes
    | reads state next decodes => cases next.symm.trans writes
    | answers state resolved => cases phase.symm.trans state
    | writes state wrote ends => cases phase.symm.trans state
    | _ => cases writes

end Connection

namespace Pool

variable {build : Build} {self next : Pool} {event : Event} {clientId : Uuid}

/-- Every task is a worker. -/
theorem Reachable.idle (reachable : self.Reachable build) : self.server.broker.tasks = [] := by
  obtain ⟨events, run⟩ := reachable
  induction run with
  | nil => rfl
  | @snoc events event before next earlier step ih =>
    cases step with
    | server noTask step => rfl
    | work place draws =>
      obtain ⟨retain, channels, same⟩ := before.crew.work_eq place draws
      change (before.crew.work place draws).broker.tasks = []
      rw [same]
      exact ih

/-- The hub of a pool whose server has just made a step. -/
private theorem enter_hub (self : Pool) (server : Server) : (self.enter server).hub =
    server.broker.hub (self.workers ++ server.broker.tasks.map Worker.spawned) fun clientId =>
      (server.clients clientId).session.connection.offers := rfl

/-- The hub behind a poll, whose future has left this broker. -/
private theorem poll_hub {input : PollInput MqttError} {broker : Broker} {mqttId : String}
    {read : SocketRead} {ready : Bool} (goesOn : (self.server.clients clientId).session.result = .ok none)
    (given : self.server.resolve (self.server.clients clientId) clientId read ready = (input, broker, mqttId)) :
    (self.enter (self.server.poll build clientId read ready)).hub =
      (broker.hub (self.workers ++ broker.tasks.map Worker.spawned) self.offers).withMailbox clientId
        (mailboxOf ((self.offers clientId).foldl Channel.offer (broker.channels clientId))
          ((self.server.clients clientId).session.connection.poll build Server.services
            (broker.channels clientId) input).connection.offers) := by
  have others := self.server.resolve_others (self.server.clients clientId) clientId read ready
  rw [given] at others
  rw [enter_hub, Server.poll_eq given, Connection.poll_channel _ _ others, ← Broker.hub_onChannel]
  congr 1
  funext other
  dsimp only
  rw [Function.update_apply, Function.update_apply]
  split
  · simp only [Session.poll, goesOn]
  · rfl

/-- A poll that handles a request. -/
theorem Reachable.poll_request (reachable : self.Reachable build)
    (goesOn : (self.server.clients clientId).session.result = .ok none) {req : ControlPacket}
    (phase : (self.server.clients clientId).session.connection.state = .processingService req) (read : SocketRead) :
    Hub.Serves Broker.rules (self.handled clientId true ++ self.filled clientId) self.hub
      (self.enter (self.server.poll build clientId read true)).hub := by
  have keyed : self.server.broker.retain.Keyed := fun topic p found => (reachable.filed.retained topic p found).1
  have unsent : self.offers clientId = [] := by
    simp only [offers, Connection.offers, phase]
  have asked : self.handled clientId true ++ self.filled clientId =
      req.requests clientId (self.server.clients clientId).mqttId := by
    unfold handled filled
    rw [phase, unsent]
    exact List.append_nil _
  cases handled : self.server.broker.handle (self.server.clients clientId).mqttId req with | mk result broker =>
  have given : self.server.resolve (self.server.clients clientId) clientId read true =
      ({ read, service := some <$> result }, broker, (self.server.clients clientId).mqttId) := by
    simp only [Server.resolve, phase, handled]
  have serves := @Broker.handle_hub self.workers self.offers self.server.broker clientId
    (self.server.clients clientId).mqttId req reachable.idle keyed reachable.sound.server.messages unsent _
    (reachable.versioned goesOn phase)
  have channels := self.server.broker.handle_channels (self.server.clients clientId).mqttId req
  rw [handled] at serves channels
  rw [asked, poll_hub goesOn given, unsent, Connection.poll_offers_service phase rfl]
  rw [Broker.hub_offers] at serves
  exact serves

/-- The polls that handle no request of a client. -/
private theorem poll_quiet (build : Build) {input : PollInput MqttError} {broker : Broker} {mqttId : String}
    {read : SocketRead} {ready : Bool} (goesOn : (self.server.clients clientId).session.result = .ok none)
    (given : self.server.resolve (self.server.clients clientId) clientId read ready = (input, broker, mqttId))
    (quiet : ((self.server.clients clientId).session.connection.poll build Server.services
      (broker.channels clientId) input).connection.offers.filterMap ControlPacket.letter? = []) :
    Hub.Serves Broker.rules (self.filled clientId)
      (broker.hub (self.workers ++ broker.tasks.map Worker.spawned) self.offers)
      (self.enter (self.server.poll build clientId read ready)).hub := by
  rw [poll_hub goesOn given, mailboxOf, quiet]
  exact Broker.offers_hub _ rfl

/-- A poll in which no future is ready. -/
theorem Reachable.poll_idle (reachable : self.Reachable build)
    (goesOn : (self.server.clients clientId).session.result = .ok none) {read : SocketRead} {ready : Bool}
    (given : self.server.resolve (self.server.clients clientId) clientId read ready =
      ({ read }, self.server.broker, (self.server.clients clientId).mqttId)) :
    Hub.Serves Broker.rules (self.filled clientId) self.hub
      (self.enter (self.server.poll build clientId read ready)).hub := by
  have serves := poll_quiet build goesOn given (Connection.poll_offers_quiet fun _ _ => rfl)
  rw [reachable.idle, List.map_nil, List.append_nil] at serves
  exact serves

/-- A poll that handles a CONNECT. -/
theorem Reachable.poll_connect (reachable : self.Reachable build)
    (goesOn : (self.server.clients clientId).session.result = .ok none) {req : ControlPacket}
    (phase : (self.server.clients clientId).session.connection.state = .processingConnect req) (read : SocketRead) :
    Hub.Serves Broker.rules (req.joins clientId ++ self.filled clientId) self.hub
      (self.enter (self.server.poll build clientId read true)).hub := by
  have joins := @Broker.onConnect_hub self.workers self.offers self.server.broker clientId
    (self.server.clients clientId).mqttId req
  have tasks : (self.server.broker.onConnect clientId (self.server.clients clientId).mqttId req).2.1.tasks = [] := by
    cases req with
    | connect p =>
      simp only [Broker.onConnect]
      split <;> exact reachable.idle
    | _ => exact reachable.idle
  have behind : ∃ connect, self.server.resolve (self.server.clients clientId) clientId read true =
      ({ read, connect }, (self.server.broker.onConnect clientId (self.server.clients clientId).mqttId req).2) := by
    simp only [Server.resolve, phase]
    split
    · next connects => exact ⟨_, by rw [connects]⟩
    · next connects => exact ⟨_, by rw [connects]⟩
  obtain ⟨connect, given⟩ := behind
  have quiet := poll_quiet build goesOn given (Connection.poll_offers_quiet fun _ _ => rfl)
  rw [tasks, List.map_nil, List.append_nil] at quiet
  exact joins.trans quiet

/-- A poll of a connection. -/
theorem Reachable.poll_serves (reachable : self.Reachable build)
    (goesOn : (self.server.clients clientId).session.result = .ok none) (read : SocketRead) (ready : Bool) :
    Hub.Serves Broker.rules (self.requests (.server (.poll clientId read ready))) self.hub
      (self.enter (self.server.poll build clientId read ready)).hub := by
  rw [requests]
  cases ready with
  | false =>
    have nothing : self.handled clientId false = [] := by
      unfold handled
      split
      · next wrong => cases wrong
      · next wrong => cases wrong
      · rfl
    rw [nothing]
    refine reachable.poll_idle goesOn ?_
    unfold Server.resolve
    split
    · next wrong => cases wrong
    · next wrong => cases wrong
    · rfl
  | true =>
    cases phase : (self.server.clients clientId).session.connection.state with
    | processingService req => exact reachable.poll_request goesOn phase read
    | processingConnect req =>
      unfold handled
      rw [phase]
      exact reachable.poll_connect goesOn phase read
    | _ =>
      unfold handled
      rw [phase]
      refine reachable.poll_idle goesOn ?_
      simp only [Server.resolve, phase]

/-- The server goes on without a task. -/
private theorem enter_hub_of_idle (self : Pool) {server : Server} (idle : server.broker.tasks = []) :
    (self.enter server).hub = server.broker.hub self.workers fun clientId =>
      (server.clients clientId).session.connection.offers := by
  rw [enter_hub, idle, List.map_nil, List.append_nil]

/-- A connection is accepted. -/
theorem Reachable.accept_serves (reachable : self.Reachable build) (clientId : Uuid) :
    Hub.Serves Broker.rules [.attach clientId] self.hub (self.enter (self.server.accept clientId)).hub := by
  refine .request (.attach clientId) ?_
  have accepted : (self.enter (self.server.accept clientId)).hub = _ := self.enter_hub_of_idle reachable.idle
  have empty : mailboxOf (.new : OutboundChannel) [] = {} := rfl
  rw [accepted, ← empty]
  refine Eq.trans ?_ (@Broker.hub_onChannel self.workers self.offers self.server.broker clientId .new [])
  refine Hub.ext rfl rfl rfl rfl rfl rfl rfl ?_
  funext other
  simp only [Broker.hub, Server.accept, Function.update_apply]
  split <;> rfl

/-- What happens besides the connections. -/
theorem Reachable.background_serves (reachable : self.Reachable build) {event : Broker.Event} {broker : Broker}
    (background : Server.Background event) (noTask : isTask (.background event) = false)
    (step : self.server.broker.Step event broker) :
    Hub.Serves Broker.rules (self.requests (.server (.background event))) self.hub
      (self.enter { self.server with broker }).hub := by
  have after : broker.tasks = [] →
      (self.enter { self.server with broker }).hub = broker.hub self.workers self.offers :=
    fun idle => self.enter_hub_of_idle idle
  cases step with
  | task spawned draws => cases noTask
  | take clientId =>
    rw [after reachable.idle]
    exact self.server.broker.take_hub clientId
  | close clientId =>
    rw [after reachable.idle]
    exact self.server.broker.close_hub clientId
  | rehash sameTopics sameRetain =>
    rw [after reachable.idle]
    refine .nil (Hub.ext rfl (TopicManager.subscriptions_reorders sameTopics) ?_ rfl rfl rfl rfl rfl)
    funext topic
    exact congrArg (Option.map Publish.letter) (sameRetain.get_eq topic)
  | _ => cases background

/-- Every step of the pool is one of the hub. -/
theorem Step.serves (step : self.Step build event next) (reachable : self.Reachable build) :
    Hub.Serves Broker.rules (self.requests event) self.hub next.hub := by
  cases step with
  | server noTask step =>
    cases step with
    | accept fresh => exact reachable.accept_serves _
    | poll live goesOn read ready => exact reachable.poll_serves goesOn read ready
    | background background step => exact reachable.background_serves background noTask step
  | work place draws =>
    change Hub.Serves Broker.rules [] self.hub (self.work place draws).hub
    cases there : self.workers[place]? with
    | none =>
      rw [work_of_none there]
      exact .nil rfl
    | some worker =>
      rw [work_of_some there]
      exact @Broker.work_hub self.server.broker self.workers place worker self.offers there
        reachable.sound.server.connected draws

end Pool

/-- A new pool stands for a new hub. In every run of the pool, from wherever it has got to, the hub serves what
the steps of the pool ask for, in their order, from the state the first pool stands for to that of the last. -/
theorem broker_refines_hub {build : Build} {served : List (Pool.Event × List BrokerRequest)} {start pool : Pool}
    (reachable : start.Reachable build) (run : Runs (Observed (Pool.Step build) Pool.requests) start served pool) :
    Pool.new.hub = .new ∧ Hub.Serves Broker.rules (served.flatMap Prod.snd) start.hub pool.hub := by
  refine ⟨rfl, ?_⟩
  exact Runs.simulates (fun _ _ _ reachable step => reachable.step step)
    (fun _ _ _ reachable step => step.serves reachable) reachable run

namespace Pool

/-- Polls that find no new bytes, with what they ask for. -/
private theorem resume_observed {build : Build} {clientId : Uuid} (self : Pool) (count : ℕ)
    (goesOn : ∀ k < count,
      (((Pool.resume build clientId)^[k] self).server.clients clientId).live = true ∧
      (((Pool.resume build clientId)^[k] self).server.clients clientId).session.result = .ok none) :
    Runs (Observed (Step build) requests) self
      ((List.range count).map fun k => (.server (.poll clientId .pending true),
        ((Pool.resume build clientId)^[k] self).requests (.server (.poll clientId .pending true))))
      ((Pool.resume build clientId)^[count] self) := by
  induction count with
  | zero => exact .nil
  | succ count ih =>
    obtain ⟨live, pending⟩ := goesOn count (Nat.lt_succ_self _)
    rw [List.range_succ, List.map_append, List.map_singleton, Function.iterate_succ_apply']
    exact (ih fun k lt => goesOn k (Nat.lt_succ_of_lt lt)).snoc ⟨.server rfl (.poll live pending _ _), rfl⟩

/-- The bytes of a client have arrived. -/
def arrived : Pool :=
  let accepted := Pool.new.enter (Pool.new.server.accept ⟨0⟩)
  accepted.enter (accepted.server.poll ⟨false⟩ ⟨0⟩ (.ready echoBytes) true)

private theorem arrived_observed : Runs (Observed (Step ⟨false⟩) requests) .new
    [(.server (.accept ⟨0⟩), [.attach ⟨0⟩]), (.server (.poll ⟨0⟩ (.ready echoBytes) true), [])] arrived := by
  have accepted : Runs (Observed (Step ⟨false⟩) requests) .new [(.server (.accept ⟨0⟩), [.attach ⟨0⟩])]
      (Pool.new.enter (Pool.new.server.accept ⟨0⟩)) := .single ⟨.server rfl (.accept rfl), rfl⟩
  exact accepted.snoc ⟨.server rfl (.poll rfl rfl _ _), rfl⟩

private theorem published_observed : Runs (Observed (Step ⟨false⟩) requests) arrived
    ((List.range 13).map fun k => (.server (.poll ⟨0⟩ .pending true),
      ((Pool.resume ⟨false⟩ ⟨0⟩)^[k] arrived).requests (.server (.poll ⟨0⟩ .pending true)))) published := by
  refine arrived.resume_observed 13 fun k lt => ?_
  interval_cases k <;> exact ⟨rfl, rfl⟩

end Pool

/-- A client subscribes to the topic of its own message. -/
theorem broker_refines_hub_echoing :
    Pool.new.hub = .new ∧ Hub.Serves Broker.rules
      [.attach ⟨0⟩, .join "a" ⟨0⟩, .fill ⟨0⟩, .enroll "a" [("t", { qos := .qos1 })], .recall ⟨0⟩ ["t"], .fill ⟨0⟩,
        .post { topicName := ⟨"t"⟩, payloadLength := 1, payloadData := [0x68] }]
      Pool.new.hub Pool.echoing.hub := by
  have run := Pool.arrived_observed.append Pool.published_observed
  have kept : Observed (Pool.Step ⟨false⟩) Pool.requests Pool.published (.work 0 Pool.leastDraws, [])
      (Pool.published.work 0 Pool.leastDraws) := ⟨.work 0 Pool.leastDraws, rfl⟩
  have spread : Observed (Pool.Step ⟨false⟩) Pool.requests (Pool.published.work 0 Pool.leastDraws)
      (.work 0 Pool.leastDraws, []) Pool.echoing := ⟨.work 0 Pool.leastDraws, rfl⟩
  exact broker_refines_hub (.new ⟨false⟩) ((run.snoc kept).snoc spread)

end Aqua
