import Aqua.Proofs.ConnectionPoll
import Aqua.Proofs.EmittedPublish
import Aqua.Proofs.StoredMessages

/-! # Runs of the server

One poll of one client, taken apart into what its future gives and what the connection does with it,
and what holds in every reachable state: a registered MQTT id belongs to a connection with a sender,
and every message a connection has received or the broker keeps was emitted by a decoder.
-/

namespace Aqua

open Wire Runtime

namespace Server

variable {build : Build} {self : Server} {clientId : Uuid} {read : SocketRead} {ready : Bool}

theorem poll_eq {input : PollInput MqttError} {broker : Broker} {mqttId : String}
    (resolves : self.resolve (self.clients clientId) clientId read ready = (input, broker, mqttId)) :
    self.poll build clientId read ready =
      { broker := broker.onChannel clientId fun _ => ((self.clients clientId).session.connection.poll
          build services (broker.channels clientId) input).channel
        clients := Function.update self.clients clientId { self.clients clientId with
          mqttId
          session := (self.clients clientId).session.poll build services
            (broker.channels clientId, input) } } := by
  unfold poll
  simp only [resolves]

/-- What the future of a client does to the shared state. -/
theorem resolve_broker (self : Server) (client : Client) (clientId : Uuid) (read : SocketRead)
    (ready : Bool) :
    (self.resolve client clientId read ready).2.1 = self.broker ∨
      (∃ req, client.session.connection.state = .processingConnect req ∧
        (self.resolve client clientId read ready).2.1 =
          (self.broker.onConnect clientId client.mqttId req).2.1) ∨
      ∃ req, client.session.connection.state = .processingService req ∧
        (self.resolve client clientId read ready).2.1 = (self.broker.handle client.mqttId req).2 := by
  unfold resolve
  split
  · next req phase =>
    refine .inr (.inl ⟨req, phase, ?_⟩)
    split
    · next connects => rw [connects]
    · next connects => rw [connects]
  · next req phase => exact .inr (.inr ⟨req, phase, rfl⟩)
  · exact .inl rfl

/-- The future of a client leaves the channels alone. -/
theorem resolve_channels (self : Server) (client : Client) (clientId : Uuid) (read : SocketRead)
    (ready : Bool) :
    (self.resolve client clientId read ready).2.1.channels = self.broker.channels := by
  obtain same | ⟨req, _, after⟩ | ⟨req, _, after⟩ := self.resolve_broker client clientId read ready
  · rw [same]
  · rw [after]
    cases req with
    | connect p =>
      simp only [Broker.onConnect]
      split <;> rfl
    | _ => rfl
  · rw [after, Broker.handle_channels]

/-- Nothing happens to the channel while a response is written. -/
theorem resolve_others (self : Server) (client : Client) (clientId : Uuid) (read : SocketRead)
    (ready : Bool) (k : ℕ) : (self.resolve client clientId read ready).1.others k = [] := by
  unfold resolve
  split
  · split <;> rfl
  · rfl
  · rfl

/-- A CONNECT is accepted by the connect service. -/
theorem resolve_connect {self : Server} {client : Client} {clientId : Uuid} {read : SocketRead} {ready : Bool}
    {res : ConnackResponse}
    (accepted : (self.resolve client clientId read ready).1.connect = .ok (some res)) :
    ∃ req, client.session.connection.state = .processingConnect req ∧
      (self.broker.onConnect clientId client.mqttId req).1 = .ok res ∧
      (self.resolve client clientId read ready).2 = (self.broker.onConnect clientId client.mqttId req).2 := by
  unfold resolve at accepted ⊢
  split at accepted
  · next req phase =>
    refine ⟨req, phase, ?_⟩
    cases connects : self.broker.onConnect clientId client.mqttId req with | mk result behind =>
    rw [connects] at accepted
    cases result with
    | ok res' =>
      cases accepted
      exact ⟨rfl, rfl⟩
    | error e => cases accepted
  · cases accepted
  · cases accepted

/-- Where no CONNECT is accepted, the MQTT id stays. -/
theorem resolve_mqttId {self : Server} {client : Client} {clientId : Uuid} {read : SocketRead} {ready : Bool}
    (refused : ∀ res, (self.resolve client clientId read ready).1.connect ≠ .ok (some res)) :
    (self.resolve client clientId read ready).2.2 = client.mqttId := by
  unfold resolve at refused ⊢
  split at refused
  · next req phase =>
    cases connects : self.broker.onConnect clientId client.mqttId req with | mk result behind =>
    rw [connects] at refused
    cases result with
    | ok res => exact absurd rfl (refused res)
    | error e =>
      cases req with
      | connect p =>
        rw [Broker.onConnect] at connects
        split at connects <;> cases connects
        rfl
      | _ =>
        cases connects
        rfl
  · rfl
  · rfl

/-- The answer of a service is that of its handler. -/
theorem resolve_service {self : Server} {client : Client} {clientId : Uuid} {read : SocketRead} {ready : Bool}
    {res : Response} (answers : (self.resolve client clientId read ready).1.service = .ok (some res)) :
    ∃ req, client.session.connection.state = .processingService req ∧
      (self.broker.handle client.mqttId req).1 = .ok res := by
  unfold resolve at answers
  split at answers
  · split at answers <;> cases answers
  · next req phase =>
    refine ⟨req, phase, ?_⟩
    cases answered : (self.broker.handle client.mqttId req).1 with
    | ok response =>
      dsimp only at answers
      rw [answered] at answers
      cases answers
      rfl
    | _ =>
      dsimp only at answers
      rw [answered] at answers
      cases answers
  · cases answers

/-- A poll leaves the channels of the other connections alone. -/
theorem poll_channels_of_ne (self : Server) {clientId other : Uuid} (ne : other ≠ clientId)
    (read : SocketRead) (ready : Bool) :
    (self.poll build clientId read ready).broker.channels other = self.broker.channels other := by
  have before := self.resolve_channels (self.clients clientId) clientId read ready
  cases given : self.resolve (self.clients clientId) clientId read ready with | mk input behind =>
  rw [given] at before
  rw [poll_eq given, Broker.channels_onChannel, if_neg ne]
  exact congrFun before other

/-- A connection that was accepted stays accepted. -/
theorem Step.live {event : Event} {next : Server} (step : self.Step build event next)
    (live : (self.clients clientId).live = true) : (next.clients clientId).live = true := by
  cases step with
  | accept fresh =>
    rw [Server.accept]
    dsimp only
    rw [Function.update_apply]
    split
    · rfl
    · exact live
  | poll own goesOn read ready =>
    rw [Server.poll]
    dsimp only
    rw [Function.update_apply]
    split
    · exact own
    · exact live
  | background background step => exact live

theorem Reachable.new (build : Build) : Server.new.Reachable build := ⟨[], .nil⟩

theorem Reachable.step {event : Event} {next : Server} (reachable : self.Reachable build)
    (step : self.Step build event next) : next.Reachable build := by
  obtain ⟨events, run⟩ := reachable
  exact ⟨_, run.snoc step⟩

theorem Reachable.poll (reachable : self.Reachable build) (live : (self.clients clientId).live = true)
    (goesOn : (self.clients clientId).session.result = .ok none) (read : SocketRead) (ready : Bool) :
    (self.poll build clientId read ready).Reachable build :=
  reachable.step (.poll live goesOn read ready)

/-- A poll that finds no new bytes and a future that is ready. -/
def resume (build : Build) (clientId : Uuid) (self : Server) : Server :=
  self.poll build clientId .pending true

/-- Polls are repeated as long as the client goes on. -/
theorem Reachable.resume (reachable : self.Reachable build) (count : ℕ)
    (goesOn : ∀ k < count,
      (((Server.resume build clientId)^[k] self).clients clientId).live = true ∧
      (((Server.resume build clientId)^[k] self).clients clientId).session.result = .ok none) :
    ((Server.resume build clientId)^[count] self).Reachable build := by
  induction count with
  | zero => exact reachable
  | succ count ih =>
    obtain ⟨live, pending⟩ := goesOn count (Nat.lt_succ_self _)
    rw [Function.iterate_succ_apply']
    exact (ih fun k lt => goesOn k (Nat.lt_succ_of_lt lt)).poll live pending _ _

theorem Reachable.invariant {inv : Server → Prop} (reachable : self.Reachable build) (start : inv .new)
    (keeps : ∀ server event next, inv server → server.Step build event next → inv next) : inv self := by
  obtain ⟨events, run⟩ := reachable
  exact run.invariant keeps start

/-- What holds of one client holds of all when one is given a new state. -/
theorem forall_update {P : Uuid → Client → Prop} {client : Client} (own : P clientId client)
    (others : ∀ other, P other (self.clients other)) :
    ∀ other, P other (Function.update self.clients clientId client other) := by
  intro other
  by_cases same : other = clientId
  · rw [same, Function.update_self]
    exact own
  · rw [Function.update_of_ne same]
    exact others other

end Server

/-- A registered MQTT id belongs to a connection whose sender is registered. -/
def SessionManager.Connected (self : SessionManager) : Prop :=
  ∀ mqttId clientId, self.byMqttId.get mqttId = some clientId →
    self.byClientId.get clientId = some ⟨clientId⟩

/-- The message has a payload. -/
def Publish.Carries (p : Publish) : Prop := p.payloadLength ≠ 0 ∧ p.payloadData ≠ []

/-- A client that was accepted has its sender registered; its decoder is a reachable one, and what it
has received was emitted by it. -/
structure Client.Sound (build : Build) (session : SessionManager) (clientId : Uuid) (client : Client) :
    Prop where
  sender : client.live = true → session.byClientId.get clientId = some ⟨clientId⟩
  decoder : client.session.connection.decoder.Reachable build
  received : ∀ p, client.session.connection.state = .processingService (.publish p) → p.Sound

structure Server.Sound (build : Build) (server : Server) : Prop where
  connected : server.broker.session.Connected
  messages : server.broker.Keeps Publish.Carries
  clients : ∀ clientId, (server.clients clientId).Sound build server.broker.session clientId

variable {build : Build}

theorem Connection.Decodes.reachable {decoder next : Decoder} {ready : Option ControlPacket}
    (decodes : Connection.Decodes build decoder ready next) (reachable : decoder.Reachable build) :
    next.Reachable build := by
  cases decodes with
  | fed bytes => exact reachable.feed bytes
  | polled polled => exact (reachable.feed _).poll polled

theorem Connection.Decodes.sound {decoder next : Decoder} {p : Publish}
    (decodes : Connection.Decodes build decoder (some (.publish p)) next)
    (reachable : decoder.Reachable build) : p.Sound := by
  cases decodes with
  | polled polled => exact (reachable.feed _).sound polled

theorem Client.Sound.polled {session : SessionManager} {clientId : Uuid} {client : Client}
    (sound : client.Sound build session clientId) (found : OutboundChannel × PollInput MqttError)
    (mqttId : String) :
    ({ client with mqttId, session := client.session.poll build Server.services found } : Client).Sound
      build session clientId := by
  unfold Session.poll
  split
  · have polls := client.session.connection.polls build Server.services found.1 found.2
    generalize client.session.connection.poll build Server.services found.1 found.2 = polled at *
    refine ⟨sound.sender, ?_, ?_⟩
    · cases polls with
      | waits state decodes => exact decodes.reachable sound.decoder
      | fails idle ready state decodes => exact decodes.reachable sound.decoder
      | connects state next decodes version =>
        dsimp only
        rw [version]
        exact (decodes.reachable sound.decoder).setProtocolVersion _
      | refuses state other next decodes => exact decodes.reachable sound.decoder
      | reads state next decodes => exact decodes.reachable sound.decoder
      | _ => exact sound.decoder
    · intro p phase
      cases polls with
      | waits state decodes => exact sound.received p (state.symm.trans phase)
      | fails idle ready state decodes => cases state.symm.trans phase
      | connects state next decodes version => cases next.symm.trans phase
      | refuses state other next decodes => cases next.symm.trans phase
      | reads state next decodes =>
        cases next.symm.trans phase
        exact decodes.sound sound.decoder
      | writes state wrote ends =>
        rcases ends with ⟨_, rfl, _⟩ | ⟨_, rfl, _⟩ <;> cases phase
      | _ => cases phase
  · exact ⟨sound.sender, sound.decoder, sound.received⟩

theorem Client.Sound.mono {session session' : SessionManager} {clientId : Uuid} {client : Client}
    (sound : client.Sound build session clientId)
    (kept : session.byClientId.get clientId = some ⟨clientId⟩ →
      session'.byClientId.get clientId = some ⟨clientId⟩) : client.Sound build session' clientId :=
  ⟨fun live => kept (sound.sender live), sound.decoder, sound.received⟩

theorem Client.sound_new (build : Build) (clientId : Uuid) {session : SessionManager} {live : Bool}
    (sender : live = true → session.byClientId.get clientId = some ⟨clientId⟩) :
    ({ live, session := .new clientId } : Client).Sound build session clientId :=
  ⟨sender, .new, fun p wrong => by cases wrong⟩

theorem Server.Background.session {event : Broker.Event} {broker next : Broker}
    (background : Server.Background event) (step : broker.Step event next) :
    next.session = broker.session := by
  cases step with
  | task spawned draws =>
    rw [Broker.runTask_session]
    rfl
  | take clientId => rfl
  | close clientId => rfl
  | rehash sameTopics sameRetain => rfl
  | _ => cases background

namespace Server.Sound

variable {server : Server}

theorem new (build : Build) : Server.new.Sound build where
  connected := fun mqttId clientId wrong => by cases wrong
  messages := .new
  clients := fun clientId => Client.sound_new build clientId fun wrong => by cases wrong

theorem accept (sound : server.Sound build) (clientId : Uuid) :
    (server.accept clientId).Sound build := by
  have kept : ∀ other, server.broker.session.byClientId.get other = some ⟨other⟩ →
      (server.broker.accept clientId).session.byClientId.get other = some ⟨other⟩ := by
    intro other sender
    simp only [Broker.accept, SessionManager.registerClientId, DashMap.get_insert]
    split
    · next same => rw [same]
    · exact sender
  refine ⟨fun mqttId other known => kept other (sound.connected mqttId other known),
    sound.messages.accept clientId, ?_⟩
  apply forall_update (P := fun other client => client.Sound build _ other)
  · apply Client.sound_new
    intro _
    exact DashMap.get_insert_self _ _ _
  · exact fun other => (sound.clients other).mono (kept other)

/-- The future of an accepted client. -/
theorem resolve (sound : server.Sound build) {clientId : Uuid}
    (live : (server.clients clientId).live = true) (read : SocketRead) (ready : Bool) :
    let broker := (server.resolve (server.clients clientId) clientId read ready).2.1
    broker.session.Connected ∧ broker.Keeps Publish.Carries ∧
      broker.session.byClientId = server.broker.session.byClientId := by
  have own := sound.clients clientId
  obtain same | ⟨req, _, after⟩ | ⟨req, phase, after⟩ :=
    server.resolve_broker (server.clients clientId) clientId read ready
  · rw [same]
    exact ⟨sound.connected, sound.messages, rfl⟩
  · rw [after]
    have messages := sound.messages.onConnect clientId (server.clients clientId).mqttId req
    cases req with
    | connect p =>
      simp only [Broker.onConnect] at messages ⊢
      split
      · next accepts =>
        rw [if_pos accepts] at messages
        refine ⟨fun mqttId other known => ?_, messages, rfl⟩
        simp only [SessionManager.setProtocolVersion, SessionManager.registerMqttId,
          DashMap.get_insert] at known
        split at known
        · cases known
          exact own.sender live
        · exact sound.connected mqttId other known
      · exact ⟨sound.connected, sound.messages, rfl⟩
    | _ => exact ⟨sound.connected, sound.messages, rfl⟩
  · rw [after]
    have sameSenders := server.broker.handle_byClientId (server.clients clientId).mqttId req
    refine ⟨fun mqttId other known => ?_, ?_, sameSenders⟩
    · rw [sameSenders]
      exact sound.connected mqttId other (Broker.handle_registered known)
    · apply sound.messages.handle
      rintro p rfl full
      exact ⟨full, (own.received p phase).payloadLength_ne_zero.mp full⟩

theorem poll (sound : server.Sound build) {clientId : Uuid}
    (live : (server.clients clientId).live = true) (read : SocketRead) (ready : Bool) :
    (server.poll build clientId read ready).Sound build := by
  have resolves := sound.resolve live read ready
  cases given : server.resolve (server.clients clientId) clientId read ready with | mk input behind =>
  obtain ⟨broker, mqttId⟩ := behind
  rw [given] at resolves
  obtain ⟨connected, messages, senders⟩ := resolves
  dsimp only at connected messages senders
  have kept : ∀ (other : Uuid) (client : Client), client.Sound build server.broker.session other →
      client.Sound build broker.session other := by
    intro other client held
    apply held.mono
    rw [senders]
    exact id
  rw [Server.poll_eq given]
  refine ⟨connected, messages.withChannels _, ?_⟩
  apply forall_update (P := fun other client => client.Sound build broker.session other)
  · exact kept _ _ ((sound.clients clientId).polled _ mqttId)
  · exact fun other => kept _ _ (sound.clients other)

/-- A change that leaves the session manager alone. -/
theorem withBroker (sound : server.Sound build) {broker : Broker}
    (session : broker.session = server.broker.session) (messages : broker.Keeps Publish.Carries) :
    ({ server with broker } : Server).Sound build := by
  refine ⟨?_, messages, ?_⟩
  · rw [session]
    exact sound.connected
  · rw [session]
    exact sound.clients

theorem background (sound : server.Sound build) {event : Broker.Event} {broker : Broker}
    (background : Server.Background event) (step : server.broker.Step event broker) :
    ({ server with broker } : Server).Sound build := by
  exact sound.withBroker (background.session step) (sound.messages.background step background)

theorem step {event : Server.Event} {next : Server} (sound : server.Sound build)
    (step : server.Step build event next) : next.Sound build := by
  cases step with
  | accept fresh => exact sound.accept _
  | poll live goesOn read ready => exact sound.poll live read ready
  | background background step => exact sound.background background step

end Server.Sound

theorem Server.Reachable.sound {server : Server} (reachable : server.Reachable build) :
    server.Sound build :=
  reachable.invariant (.new build) fun _ _ _ sound step => sound.step step

end Aqua
