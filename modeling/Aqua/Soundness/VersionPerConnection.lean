import Aqua.Proofs.Enqueued
import Aqua.Soundness.ConnectionPhases

/-! # The protocol version of a connection

The connect service answers every CONNECT with the version 4 and stores that version for the client,
whatever the client declared, while the decoder of the connection takes the declared one. So every
packet that is sent speaks version 4, and the versions of a connection agree exactly for the clients
that declared 4.
-/

namespace Aqua

open Wire Runtime

/-- The version a packet is encoded with. -/
def ControlPacket.version : ControlPacket → Option ProtocolVersion
  | .connack p => some p.version
  | .publish p => some p.protocolVersion
  | .suback p => some p.protocolVersion
  | .unsuback p => some p.protocolVersion
  | .puback p => some p.protocolVersion
  | .pubrec p => some p.protocolVersion
  | .pubrel p => some p.protocolVersion
  | .pubcomp p => some p.protocolVersion
  | _ => none

/-- The version the connect service writes. -/
def level4 : ProtocolVersion := ⟨0x04⟩

/-- A packet that is encoded with version 4, if with any. -/
def ControlPacket.Speaks4 (self : ControlPacket) : Prop := ∀ v, self.version = some v → v = level4

/-- Every version the connections share is 4. -/
structure AllV4 (broker : Broker) : Prop where
  versions : ∀ mqttId v, broker.session.mqttVersion.get mqttId = some v → v = level4
  messages : broker.Keeps fun message => message.protocolVersion = level4
  channels : ∀ clientId, ∀ packet ∈ (broker.channels clientId).accepted, packet.Speaks4

namespace AllV4

variable {broker : Broker}

private theorem new : AllV4 .new where
  versions := fun mqttId v wrong => by cases wrong
  messages := .new
  channels := fun _ => List.forall_mem_nil _

theorem versionOf (all : AllV4 broker) (mqttId : String) : broker.versionOf mqttId = level4 := by
  unfold Broker.versionOf SessionManager.getProtocolVersion
  cases known : broker.session.mqttVersion.get mqttId with
  | none => rfl
  | some v => exact all.versions mqttId v known

/-- A change of one channel. -/
theorem onChannel {clientId : Uuid} {change : OutboundChannel → OutboundChannel} (all : AllV4 broker)
    (speaks : ∀ packet ∈ (change (broker.channels clientId)).accepted, packet.Speaks4) :
    AllV4 (broker.onChannel clientId change) where
  versions := all.versions
  messages := all.messages.withChannels _
  channels := Broker.Enqueued.onChannel all.channels speaks

theorem onConnect (all : AllV4 broker) (clientId : Uuid) (mqttId : String) (req : ControlPacket) :
    AllV4 (broker.onConnect clientId mqttId req).2.1 ∧
      ∀ res, (broker.onConnect clientId mqttId req).1 = .ok res → res.version = level4 := by
  have messages := all.messages.onConnect clientId mqttId req
  cases req with
  | connect p =>
    simp only [Broker.onConnect] at messages ⊢
    split
    · next accepts =>
      rw [if_pos accepts] at messages
      refine ⟨⟨?_, messages, all.channels⟩, ?_⟩
      · intro other v found
        simp only [SessionManager.setProtocolVersion, DashMap.get_insert] at found
        split at found
        · cases found
          rfl
        · exact all.versions other v found
      · intro res accepted
        cases accepted
        rfl
    · exact ⟨all, fun res wrong => by cases wrong⟩
  | _ => exact ⟨all, fun res wrong => by cases wrong⟩

private theorem handle (all : AllV4 broker) (mqttId : String) (packet : ControlPacket) :
    AllV4 (broker.handle mqttId packet).2 where
  versions := by rw [Broker.handle_mqttVersion]; exact all.versions
  messages := all.messages.handle fun _ _ _ => all.versionOf mqttId
  channels := by rw [Broker.handle_channels]; exact all.channels

/-- A service answers with packets that speak version 4. -/
theorem answer {mqttId : String} {packet : ControlPacket} {res : Response} (all : AllV4 broker)
    (answers : (broker.handle mqttId packet).1 = .ok res) :
    ∀ packet ∈ res.packets, packet.Speaks4 := by
  have version := all.versionOf mqttId
  have single : ∀ {packet : ControlPacket}, .ok (Response.new packet) = (.ok res : Result Response) →
      packet.Speaks4 → ∀ packet ∈ res.packets, packet.Speaks4 := by
    rintro packet same speaks other member
    cases same
    rwa [List.mem_singleton.mp member]
  have silent : ∀ {packet : ControlPacket}, packet.version = none → packet.Speaks4 :=
    fun none v some => by rw [none] at some; cases some
  have speaking : ∀ {packet : ControlPacket}, packet.version = some (broker.versionOf mqttId) →
      packet.Speaks4 := by
    intro packet own v some
    rw [own, version] at some
    exact (Option.some.inj some).symm
  cases packet with
  | connect p => cases answers
  | publish p =>
    simp only [Broker.handle, Broker.onPublish] at answers
    split at answers
    · cases answers
    · cases answers
    · exact single answers (speaking rfl)
    · split at answers
      · exact single answers (speaking rfl)
      · exact single answers (silent rfl)
  | subscribe p =>
    simp only [Broker.handle, Broker.onSubscribe] at answers
    split at answers
    · next v known =>
      cases answers
      rw [List.forall_mem_cons]
      constructor
      · intro other own
        cases own
        exact all.versions mqttId v known
      · intro packet member
        obtain ⟨message, kept, rfl⟩ := List.mem_map.mp member
        intro other own
        cases own
        exact (all.messages.collectRetained p.topicFilters).2 message kept
    · cases answers
  | pubrel p => exact single answers (speaking rfl)
  | pubrec p => exact single answers (speaking rfl)
  | _ => exact single answers (silent rfl)

theorem copies {task : Task} {msg : Publish} (version : task.message.protocolVersion = level4)
    (copies : task.Copies msg) : (ControlPacket.publish msg).Speaks4 := by
  intro v own
  cases own
  cases copies <;> exact version

private theorem background {event : Broker.Event} {next : Broker} (all : AllV4 broker)
    (step : broker.Step event next) (background : Server.Background event) : AllV4 next where
  versions := by
    rw [background.session step]
    exact all.versions
  messages := all.messages.background step background
  channels := by
    refine Broker.Enqueued.background all.channels (fun task spawned msg made => ?_) step background
    exact copies (all.messages.tasks task spawned) made

end AllV4

namespace Connection.Polls

variable {F CF ε : Type} {build : Build} {services : Services F CF} {connection : Connection F CF}
  {channel : OutboundChannel} {input : PollInput ε} {polled : Connection.Polled ε F CF}

/-- The actions of a poll in which a response is written are offers. -/
theorem offers {response : Response} {written : Connection.Written} {final : OutboundChannel}
    {actions : List Action}
    (wrote : Connection.writePackets input.others 0 response.packets channel = (written, final, actions)) :
    ∀ action ∈ actions, ∃ packet found, action = .offered packet found := by
  obtain ⟨offers, _, offered, _⟩ := writePackets_offers input.others response.packets 0 channel
  rw [wrote] at offered
  intro action member
  rw [show actions = offers.actions from offered] at member
  exact mem_offers_actions member

/-- The connect service is called on a new connection, whose decoder gets the declared version, and has no result
yet. -/
theorem called (polls : Connection.Polls build services connection channel input polled)
    {packet : ControlPacket} (member : .connectCalled packet ∈ polled.actions) :
    connection.state = .preConnection ∧
      (∀ first, packet = .connect first →
        polled.connection.decoder.protocolVersion = some first.protocolVer) ∧
      ∀ res, .connectResolved res ∉ polled.actions := by
  cases polls with
  | connects state next decodes version =>
    simp only [List.mem_cons, reduceCtorEq, Action.connectCalled.injEq, false_or, List.not_mem_nil,
      or_false] at member
    refine ⟨state, ?_, by simp⟩
    rintro first rfl
    cases member
    exact congrArg Decoder.protocolVersion version
  | writes state wrote ends =>
    obtain ⟨_, _, wrong⟩ := offers wrote _ member
    cases wrong
  | _ => simp at member

/-- Where a CONNECT is accepted, its future was ready. -/
theorem resolved (polls : Connection.Polls build services connection channel input polled)
    {res : ConnackResponse} (member : .connectResolved res ∈ polled.actions) :
    input.connect = .ok (some res) := by
  cases polls with
  | accepts state resolved =>
    rw [List.mem_singleton] at member
    cases member
    exact resolved
  | writes state wrote ends =>
    obtain ⟨_, _, wrong⟩ := offers wrote _ member
    cases wrong
  | _ => simp at member

/-- The version of the decoder changes on a new connection only. -/
theorem protocolVersion (polls : Connection.Polls build services connection channel input polled) :
    polled.connection.decoder.protocolVersion = connection.decoder.protocolVersion ∨
      connection.state = .preConnection := by
  cases polls with
  | waits state decodes => exact .inl decodes.protocolVersion
  | fails idle ready state decodes => exact .inl decodes.protocolVersion
  | connects state next decodes version => exact .inr state
  | refuses state other next decodes => exact .inr state
  | reads state next decodes => exact .inl decodes.protocolVersion
  | _ => exact .inl rfl

end Connection.Polls

/-- The versions of one connection: the decoder has the declared one, the CONNACK and the responses
speak 4, and behind the connect service 4 is stored for the client. -/
structure ClientV4 (broker : Broker) (client : Client) : Prop where
  inPhase : InPhase Server.services client.session
  outgoing : ∀ packet ∈ client.session.connection.state.outgoing, packet.Speaks4
  decoder : ∀ first, .connectCalled (.connect first) ∈ client.session.trace →
    client.session.connection.decoder.protocolVersion = some first.protocolVer
  stored : ∀ first res, .connectCalled (.connect first) ∈ client.session.trace →
    .connectResolved res ∈ client.session.trace →
      broker.session.mqttVersion.get first.clientId.value = some level4

/-- The version 4 stays stored. -/
def Stores (broker broker' : Broker) : Prop :=
  ∀ mqttId, broker.session.mqttVersion.get mqttId = some level4 →
    broker'.session.mqttVersion.get mqttId = some level4

theorem ClientV4.mono {broker broker' : Broker} {client : Client} (versions : ClientV4 broker client)
    (stores : Stores broker broker') : ClientV4 broker' client :=
  ⟨versions.inPhase, versions.outgoing, versions.decoder,
    fun first res called resolved => stores _ (versions.stored first res called resolved)⟩

theorem stores_of_eq {broker broker' : Broker}
    (same : broker'.session.mqttVersion = broker.session.mqttVersion) : Stores broker broker' := by
  intro mqttId stored
  rwa [same]

private theorem onConnect_stores (broker : Broker) (clientId : Uuid) (mqttId : String) (req : ControlPacket) :
    Stores broker (broker.onConnect clientId mqttId req).2.1 := by
  intro other stored
  cases req with
  | connect p =>
    simp only [Broker.onConnect]
    split
    · simp only [SessionManager.setProtocolVersion, DashMap.get_insert]
      split
      · rfl
      · exact stored
    · exact stored
  | _ => exact stored

/-- The connect service stores 4 for the client it accepts. -/
private theorem onConnect_stored {broker : Broker} {clientId : Uuid} {mqttId : String} {first : Connect}
    {res : ConnackResponse}
    (accepts : (broker.onConnect clientId mqttId (.connect first)).1 = .ok res) :
    (broker.onConnect clientId mqttId (.connect first)).2.1.session.mqttVersion.get
      first.clientId.value = some level4 := by
  simp only [Broker.onConnect] at accepts ⊢
  split
  · exact DashMap.get_insert_self _ _ _
  · next refused =>
    rw [if_neg refused] at accepts
    cases accepts

/-- What a future that is ready gives a connection speaks version 4, and the connect service has stored
that version. -/
structure Resolved4 (client : Client) (broker : Broker) (input : PollInput MqttError) : Prop where
  all : AllV4 broker
  alone : input.others = fun _ => []
  connect : ∀ res, input.connect = .ok (some res) → res.version = level4 ∧
    ∀ first, .connectCalled (.connect first) ∈ client.session.trace →
      broker.session.mqttVersion.get first.clientId.value = some level4
  service : ∀ res, input.service = .ok (some res) → ∀ packet ∈ res.packets, packet.Speaks4

/-- The connect service is called with the first packet. -/
theorem called_first {first other : Connect}
    (called : .connectCalled (.connect other) ∈
      [Action.received (.connect first), .connectCalled (.connect first)]) : other = first := by
  simpa using called

private theorem resolve_keeps {server : Server} {client : Client} (all : AllV4 server.broker)
    (versions : ClientV4 server.broker client) (goesOn : client.session.result = .ok none)
    (clientId : Uuid) (read : SocketRead) (ready : Bool) :
    Stores server.broker (server.resolve client clientId read ready).2.1 ∧
      Resolved4 client (server.resolve client clientId read ready).2.1
        (server.resolve client clientId read ready).1 := by
  have reached := versions.inPhase.2 goesOn
  obtain ⟨stores, keeps⟩ : Stores server.broker (server.resolve client clientId read ready).2.1 ∧
      AllV4 (server.resolve client clientId read ready).2.1 := by
    obtain same | ⟨req, _, after⟩ | ⟨req, _, after⟩ := server.resolve_broker client clientId read ready
    · rw [same]
      exact ⟨stores_of_eq rfl, all⟩
    · rw [after]
      exact ⟨onConnect_stores _ _ _ req, (all.onConnect _ _ req).1⟩
    · rw [after]
      exact ⟨stores_of_eq (server.broker.handle_mqttVersion _ req), all.handle _ req⟩
  refine ⟨stores, keeps, funext (server.resolve_others client clientId read ready), ?_, ?_⟩
  · intro res accepted
    obtain ⟨req, phase, accepts, behind⟩ := Server.resolve_connect accepted
    rw [phase] at reached
    obtain ⟨first, rfl, trace⟩ := reached
    rw [show Server.services.connect (.connect first) = .connect first from rfl] at accepts behind
    refine ⟨(all.onConnect _ _ _).2 res accepts, fun other called => ?_⟩
    rw [trace] at called
    rw [called_first called, behind]
    exact onConnect_stored accepts
  · intro res answers
    obtain ⟨req, _, answered⟩ := Server.resolve_service answers
    exact all.answer answered

/-- What a poll of a client keeps, once its future has given what it gives. -/
theorem ClientV4.polled {broker : Broker} {client : Client} {input : PollInput MqttError}
    (versions : ClientV4 broker client) (resolved : Resolved4 client broker input)
    (goesOn : client.session.result = .ok none) (build : Build) (mqttId : String)
    (channel : OutboundChannel) :
    ClientV4 broker
      { client with mqttId, session := client.session.poll build Server.services (channel, input) } := by
  have reached := versions.inPhase.2 goesOn
  have inPhase := @poll_inPhase _ _ _ build _ client.session (channel, input) versions.inPhase
  have polls := client.session.connection.polls build Server.services channel input
  have fresh : client.session.connection.state = .preConnection → client.session.trace = [] := by
    intro start
    rw [start] at reached
    exact reached
  refine ⟨inPhase, ?_, ?_, ?_⟩
  · intro packet member
    simp only [Session.poll, goesOn] at member
    rcases polls.outgoing member with before | ⟨res, accepted, rfl⟩ | ⟨res, answers, among⟩
    · exact versions.outgoing packet before
    · intro v own
      exact (Option.some.inj own).symm.trans (resolved.connect res accepted).1
    · exact resolved.service res answers packet among
  · intro first called
    simp only [Session.poll, goesOn, List.mem_append] at called ⊢
    rcases called with before | late
    · rcases polls.protocolVersion with same | start
      · rw [same]
        exact versions.decoder first before
      · rw [fresh start] at before
        cases before
    · exact (polls.called late).2.1 first rfl
  · intro first res called accepted
    simp only [Session.poll, goesOn, List.mem_append] at called accepted
    rcases called with before | late
    · rcases accepted with earlier | now
      · exact versions.stored first res before earlier
      · exact (resolved.connect res (polls.resolved now)).2 first before
    · obtain ⟨start, _, alone⟩ := polls.called late
      rw [fresh start] at accepted
      exact absurd (accepted.resolve_left List.not_mem_nil) (alone res)

/-- The versions of the shared state and of every connection. -/
structure ServerV4 (server : Server) : Prop where
  broker : AllV4 server.broker
  clients : ∀ clientId, ClientV4 server.broker (server.clients clientId)

private theorem clientV4_fresh (broker : Broker) (live : Bool) (mqttId : String) (clientId : Uuid) :
    ClientV4 broker { live, mqttId, session := .new clientId } where
  inPhase := @run_inPhase _ _ _ ⟨false⟩ _ clientId []
  outgoing := List.forall_mem_nil _
  decoder := fun first called => by cases called
  stored := fun first res called _ => by cases called

theorem serverV4_new : ServerV4 .new where
  broker := .new
  clients := fun clientId => clientV4_fresh _ _ _ clientId

private theorem background_stores {broker next : Broker} {event : Broker.Event}
    (step : broker.Step event next) (background : Server.Background event) : Stores broker next := by
  cases step with
  | task spawned draws =>
    apply stores_of_eq
    rw [Broker.runTask_session]
    rfl
  | take clientId => exact stores_of_eq rfl
  | close clientId => exact stores_of_eq rfl
  | rehash sameTopics sameRetain => exact stores_of_eq rfl
  | _ => cases background

/-- A step that gives one client a new state. -/
private theorem ServerV4.update {server : Server} {broker : Broker} {clientId : Uuid} {client : Client}
    (versions : ServerV4 server) (all : AllV4 broker) (stores : Stores server.broker broker)
    (own : ClientV4 broker client) :
    ServerV4 ⟨broker, Function.update server.clients clientId client⟩ where
  broker := all
  clients := Server.forall_update (P := fun _ client => ClientV4 broker client) own
    fun other => (versions.clients other).mono stores

theorem ServerV4.step {build : Build} {server next : Server} {event : Server.Event}
    (versions : ServerV4 server) (step : server.Step build event next) : ServerV4 next := by
  cases step with
  | @accept clientId fresh =>
    have all : AllV4 (server.broker.accept clientId) :=
      ⟨versions.broker.versions, versions.broker.messages.accept clientId,
        Broker.Enqueued.accept versions.broker.channels clientId⟩
    exact versions.update all (stores_of_eq rfl) (clientV4_fresh _ _ _ _)
  | @poll clientId live goesOn read ready =>
    have own := versions.clients clientId
    obtain ⟨stores, resolved⟩ := resolve_keeps versions.broker own goesOn clientId read ready
    cases given : server.resolve (server.clients clientId) clientId read ready with | mk input behind =>
    obtain ⟨broker, mqttId⟩ := behind
    rw [given] at stores resolved
    rw [Server.poll_eq given]
    have polled := (own.mono stores).polled resolved goesOn build mqttId (broker.channels clientId)
    apply versions.update
    · apply resolved.all.onChannel
      intro packet member
      rcases mem_poll_channel (Connection.polls _ _ _ _ _) resolved.alone member with before | sent
      · exact resolved.all.channels clientId packet before
      · exact own.outgoing packet sent
    · exact stores
    · exact polled.mono (stores_of_eq rfl)
  | background background step =>
    have stores := background_stores step background
    exact ⟨versions.broker.background step background,
      fun clientId => (versions.clients clientId).mono stores⟩

private theorem serverV4_of_reachable {build : Build} {server : Server}
    (reachable : server.Reachable build) : ServerV4 server :=
  reachable.invariant serverV4_new fun _ _ _ versions step => versions.step step

/-- Every packet enqueued to the connection, its decoder, and what is stored for the client of its
CONNECT have the version of the CONNECT. -/
structure OneVersion (server : Server) (clientId : Uuid) (first : Connect) : Prop where
  packets : ∀ packet ∈ (server.broker.channels clientId).accepted, ∀ v,
    packet.version = some v → v = first.protocolVer
  decoder : (server.clients clientId).session.connection.decoder.protocolVersion =
    some first.protocolVer
  stored : server.broker.session.getProtocolVersion first.clientId.value = some first.protocolVer

/-- In every reachable state, a client whose CONNECT was accepted has one version on its connection
exactly if it declared 4. -/
theorem version_per_connection_iff {build : Build} {server : Server}
    (reachable : server.Reachable build) {clientId : Uuid} {first : Connect} {res : ConnackResponse}
    (declared : .connectCalled (.connect first) ∈ (server.clients clientId).session.trace)
    (accepted : .connectResolved res ∈ (server.clients clientId).session.trace) :
    OneVersion server clientId first ↔ first.protocolVer.value = 4 := by
  have versions := serverV4_of_reachable reachable
  have own := versions.clients clientId
  have stored : server.broker.session.getProtocolVersion first.clientId.value = some level4 :=
    own.stored first res declared accepted
  constructor
  · intro one
    rw [← Option.some.inj (stored.symm.trans one.stored)]
    rfl
  · intro four
    have same : first.protocolVer = level4 := congrArg ProtocolVersion.mk four
    rw [← same] at stored
    refine ⟨fun packet member v speaks => ?_, own.decoder first declared, stored⟩
    rw [same]
    exact versions.broker.channels clientId packet member v speaks

/-- A CONNECT of the client `a` with the version `level`. -/
def connectOf (level : UInt8) : Connect where
  protocolName := ⟨"MQTT"⟩
  protocolVer := ⟨level⟩
  connectFlags := { cleanStart := true }
  keepalive := ⟨60⟩
  clientId := ⟨"a"⟩

/-- Its bytes; version 5 has a property length. -/
def connectBytes (level : UInt8) (properties : Bytes) : Bytes :=
  [0x10, 13 + UInt8.ofNat properties.length, 0x00, 0x04, 0x4d, 0x51, 0x54, 0x54, level, 0x02, 0x00, 0x3c] ++
    properties ++ [0x00, 0x01, 0x61]

/-- A server behind this CONNECT, which takes three polls and one of the connect service. -/
def joined (bytes : Bytes) : Server :=
  let accepted := Server.new.accept ⟨0⟩
  let received := accepted.poll ⟨false⟩ ⟨0⟩ (.ready bytes) false
  let decoded := (received.poll ⟨false⟩ ⟨0⟩ .pending false).poll ⟨false⟩ ⟨0⟩ .pending false
  decoded.poll ⟨false⟩ ⟨0⟩ .pending true

/-- What happened on the connection up to there. -/
def joinedTrace (level : UInt8) : List Action :=
  [.received (.connect (connectOf level)), .connectCalled (.connect (connectOf level)),
    .connectResolved { version := level4 }]

theorem joined_reachable {level : UInt8} {properties : Bytes}
    (known : (level, properties) = (4, []) ∨ (level, properties) = (5, [0])) :
    (joined (connectBytes level properties)).Reachable ⟨false⟩ ∧
      ((joined (connectBytes level properties)).clients ⟨0⟩).session.trace = joinedTrace level := by
  have accepted : (Server.new.accept ⟨0⟩).Reachable ⟨false⟩ := (Server.Reachable.new _).step (.accept rfl)
  unfold joined
  rcases known with same | same <;> cases same
  · refine ⟨.poll (.poll (.poll (accepted.poll ?_ ?_ _ _) ?_ ?_ _ _) ?_ ?_ _ _) ?_ ?_ _ _, ?_⟩ <;> rfl
  · refine ⟨.poll (.poll (.poll (accepted.poll ?_ ?_ _ _) ?_ ?_ _ _) ?_ ?_ _ _) ?_ ?_ _ _, ?_⟩ <;> rfl

theorem version_per_connection_iff_level4 :
    OneVersion (joined (connectBytes 4 [])) ⟨0⟩ (connectOf 4) ↔ (connectOf 4).protocolVer.value = 4 := by
  obtain ⟨reachable, trace⟩ := joined_reachable (.inl rfl)
  exact version_per_connection_iff reachable (by rw [trace]; exact .tail _ (.head _))
    (by rw [trace]; exact .tail _ (.tail _ (.head _)))

/-- A client that declares 5 is stored with the version 4. -/
theorem level5_not_oneVersion :
    ¬ ∀ (server : Server) (clientId : Uuid) (first : Connect) (res : ConnackResponse),
      server.Reachable ⟨false⟩ →
      .connectCalled (.connect first) ∈ (server.clients clientId).session.trace →
      .connectResolved res ∈ (server.clients clientId).session.trace →
      first.protocolVer.value = 4 ∨ first.protocolVer.value = 5 →
        OneVersion server clientId first := by
  intro claim
  obtain ⟨reachable, trace⟩ := joined_reachable (.inr rfl)
  have one := claim _ ⟨0⟩ (connectOf 5) { version := level4 } reachable
    (by rw [trace]; exact .tail _ (.head _)) (by rw [trace]; exact .tail _ (.tail _ (.head _))) (.inr rfl)
  exact absurd one.stored (by decide)

end Aqua
