import Aqua.Soundness.VersionPerConnection

/-! # The codes of a SUBACK

The service collects one code for each filter, but only under an MQTT id that is not empty: it takes the empty id
for a connection without a client. The connect service accepts and stores an empty client id, so such a client
gets a SUBACK without codes. A version is stored for every client, so there is always a SUBACK.
-/

namespace Aqua

open Wire Runtime

/-- Behind an accepted CONNECT the MQTT id is the client id of the CONNECT. -/
def Client.Joined (client : Client) : Prop :=
  ∀ first res, .connectCalled (.connect first) ∈ client.session.trace →
    .connectResolved res ∈ client.session.trace → client.mqttId = first.clientId.value

/-- The MQTT id of a CONNECT that is accepted. -/
theorem onConnect_mqttId {broker : Broker} {clientId : Uuid} {mqttId : String} {first : Connect}
    {res : ConnackResponse} (accepts : (broker.onConnect clientId mqttId (.connect first)).1 = .ok res) :
    (broker.onConnect clientId mqttId (.connect first)).2.2 = first.clientId.value := by
  simp only [Broker.onConnect] at accepts ⊢
  split
  · rfl
  · next refused =>
    rw [if_neg refused] at accepts
    cases accepts

/-- A poll in which no CONNECT is accepted. -/
theorem Client.Joined.kept {client : Client} (joined : client.Joined)
    (inPhase : InPhase Server.services client.session) (goesOn : client.session.result = .ok none) (build : Build)
    (channel : OutboundChannel) {input : PollInput MqttError} (unresolved : ∀ res, input.connect ≠ .ok (some res)) :
    ({ client with session := client.session.poll build Server.services (channel, input) } : Client).Joined := by
  intro first res called resolved
  have polls := client.session.connection.polls build Server.services channel input
  simp only [Session.poll, goesOn, List.mem_append] at called resolved
  have before := resolved.resolve_right fun now => unresolved res (polls.resolved now)
  rcases called with earlier | late
  · exact joined first res earlier before
  · have reached := inPhase.2 goesOn
    rw [(polls.called late).1] at reached
    rw [show client.session.trace = [] from reached] at before
    cases before

private theorem Client.Joined.polled {server : Server} {clientId : Uuid} (joined : (server.clients clientId).Joined)
    (inPhase : InPhase Server.services (server.clients clientId).session)
    (goesOn : (server.clients clientId).session.result = .ok none) (build : Build) (read : SocketRead)
    (ready : Bool) : ((server.poll build clientId read ready).clients clientId).Joined := by
  have reached := inPhase.2 goesOn
  have accepts := @Server.resolve_connect server (server.clients clientId) clientId read ready
  have refuses := @Server.resolve_mqttId server (server.clients clientId) clientId read ready
  cases given : server.resolve (server.clients clientId) clientId read ready with | mk input behind =>
  obtain ⟨broker, mqttId⟩ := behind
  rw [given] at accepts refuses
  rw [Server.poll_eq given]
  dsimp only at accepts refuses ⊢
  rw [Function.update_self]
  by_cases accepted : ∃ res, input.connect = .ok (some res)
  · obtain ⟨res, accepted⟩ := accepted
    obtain ⟨req, phase, accepts, behind⟩ := accepts accepted
    rw [phase] at reached
    obtain ⟨first, rfl, trace⟩ := reached
    rw [show Server.services.connect (.connect first) = .connect first from rfl] at accepts behind
    intro other res' called _
    simp only [Session.poll, goesOn, Connection.poll, phase, trace, accepted] at called
    have before := (List.mem_append.mp called).resolve_right (by simp)
    rw [called_first before, ← onConnect_mqttId accepts, ← behind]
  · rw [not_exists] at accepted
    rw [refuses accepted]
    exact joined.kept inPhase goesOn build _ accepted

/-- The versions, and the MQTT ids of the clients. -/
structure ServerJoined (server : Server) : Prop where
  versions : ServerV4 server
  joined : ∀ clientId, (server.clients clientId).Joined

theorem client_joined_fresh (live : Bool) (clientId : Uuid) :
    ({ live, session := .new clientId } : Client).Joined :=
  fun first res called => by cases called

theorem ServerJoined.step {build : Build} {server next : Server} {event : Server.Event}
    (held : ServerJoined server) (step : server.Step build event next) : ServerJoined next := by
  refine ⟨held.versions.step step, ?_⟩
  cases step with
  | accept fresh =>
    exact Server.forall_update (P := fun _ client => client.Joined) (client_joined_fresh _ _) held.joined
  | @poll clientId live goesOn read ready =>
    intro other
    by_cases same : other = clientId
    · rw [same]
      exact (held.joined clientId).polled (held.versions.clients clientId).inPhase goesOn build read ready
    · rw [Server.poll]
      dsimp only
      rw [Function.update_of_ne same]
      exact held.joined other
  | background background step => exact held.joined

private theorem Server.Reachable.joined {build : Build} {server : Server} (reachable : server.Reachable build) :
    ServerJoined server :=
  reachable.invariant ⟨serverV4_new, fun clientId => client_joined_fresh _ clientId⟩
    fun _ _ _ held step => held.step step

/-- A service is called behind an accepted CONNECT only. -/
theorem Reached.accepted {F CF : Type} {services : Services F CF} {trace : List Action} {fut : F}
    (reached : Reached services trace (.processingService fut)) :
    ∃ first res, .connectCalled (.connect first) ∈ trace ∧ .connectResolved res ∈ trace := by
  obtain ⟨script, request, -, rfl⟩ := reached
  refine ⟨script.first, script.res, ?_, ?_⟩ <;> simp [Script.actions, Script.prelude]

namespace Server.Reachable

variable {build : Build} {server : Server} {clientId : Uuid}

/-- Behind an accepted CONNECT a version is stored for the MQTT id of the connection. -/
theorem versioned (reachable : server.Reachable build) {first : Connect} {res : ConnackResponse}
    (declared : .connectCalled (.connect first) ∈ (server.clients clientId).session.trace)
    (accepted : .connectResolved res ∈ (server.clients clientId).session.trace) :
    server.broker.session.getProtocolVersion (server.clients clientId).mqttId = some level4 := by
  rw [reachable.joined.joined clientId first res declared accepted]
  exact (reachable.joined.versions.clients clientId).stored first res declared accepted

/-- So it is when a service processes a request. -/
theorem versioned_of_service (reachable : server.Reachable build) {req : ControlPacket}
    (goesOn : (server.clients clientId).session.result = .ok none)
    (phase : (server.clients clientId).session.connection.state = .processingService req) :
    server.broker.session.getProtocolVersion (server.clients clientId).mqttId = some level4 := by
  have reached := (reachable.joined.versions.clients clientId).inPhase.2 goesOn
  rw [phase] at reached
  obtain ⟨first, res, declared, accepted⟩ := reached.accepted
  exact reachable.versioned declared accepted

end Server.Reachable

/-- The codes the service collects. -/
def collectedCodes (mqttId : String) (filters : List (TopicFilter × SubscribeOption)) :
    List SubackReasonCode :=
  if mqttId ≠ "" then filters.map fun filter => .ofQoS filter.2.qos else []

theorem Broker.subscribe_answer {self : Broker} {mqttId : String} {version : ProtocolVersion}
    (versioned : self.session.getProtocolVersion mqttId = some version) (p : Subscribe) :
    (self.handle mqttId (.subscribe p)).1 = .ok ⟨.suback {
      packetId := p.packetId
      subackProperties := none
      reasonCodes := collectedCodes mqttId p.topicFilters
      protocolVersion := version } ::
        (self.collectRetained p.topicFilters).packets.map ControlPacket.publish⟩ := by
  simp only [handle, onSubscribe, versioned]
  rfl

/-- The code grants the filter its QoS or refuses it. -/
def Decides (filter : TopicFilter × SubscribeOption) (code : SubackReasonCode) : Prop :=
  code = .ofQoS filter.2.qos ∨ 0x80 ≤ code.toByte

/-- The service answers with a SUBACK that has the packet identifier and one code for each filter. -/
def AnsweredEach (self : Broker) (mqttId : String) (p : Subscribe) : Prop :=
  ∃ suback rest, (self.handle mqttId (.subscribe p)).1 = .ok ⟨.suback suback :: rest⟩ ∧
    suback.packetId = p.packetId ∧ List.Forall₂ Decides p.topicFilters suback.reasonCodes

private theorem answeredEach_iff {self : Broker} {mqttId : String} {version : ProtocolVersion}
    (versioned : self.session.getProtocolVersion mqttId = some version) (p : Subscribe) :
    AnsweredEach self mqttId p ↔ mqttId ≠ "" ∨ p.topicFilters = [] := by
  have answer := self.subscribe_answer versioned p
  constructor
  · rintro ⟨suback, rest, answered, _, each⟩
    rw [answer] at answered
    cases answered
    by_cases named : mqttId = ""
    · refine .inr (List.length_eq_zero_iff.mp ?_)
      rw [each.length_eq, collectedCodes, if_neg (not_not.mpr named), List.length_nil]
    · exact .inl named
  · intro named
    refine ⟨_, _, answer, rfl, ?_⟩
    rcases named with named | none
    · dsimp only
      rw [collectedCodes, if_pos named, List.forall₂_map_right_iff, List.forall₂_same]
      exact fun _ _ => .inl rfl
    · simp [none, collectedCodes]

/-- In every reachable state, a client whose CONNECT was accepted gets a code for each filter of a SUBSCRIBE if
and only if it has a name or the SUBSCRIBE no filters. -/
theorem subscribe_answered_iff {build : Build} {server : Server} (reachable : server.Reachable build)
    {clientId : Uuid} {first : Connect} {res : ConnackResponse}
    (declared : .connectCalled (.connect first) ∈ (server.clients clientId).session.trace)
    (accepted : .connectResolved res ∈ (server.clients clientId).session.trace) (p : Subscribe) :
    AnsweredEach server.broker (server.clients clientId).mqttId p ↔
      first.clientId.value ≠ "" ∨ p.topicFilters = [] := by
  rw [← reachable.joined.joined clientId first res declared accepted]
  exact answeredEach_iff (reachable.versioned declared accepted) p

/-- A SUBSCRIBE with the filter `t`. -/
def subscribing : Subscribe := { packetId := ⟨7⟩, topicFilters := [(⟨"t"⟩, {})] }

theorem subscribe_answered_iff_named :
    AnsweredEach (joined (connectBytes 4 [])).broker ((joined (connectBytes 4 [])).clients ⟨0⟩).mqttId
      subscribing ↔ (connectOf 4).clientId.value ≠ "" ∨ subscribing.topicFilters = [] := by
  obtain ⟨reachable, trace⟩ := joined_reachable (.inl rfl)
  exact subscribe_answered_iff reachable (by rw [trace]; exact .tail _ (.head _))
    (by rw [trace]; exact .tail _ (.tail _ (.head _))) subscribing

/-- A CONNECT with an empty client id. -/
def namelessBytes : Bytes :=
  [0x10, 0x0c, 0x00, 0x04, 0x4d, 0x51, 0x54, 0x54, 0x04, 0x02, 0x00, 0x3c, 0x00, 0x00]

def nameless : Connect where
  protocolName := ⟨"MQTT"⟩
  protocolVer := ⟨4⟩
  connectFlags := { cleanStart := true }
  keepalive := ⟨60⟩

private theorem nameless_reachable :
    (joined namelessBytes).Reachable ⟨false⟩ ∧
      ((joined namelessBytes).clients ⟨0⟩).session.trace = [.received (.connect nameless),
        .connectCalled (.connect nameless), .connectResolved { version := level4 }] := by
  have accepted : (Server.new.accept ⟨0⟩).Reachable ⟨false⟩ := (Server.Reachable.new _).step (.accept rfl)
  unfold joined
  refine ⟨.poll (.poll (.poll (accepted.poll ?_ ?_ _ _) ?_ ?_ _ _) ?_ ?_ _ _) ?_ ?_ _ _, ?_⟩ <;> rfl

/-- Its SUBACK has no code for the filter. -/
theorem nameless_not_answeredEach :
    ¬ ∀ (server : Server) (clientId : Uuid) (first : Connect) (res : ConnackResponse) (p : Subscribe),
      server.Reachable ⟨false⟩ →
      .connectCalled (.connect first) ∈ (server.clients clientId).session.trace →
      .connectResolved res ∈ (server.clients clientId).session.trace →
        AnsweredEach server.broker (server.clients clientId).mqttId p := by
  intro claim
  obtain ⟨reachable, trace⟩ := nameless_reachable
  have declared : .connectCalled (.connect nameless) ∈ ((joined namelessBytes).clients ⟨0⟩).session.trace := by
    rw [trace]
    exact .tail _ (.head _)
  have accepted : .connectResolved { version := level4 } ∈ ((joined namelessBytes).clients ⟨0⟩).session.trace := by
    rw [trace]
    exact .tail _ (.tail _ (.head _))
  have each := claim _ ⟨0⟩ nameless { version := level4 } subscribing reachable declared accepted
  rw [answeredEach_iff (reachable.versioned declared accepted),
    reachable.joined.joined ⟨0⟩ nameless _ declared accepted] at each
  exact absurd each (by decide)

end Aqua
