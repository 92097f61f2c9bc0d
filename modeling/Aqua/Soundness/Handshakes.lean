import Aqua.Proofs.Handlers
import Aqua.Runtime.Calls
import Aqua.Runtime.Runs

/-! # QoS 2 handshakes

The messages that wait for their PUBREL are kept in one table, by packet identifier alone. Clients
choose their identifiers without regard to each other, and the identifiers of the messages a client
receives are not its own. The first part is about publishers among themselves, the second about a
publisher that receives messages at the same time.
-/

namespace Aqua

open Runtime

/-- A QoS 2 message as a decoder emits it. -/
structure Qos2Publish where
  publish : Publish
  packetId : PacketId
  qos2 : publish.qos = .qos2
  identified : publish.packetId = some packetId
  sized : publish.payloadLength = publish.payloadData.length

/-- The requests of QoS 2 handshakes, each with the client that sends it. -/
inductive Qos2Request where
  | publish (client : String) (message : Qos2Publish)
  | pubrel (client : String) (packet : Pubrel)
  | pubcomp (client : String) (packet : Pubcomp)

/-- Where a client is with one of its packet identifiers. -/
inductive Handshake where
  | idle
  | published (message : Qos2Publish)
  | released

/-- The broker, the handshakes as the clients see them, and the deliveries owed for every PUBREL that
released a message with a payload. -/
structure Exchange where
  broker : Broker
  handshakes : String → PacketId → Handshake
  owed : List Task

namespace Exchange

def new (start : Broker) : Exchange := ⟨start, fun _ _ => .idle, start.tasks⟩

/-- Move one handshake of one client. -/
def move (self : Exchange) (client : String) (id : PacketId) (phase : Handshake) :
    String → PacketId → Handshake :=
  fun other otherId => if other = client ∧ otherId = id then phase else self.handshakes other otherId

/-- The delivery a PUBREL of the client is owed. -/
def due (self : Exchange) (client : String) (id : PacketId) : List Task :=
  match self.handshakes client id with
  | .published message =>
      if message.publish.payloadData = [] then []
      else [.release (self.broker.stamped client message.publish) id]
  | _ => []

def call (self : Exchange) : Qos2Request → Exchange
  | .publish client message => {
      broker := (self.broker.handle client (.publish message.publish)).2
      handshakes := self.move client message.packetId (.published message)
      owed := self.owed }
  | .pubrel client packet => {
      broker := (self.broker.handle client (.pubrel packet)).2
      handshakes := self.move client packet.packetId .released
      owed := self.owed ++ self.due client packet.packetId }
  | .pubcomp client packet =>
      { self with broker := (self.broker.handle client (.pubcomp packet)).2 }

/-- The client has published this message, which has a payload, and not released it yet. -/
def Open (self : Exchange) (client : String) (id : PacketId) (message : Publish) : Prop :=
  ∃ sent, self.handshakes client id = .published sent ∧ sent.publish.payloadData ≠ [] ∧
    message = self.broker.stamped client sent.publish

/-- What the clients rely on: every open message is staged as its client published it, and the
deliveries handed out are the ones owed, each once. -/
def Kept (self : Exchange) : Prop :=
  (∀ client id message, self.Open client id message →
    self.broker.staged id = some (message, .qos2)) ∧
  self.broker.tasks = self.owed

/-- What a client may do: a message that is published again before its PUBREL is the same but for
DUP, and only what was published is released. -/
def Obeys (self : Exchange) : Qos2Request → Prop
  | .publish client message =>
      ∀ sent, self.handshakes client message.packetId = .published sent →
        { message.publish with dup := sent.publish.dup } = sent.publish
  | .pubrel client packet => self.handshakes client packet.packetId ≠ .idle
  | .pubcomp _ _ => True

/-- No other client has an open message under the identifier of the request, unless it is the very
message being published; a PUBCOMP finds no open message at all. -/
def Alone (self : Exchange) : Qos2Request → Prop
  | .publish client sent => sent.publish.payloadData ≠ [] → ∀ other message, other ≠ client →
      self.Open other sent.packetId message → message = self.broker.stamped client sent.publish
  | .pubrel client packet => ∀ other message, other ≠ client →
      ¬ self.Open other packet.packetId message
  | .pubcomp _ packet => ∀ other message, ¬ self.Open other packet.packetId message

/-- Moreover, nothing is staged under an identifier without open messages. -/
structure Clean (exchange : Exchange) : Prop where
  kept : exchange.Kept
  idle : ∀ id, (∀ client message, ¬ exchange.Open client id message) →
    exchange.broker.staged id = none

variable {self : Exchange} {client : String} {id : PacketId} {message : Publish}

private theorem stamped_handle (broker : Broker) (mqttId client : String) (packet : ControlPacket)
    (publish : Publish) :
    (broker.handle mqttId packet).2.stamped client publish = broker.stamped client publish := by
  simp only [Broker.stamped, Broker.versionOf, SessionManager.getProtocolVersion,
    Broker.handle_mqttVersion]

private theorem open_publish_self {sent : Qos2Publish} :
    (self.call (.publish client sent)).Open client sent.packetId message ↔
      sent.publish.payloadData ≠ [] ∧ message = self.broker.stamped client sent.publish := by
  simp only [Open, call, move, stamped_handle, and_self, if_pos, Handshake.published.injEq,
    exists_eq_left']

private theorem open_pubrel_self {packet : Pubrel} :
    ¬ (self.call (.pubrel client packet)).Open client packet.packetId message := by
  simp only [Open, call, move, and_self, if_pos, reduceCtorEq, false_and, exists_false,
    not_false_eq_true]

private theorem open_publish_of_ne {sent : Qos2Publish} {other : String}
    (ne : ¬ (other = client ∧ id = sent.packetId)) :
    (self.call (.publish client sent)).Open other id message ↔ self.Open other id message := by
  simp only [Open, call, move, stamped_handle, if_neg ne]

private theorem open_pubrel_of_ne {packet : Pubrel} {other : String}
    (ne : ¬ (other = client ∧ id = packet.packetId)) :
    (self.call (.pubrel client packet)).Open other id message ↔ self.Open other id message := by
  simp only [Open, call, move, stamped_handle, if_neg ne]

private theorem open_pubcomp {packet : Pubcomp} {other : String} :
    (self.call (.pubcomp client packet)).Open other id message ↔ self.Open other id message := by
  simp only [Open, call, stamped_handle]

private theorem staged_publish (sent : Qos2Publish) (id : PacketId) :
    (self.call (.publish client sent)).broker.staged id =
      if sent.publish.payloadData ≠ [] ∧ sent.packetId = id then
        some (self.broker.stamped client sent.publish, .qos2)
      else self.broker.staged id := by
  simp only [call, Broker.publish_staged, sent.qos2, sent.identified, sent.sized, true_and, ne_eq,
    List.length_eq_zero_iff, Option.some.injEq]

private theorem staged_pubrel (packet : Pubrel) (id : PacketId) :
    (self.call (.pubrel client packet)).broker.staged id =
      if packet.packetId = id then none else self.broker.staged id :=
  self.broker.pubrel_staged client _ _

private theorem staged_pubcomp (packet : Pubcomp) (id : PacketId) :
    (self.call (.pubcomp client packet)).broker.staged id =
      if packet.packetId = id then none else self.broker.staged id :=
  self.broker.pubcomp_staged client _ _

private theorem due_of_not_open (closed : ∀ message, ¬ self.Open client id message) :
    self.due client id = [] := by
  unfold due
  split
  · next sent phase =>
    split
    · rfl
    · next full => exact absurd ⟨sent, phase, full, rfl⟩ (closed _)
  · rfl

private theorem due_of_open (opened : self.Open client id message) :
    self.due client id = [.release message id] ∧ message.payloadLength ≠ 0 := by
  obtain ⟨sent, phase, full, rfl⟩ := opened
  constructor
  · simp only [due, phase, if_neg full]
  · intro empty
    apply full
    rw [← List.length_eq_zero_iff, ← sent.sized]
    exact empty

/-- The PUBREL of a client nobody shares the identifier with hands out the delivery it is owed. -/
theorem pubrel_owed {packet : Pubrel} (clean : self.Clean)
    (alone : self.Alone (.pubrel client packet)) :
    (self.call (.pubrel client packet)).broker.tasks =
      (self.call (.pubrel client packet)).owed := by
  simp only [call, Broker.pubrel_tasks, clean.kept.2]
  congr 1
  by_cases opened : ∃ message, self.Open client packet.packetId message
  · obtain ⟨message, opened⟩ := opened
    obtain ⟨due, full⟩ := due_of_open opened
    rw [clean.kept.1 _ _ _ opened, due]
    exact if_neg fun empty => full empty.1
  · rw [not_exists] at opened
    have nobody : ∀ other message, ¬ self.Open other packet.packetId message := by
      intro other message
      by_cases same : other = client
      · rw [same]
        exact opened message
      · exact alone other message same
    rw [clean.idle _ nobody, due_of_not_open opened]

private theorem kept_publish_iff {sent : Qos2Publish} (clean : self.Clean) :
    (self.call (.publish client sent)).Kept ↔ self.Alone (.publish client sent) := by
  constructor
  · rintro ⟨staged, -⟩ full other message ne opened
    have found := staged other sent.packetId message
      ((open_publish_of_ne fun own => ne own.1).mpr opened)
    rw [staged_publish, if_pos ⟨full, rfl⟩] at found
    exact (congrArg Prod.fst (Option.some.inj found)).symm
  · intro alone
    refine ⟨fun other id message opened => ?_, ?_⟩
    · rw [staged_publish]
      by_cases own : other = client ∧ id = sent.packetId
      · obtain ⟨rfl, rfl⟩ := own
        obtain ⟨full, rfl⟩ := open_publish_self.mp opened
        rw [if_pos ⟨full, rfl⟩]
      · have before := (open_publish_of_ne own).mp opened
        split
        · next replaced =>
          obtain ⟨full, rfl⟩ := replaced
          rw [alone full other message (fun same => own ⟨same, rfl⟩) before]
        · exact clean.kept.1 other id message before
    · simp only [call, Broker.publish_tasks_of_qos2 _ _ sent.qos2]
      exact clean.kept.2

private theorem kept_pubrel_iff {packet : Pubrel} (clean : self.Clean) :
    (self.call (.pubrel client packet)).Kept ↔ self.Alone (.pubrel client packet) := by
  constructor
  · rintro ⟨staged, -⟩ other message ne opened
    have found := staged other packet.packetId message
      ((open_pubrel_of_ne fun own => ne own.1).mpr opened)
    rw [staged_pubrel, if_pos rfl] at found
    cases found
  · intro alone
    refine ⟨fun other id message opened => ?_, pubrel_owed clean alone⟩
    by_cases own : other = client ∧ id = packet.packetId
    · obtain ⟨rfl, rfl⟩ := own
      exact absurd opened open_pubrel_self
    · have before := (open_pubrel_of_ne own).mp opened
      rw [staged_pubrel]
      split
      · next same =>
        subst same
        exact absurd before (alone other message fun same => own ⟨same, rfl⟩)
      · exact clean.kept.1 other id message before

private theorem kept_pubcomp_iff {packet : Pubcomp} (clean : self.Clean) :
    (self.call (.pubcomp client packet)).Kept ↔ self.Alone (.pubcomp client packet) := by
  constructor
  · rintro ⟨staged, -⟩ other message opened
    have found := staged other packet.packetId message (open_pubcomp.mpr opened)
    rw [staged_pubcomp, if_pos rfl] at found
    cases found
  · intro alone
    refine ⟨fun other id message opened => ?_, clean.kept.2⟩
    have before := open_pubcomp.mp opened
    rw [staged_pubcomp]
    split
    · next same =>
      subst same
      exact absurd before (alone other message)
    · exact clean.kept.1 other id message before

private theorem kept_call_iff (self : Exchange) (request : Qos2Request) (clean : self.Clean)
    (_ : self.Obeys request) : (self.call request).Kept ↔ self.Alone request := by
  cases request with
  | publish client sent => exact kept_publish_iff clean
  | pubrel client packet => exact kept_pubrel_iff clean
  | pubcomp client packet => exact kept_pubcomp_iff clean

private theorem clean_call (self : Exchange) (request : Qos2Request) (clean : self.Clean)
    (behaves : self.Obeys request ∧ self.Alone request) : (self.call request).Clean := by
  refine ⟨(kept_call_iff self request clean behaves.1).mpr behaves.2, fun id nobody => ?_⟩
  cases request with
  | publish client sent =>
    have before : ∀ other message, ¬ self.Open other id message := by
      rintro other message opened
      by_cases own : other = client ∧ id = sent.packetId
      · obtain ⟨rfl, rfl⟩ := own
        -- a message that is published again has the payload it had
        obtain ⟨earlier, phase, full, rfl⟩ := opened
        refine nobody other _ (open_publish_self.mpr ⟨fun empty => full ?_, rfl⟩)
        rw [← behaves.1 earlier phase]
        exact empty
      · exact nobody other message ((open_publish_of_ne own).mpr opened)
    rw [staged_publish]
    split
    · next replaced =>
      obtain ⟨full, rfl⟩ := replaced
      exact absurd (open_publish_self.mpr ⟨full, rfl⟩) (nobody client _)
    · exact clean.idle id before
  | pubrel client packet =>
    rw [staged_pubrel]
    split
    · rfl
    · next ne =>
      refine clean.idle id fun other message opened => nobody other message ?_
      exact (open_pubrel_of_ne fun own => ne own.2.symm).mpr opened
  | pubcomp client packet =>
    rw [staged_pubcomp]
    split
    · rfl
    · exact clean.idle id fun other message opened => nobody other message (open_pubcomp.mpr opened)

private theorem clean_new {start : Broker} (fresh : ∀ id, start.staged id = none) : (new start).Clean := by
  have idle : ∀ client id message, ¬ (new start).Open client id message := by
    rintro client id message ⟨sent, phase, _⟩
    cases phase
  exact ⟨⟨fun client id message opened => absurd opened (idle client id message), rfl⟩,
    fun id _ => fresh id⟩

/-- The state of an exchange behind a run of requests. -/
def behind (start : Broker) (requests : List Qos2Request) : Exchange := requests.foldl call (new start)

end Exchange

/-- For any number of clients and any interleaving of their requests, every open message stays staged
as its client published it and every PUBREL of one hands out exactly its delivery, if and only if no
request uses a packet identifier under which another client has an open message, and no PUBCOMP one
under which anybody has. -/
theorem qos2_exactly_once_iff (start : Broker) (requests : List Qos2Request)
    (fresh : ∀ id, start.staged id = none)
    (obeys : ∀ before request, before ++ [request] <+: requests →
      (Exchange.behind start before).Obeys request) :
    (∀ before, before <+: requests → (Exchange.behind start before).Kept) ↔
      ∀ before request, before ++ [request] <+: requests →
        (Exchange.behind start before).Alone request :=
  foldl_property_iff (Exchange.clean_new fresh) (fun _ clean => clean.kept) Exchange.kept_call_iff
    Exchange.clean_call obeys

/-- A message under a packet identifier. -/
def messageUnder (packetId : PacketId) (payload : Bytes) : Qos2Publish where
  publish := {
    qos := .qos2
    topicName := { value := "t" }
    packetId := some packetId
    payloadLength := payload.length
    payloadData := payload }
  packetId := packetId
  qos2 := rfl
  identified := rfl
  sized := rfl

/-- Two clients publish a message each, under different identifiers, before the first one releases its own. -/
def undisturbed : List Qos2Request :=
  [.publish "a" (messageUnder ⟨1⟩ [1]), .publish "b" (messageUnder ⟨2⟩ [2]), .pubrel "a" { packetId := ⟨1⟩ },
    .pubrel "b" { packetId := ⟨2⟩ }]

theorem qos2_exactly_once_iff_undisturbed :
    (∀ before, before <+: undisturbed → (Exchange.behind .new before).Kept) ↔
      ∀ before request, before ++ [request] <+: undisturbed →
        (Exchange.behind .new before).Alone request := by
  apply qos2_exactly_once_iff Broker.new undisturbed (fun id => rfl)
  have first : (Exchange.behind .new []).Obeys (.publish "a" (messageUnder ⟨1⟩ [1])) := by
    intro sent phase
    cases phase
  have second : (Exchange.behind .new (undisturbed.take 1)).Obeys (.publish "b" (messageUnder ⟨2⟩ [2])) := by
    intro sent phase
    cases phase
  have third : (Exchange.behind .new (undisturbed.take 2)).Obeys (.pubrel "a" { packetId := ⟨1⟩ }) := by
    intro phase
    cases phase
  have fourth : (Exchange.behind .new (undisturbed.take 3)).Obeys (.pubrel "b" { packetId := ⟨2⟩ }) := by
    intro phase
    cases phase
  refine (@forall_call_concat _ _ (undisturbed.take 3) _).mpr ⟨?_, fourth⟩
  refine (@forall_call_concat _ _ (undisturbed.take 2) _).mpr ⟨?_, third⟩
  refine (@forall_call_concat _ _ (undisturbed.take 1) _).mpr ⟨?_, second⟩
  exact (@forall_call_concat _ _ [] _).mpr ⟨forall_call_nil, first⟩

/-- Two clients publish different messages under the same identifier. -/
def colliding : List Qos2Request :=
  [.publish "a" (messageUnder ⟨1⟩ [1]), .publish "b" (messageUnder ⟨1⟩ [2])]

/-- The message of the second client replaces that of the first, whose PUBREL then delivers it. -/
theorem colliding_not_kept :
    (¬ ∀ requests : List Qos2Request,
      (∀ before request, before ++ [request] <+: requests →
        (Exchange.behind .new before).Obeys request) → (Exchange.behind .new requests).Kept) ∧
    (Exchange.behind .new (colliding ++ [.pubrel "a" { packetId := ⟨1⟩ }])).broker.tasks =
      [.release (Broker.new.stamped "b" (messageUnder ⟨1⟩ [2]).publish) ⟨1⟩] := by
  refine ⟨fun claim => ?_, by decide⟩
  have first : (Exchange.behind .new []).Obeys (.publish "a" (messageUnder ⟨1⟩ [1])) := by
    intro sent phase
    cases phase
  have second : (Exchange.behind .new [.publish "a" (messageUnder ⟨1⟩ [1])]).Obeys
      (.publish "b" (messageUnder ⟨1⟩ [2])) := by
    intro sent phase
    cases phase
  have kept := claim colliding
    (forall_call_concat.mpr ⟨forall_call_concat.mpr ⟨forall_call_nil, first⟩, second⟩)
  have found := kept.1 "a" ⟨1⟩ _ ⟨messageUnder ⟨1⟩ [1], rfl, by decide, rfl⟩
  exact absurd found (by decide)

namespace Broker

/-- What disturbs a message that waits for the PUBREL with its identifier: a PUBCOMP or PUBREL with
the identifier, a SUBSCRIBE that stages another retained message under it, and a PUBLISH of another
message under it. -/
def Disturbs (self : Broker) (id : PacketId) (message : Publish) : Event → Prop
  | .request mqttId (.publish p) =>
      p.qos = .qos2 ∧ p.payloadLength ≠ 0 ∧ p.packetId = some id ∧ self.stamped mqttId p ≠ message
  | .request _ (.subscribe p) => ∃ filter ∈ p.topicFilters,
      ∃ retained ∈ self.retain.checkRetain filter.1.value,
        retained.qos = .qos2 ∧ retained.packetId = some id ∧ retained ≠ message
  | .request _ (.pubrel p) => p.packetId = id
  | .request _ (.pubcomp p) => p.packetId = id
  | _ => False

/-- A step that does not disturb the message. -/
def Spares (id : PacketId) (message : Publish) (self : Broker) (event : Event) (next : Broker) :
    Prop :=
  self.Step event next ∧ ¬ self.Disturbs id message event

private theorem request_staged {self : Broker} {mqttId : String} {packet : ControlPacket} {id : PacketId}
    {message : Publish} (spared : ¬ self.Disturbs id message (.request mqttId packet))
    (waits : self.staged id = some (message, .qos2)) :
    (self.handle mqttId packet).2.staged id = some (message, .qos2) := by
  cases packet with
  | publish p =>
    rw [publish_staged]
    split
    · next replaced =>
      obtain ⟨qos2, full, own⟩ := replaced
      by_cases same : self.stamped mqttId p = message
      · rw [same]
      · exact absurd ⟨qos2, full, own, same⟩ spared
    · exact waits
  | subscribe p =>
    refine subscribe_staged (fun filter listed retained matched qos2 own => ?_) waits
    by_cases same : retained = message
    · rw [same]
    · exact absurd ⟨filter, listed, retained, matched, qos2, own, same⟩ spared
  | pubrel p => rwa [pubrel_staged, if_neg (by exact spared)]
  | pubcomp p => rwa [pubcomp_staged, if_neg (by exact spared)]
  | disconnect p =>
    simp only [handle, onDisconnect, staged]
    split
    · rwa [unregisterMqttId_qosTmp]
    · exact waits
  | _ => exact waits

private theorem Spares.staged {self next : Broker} {event : Event} {id : PacketId} {message : Publish}
    (spares : Spares id message self event next) (waits : self.staged id = some (message, .qos2)) :
    next.staged id = some (message, .qos2) := by
  obtain ⟨step, spared⟩ := spares
  cases step with
  | request mqttId packet => exact request_staged spared waits
  | connect clientId mqttId req =>
    cases req with
    | connect p =>
      simp only [onConnect]
      split <;> exact waits
    | _ => exact waits
  | task spawned draws =>
    rw [Broker.staged, runTask_session]
    exact waits
  | _ => exact waits

end Broker

/-- A PUBREL releases exactly the message that the client published under its identifier, behind
every run whose steps all leave that message alone. -/
theorem inbound_release {start final : Broker} {mqttId : String} {sent : Qos2Publish}
    {meanwhile : List Broker.Event} {pubrel : Pubrel} (full : sent.publish.payloadData ≠ [])
    (run : Runs (Broker.Spares sent.packetId (start.stamped mqttId sent.publish))
      (start.handle mqttId (.publish sent.publish)).2 meanwhile final)
    (closes : pubrel.packetId = sent.packetId) :
    (final.handle mqttId (.pubrel pubrel)).2.tasks =
        final.tasks ++ [.release (start.stamped mqttId sent.publish) sent.packetId] ∧
      (final.handle mqttId (.pubrel pubrel)).2.staged sent.packetId = none := by
  have payload : sent.publish.payloadLength ≠ 0 := by
    rw [sent.sized]
    exact fun empty => full (List.length_eq_zero_iff.mp empty)
  have opened : (start.handle mqttId (.publish sent.publish)).2.staged sent.packetId =
      some (start.stamped mqttId sent.publish, .qos2) := by
    rw [Broker.publish_staged, if_pos ⟨sent.qos2, payload, sent.identified⟩]
  have keeps : ∀ (s : Broker) (event : Broker.Event) (next : Broker),
      s.staged sent.packetId = some (start.stamped mqttId sent.publish, .qos2) →
        Broker.Spares sent.packetId (start.stamped mqttId sent.publish) s event next →
          next.staged sent.packetId = some (start.stamped mqttId sent.publish, .qos2) :=
    fun s event next waits spares => spares.staged waits
  have waits := run.invariant keeps opened
  constructor
  · rw [Broker.pubrel_tasks, closes, waits]
    exact congrArg _ (if_neg fun empty => payload empty.1)
  · rw [Broker.pubrel_staged, if_pos closes]

/-- What a client sends as a receiver, and every SUBSCRIBE. -/
def Receives (mqttId : String) : Broker.Event → Prop
  | .request sender (.pubrec _) => sender = mqttId
  | .request sender (.pubcomp _) => sender = mqttId
  | .request _ (.subscribe _) => True
  | _ => False

/-- The PUBCOMP that ends a handshake in which the client is the receiver. -/
def outboundEnd (id : PacketId) : Broker.Event := .request "a" (.pubcomp { packetId := id })

/-- The state behind the PUBLISH of the client. -/
def inboundOpen : Broker := (Broker.new.handle "a" (.publish (messageUnder ⟨1⟩ [1]).publish)).2

/-- The state behind the end of the handshake in the other direction. -/
def outboundDone (id : PacketId) : Broker :=
  (inboundOpen.handle "a" (.pubcomp { packetId := id })).2

theorem inbound_release_outbound :
    ((outboundDone ⟨2⟩).handle "a" (.pubrel { packetId := ⟨1⟩ })).2.tasks =
        (outboundDone ⟨2⟩).tasks ++
          [.release (Broker.new.stamped "a" (messageUnder ⟨1⟩ [1]).publish) ⟨1⟩] ∧
      ((outboundDone ⟨2⟩).handle "a" (.pubrel { packetId := ⟨1⟩ })).2.staged ⟨1⟩ = none := by
  have run : Runs (Broker.Spares ⟨1⟩ (Broker.new.stamped "a" (messageUnder ⟨1⟩ [1]).publish)) inboundOpen
      [outboundEnd ⟨2⟩] (outboundDone ⟨2⟩) :=
    Runs.nil.snoc ⟨.request _ _, fun same => absurd (congrArg PacketId.value same) (by decide)⟩
  have full : (messageUnder ⟨1⟩ [1]).publish.payloadData ≠ [] := by decide
  exact inbound_release full run rfl

/-- A PUBCOMP of the publisher for a message it received drops the message it published. -/
theorem outbound_end_drops :
    ¬ ∀ (meanwhile : List Broker.Event) (final : Broker),
      (∀ event ∈ meanwhile, Receives "a" event) → Runs Broker.Step inboundOpen meanwhile final →
        (final.handle "a" (.pubrel { packetId := ⟨1⟩ })).2.tasks =
          final.tasks ++ [.release (Broker.new.stamped "a" (messageUnder ⟨1⟩ [1]).publish) ⟨1⟩] := by
  intro claim
  have released := claim [outboundEnd ⟨1⟩] (outboundDone ⟨1⟩) (List.forall_mem_singleton.mpr rfl)
    (Runs.nil.snoc (.request _ _))
  exact absurd released (by decide)

end Aqua
