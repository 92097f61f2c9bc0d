import Aqua.Proofs.Workers

/-! # Messages of one publisher

Every request spawns a task of its own, and nothing orders the tasks. A subscriber gets the messages in the
order in which the sends of the tasks run, whatever the order is in which they were published.
-/

namespace Aqua

open Wire Runtime

/-- A message in a channel. -/
def ControlPacket.message? : ControlPacket → Option Publish
  | .publish p => some p
  | _ => none

/-- The messages a channel has accepted. -/
def OutboundChannel.messages (channel : OutboundChannel) : List Publish :=
  channel.accepted.filterMap ControlPacket.message?

namespace Crew

/-- A request is handled, a worker goes on, a connection answers with something that is no message, or a
writer takes a packet or is gone. -/
inductive Event where
  | publish (pubpacket : Publish)
  | work (place : ℕ) (draws : Broker.Draws)
  | answer (clientId : Uuid) (packet : { packet : ControlPacket // packet.message? = none })
  | take (clientId : Uuid)
  | close (clientId : Uuid)

/-- The requests come from the connection with the MQTT id `mqttId`. -/
def apply (mqttId : String) (self : Crew) : Event → Crew
  | .publish pubpacket =>
      let (_, broker) := self.broker.handle mqttId (.publish pubpacket)
      Crew.hire { self with broker }
  | .work place draws => self.work place draws
  | .answer clientId packet =>
      { self with broker := self.broker.onChannel clientId fun channel => channel.offer packet }
  | .take clientId => { self with broker := self.broker.onChannel clientId .take }
  | .close clientId => { self with broker := self.broker.onChannel clientId .close }

/-- Every task has run. -/
def Done (self : Crew) : Prop := ∀ worker ∈ self.workers, worker = .sending []

instance (self : Crew) : Decidable self.Done :=
  inferInstanceAs (Decidable (∀ worker ∈ self.workers, worker = .sending []))

end Crew

/-- One send of a worker, and whether it finds room. -/
structure Shipment where
  place : ℕ
  message : Publish
  fits : Bool
deriving DecidableEq

/-- What a step delivers to a connection. -/
def Crew.shipment? (self : Crew) (clientId : Uuid) : Crew.Event → Option Shipment
  | .work place _ => (self.bound? place clientId).map fun message =>
      ⟨place, message, (self.broker.channels clientId).room ≠ 0⟩
  | _ => none

def Crew.Event.request? : Crew.Event → Option Publish
  | .publish pubpacket => some pubpacket
  | _ => none

/-- The crew, the requests handled so far, and what was delivered to one connection. -/
structure Log where
  crew : Crew
  requests : List Publish := []
  shipments : List Shipment := []

namespace Log

def apply (mqttId : String) (clientId : Uuid) (self : Log) (event : Crew.Event) : Log where
  crew := self.crew.apply mqttId event
  requests := self.requests ++ event.request?.toList
  shipments := self.shipments ++ (self.crew.shipment? clientId event).toList

def run (mqttId : String) (clientId : Uuid) (self : Log) (events : List Crew.Event) : Log :=
  events.foldl (apply mqttId clientId) self

/-- The shipments that were accepted. -/
def accepted (self : Log) : List Shipment := self.shipments.filter Shipment.fits

/-- The messages the worker at a place has delivered. -/
def deliveredBy (self : Log) (place : ℕ) : List Publish :=
  (self.shipments.filter fun shipment => shipment.place = place).map Shipment.message

end Log

/-- The messages are copies of the requests, in the order of the requests. -/
def InOrder (requests messages : List Publish) : Prop :=
  ∃ places : List ℕ, places.Pairwise (· ≤ ·) ∧
    List.Forall₂ (fun place message => ∃ p, requests[place]? = some p ∧ Broker.CopyOf p message)
      places messages

/-- A request with a payload, to the topic and with the QoS. -/
structure Publish.RequestFor (p : Publish) (topic : TopicName) (qos : QoS) : Prop where
  sound : p.Sound
  topic : p.topicName = topic
  qos : p.qos = qos
  payload : p.payloadData ≠ []

namespace Worker

/-- What a worker still sends to the connection. -/
def left (broker : Broker) (clientId : Uuid) (sends : Sends) : List Publish :=
  (sends.filter fun send => broker.session.byMqttId.get send.1 = some clientId).map Prod.snd

/-- The worker of a request `p` that has delivered the messages `delivered`. -/
def Serves (broker : Broker) (clientId : Uuid) (p : Publish) (delivered : List Publish) : Worker → Prop
  | .spawned task => delivered = [] ∧ task.message.topicName = p.topicName ∧
      task.message.payloadData = p.payloadData
  | .retained task => delivered = [] ∧ task.message.topicName = p.topicName ∧
      task.message.payloadData = p.payloadData
  | .sending sends => List.Forall₂ (fun _ => Broker.CopyOf p) (broker.entries p.topicName.value clientId)
      (delivered ++ left broker clientId sends)

variable {broker : Broker} {clientId : Uuid} {p : Publish} {delivered : List Publish}

private theorem left_cons_of_registered {send : String × Publish}
    (known : broker.session.byMqttId.get send.1 = some clientId) (rest : Sends) :
    left broker clientId (send :: rest) = send.2 :: left broker clientId rest := by
  rw [left, List.filter_cons_of_pos (by simpa using known), List.map_cons]
  rfl

private theorem left_cons_of_other {send : String × Publish}
    (other : broker.session.byMqttId.get send.1 ≠ some clientId) (rest : Sends) :
    left broker clientId (send :: rest) = left broker clientId rest := by
  rw [left, List.filter_cons_of_neg (by simpa using other)]
  rfl

/-- A task that looks its subscribers up has one send to the connection for each of its entries. -/
private theorem left_sendsOf (broker : Broker) (clientId : Uuid) (draws : Broker.Draws) (task : Task) :
    List.Forall₂ (fun _ => Broker.CopyOf task.message)
      (broker.entries task.message.topicName.value clientId)
      (left broker clientId (broker.sendsOf draws task)) := by
  have sendsTo : ∀ topic (msg : ℕ → SubscribeOption → Publish),
      left broker clientId (broker.sendsTo topic msg) = broker.copies topic msg clientId := by
    intro topic msg
    rw [left, Broker.sendsTo, List.filter_map, List.map_map]
    rfl
  cases task with
  | deliver pubpacket =>
    rw [Broker.sendsOf, sendsTo]
    exact broker.copies_entries _ (fun _ _ => ⟨rfl, rfl⟩) clientId
  | release publish packetId =>
    rw [Broker.sendsOf, sendsTo]
    exact broker.copies_entries _ (fun _ _ => ⟨rfl, rfl⟩) clientId

/-- The next send of a worker is a copy of its request. -/
theorem Serves.next {send : String × Publish} {rest : Sends}
    (serves : (sending (send :: rest)).Serves broker clientId p delivered)
    (known : broker.session.byMqttId.get send.1 = some clientId) : Broker.CopyOf p send.2 := by
  rw [Serves, left_cons_of_registered known] at serves
  have paired := serves.flip.imp fun _ _ copy => And.intro copy trivial
  have copies := (@List.forall₂_and_left _ _ (fun _ _ => True) (Broker.CopyOf p) _ _).mp paired
  exact copies.1 send.2 (List.mem_append_right _ (List.mem_cons_self ..))

/-- The message a worker sends next, if that goes to the connection. -/
def bound? (broker : Broker) (clientId : Uuid) : Worker → Option Publish
  | .sending (send :: _) =>
      if broker.session.byMqttId.get send.1 = some clientId then some send.2 else none
  | _ => none

/-- A worker goes on, and still serves its request. -/
theorem Serves.work {start : Broker} {worker : Worker} (topics : broker.topics = start.topics)
    (byMqttId : broker.session.byMqttId = start.session.byMqttId)
    (serves : worker.Serves start clientId p delivered) (draws : Broker.Draws) :
    (broker.work draws worker).2.Serves start clientId p
        (delivered ++ (worker.bound? broker clientId).toList) ∧
      ∀ message ∈ worker.bound? broker clientId, Broker.CopyOf p message := by
  have entries : broker.entries = start.entries := by
    funext topic clientId
    rw [Broker.entries, Broker.entries, topics, byMqttId]
  have same : left broker clientId = left start clientId := by
    funext sends
    rw [left, left, byMqttId]
  cases worker with
  | spawned task =>
    refine ⟨?_, by rintro _ ⟨⟩⟩
    obtain ⟨rfl, told⟩ := serves
    exact ⟨rfl, told⟩
  | retained task =>
    refine ⟨?_, by rintro _ ⟨⟩⟩
    obtain ⟨rfl, topic, payload⟩ := serves
    have copies := left_sendsOf broker clientId draws task
    rw [entries, same, topic] at copies
    refine copies.imp fun _ _ copy => ?_
    exact ⟨copy.1.trans topic, copy.2.trans payload⟩
  | sending sends =>
    cases sends with
    | nil =>
      have idle : bound? broker clientId (.sending []) = none := rfl
      refine ⟨?_, by rintro _ ⟨⟩⟩
      rw [idle, Option.toList_none, List.append_nil]
      exact serves
    | cons send rest =>
      rw [bound?]
      split
      · next known =>
        rw [byMqttId] at known
        refine ⟨?_, by rintro _ ⟨⟩; exact serves.next known⟩
        rw [Serves, left_cons_of_registered known] at serves
        rw [Broker.work, Serves, Option.toList_some, List.append_assoc, List.singleton_append]
        exact serves
      · next other =>
        rw [byMqttId] at other
        refine ⟨?_, by rintro _ ⟨⟩⟩
        rw [Serves, left_cons_of_other other] at serves
        rw [Broker.work, Serves, Option.toList_none, List.append_nil]
        exact serves

end Worker

namespace Broker

/-- The request of a message with a payload is one more task. -/
private theorem publish_spawns (self : Broker) (mqttId : String) {p : Publish} {topic : TopicName} {qos : QoS}
    (request : p.RequestFor topic qos) (notQos2 : qos ≠ .qos2) :
    (self.handle mqttId (.publish p)).2 = self.spawn (.deliver (self.stamped mqttId p)) := by
  have full := request.sound.payloadLength_ne_zero.mpr request.payload
  obtain ⟨unset, notQos0, _⟩ | ⟨empty, _⟩ | ⟨_, _, qos2, _⟩ | ⟨_, _, _, after⟩ := self.onPublish_cases mqttId p
  · exact absurd (request.sound.packetId.mp unset) notQos0
  · exact absurd empty full
  · exact absurd (request.qos.symm.trans qos2) notQos2
  · exact after

end Broker

namespace Crew

variable {self : Crew} {clientId : Uuid}

private theorem messages_offer_of_none {channel : OutboundChannel} {packet : ControlPacket}
    (other : packet.message? = none) : OutboundChannel.messages (channel.offer packet) = channel.messages := by
  have added := Channel.accepted_foldl_offer [packet] channel
  have nothing : ([packet].take channel.room).filterMap ControlPacket.message? = [] := by
    rw [List.filterMap_eq_nil_iff]
    intro taken member
    rw [List.mem_singleton.mp (List.mem_of_mem_take member)]
    exact other
  rw [OutboundChannel.messages, show (channel.offer packet).accepted = _ from added, List.filterMap_append,
    nothing, List.append_nil]
  rfl

private theorem bound?_of_some {place : ℕ} {worker : Worker} (there : self.workers[place]? = some worker) :
    self.bound? place clientId = worker.bound? self.broker clientId := by
  simp only [bound?, next?, there]
  cases worker with
  | spawned task => rfl
  | retained task => rfl
  | sending sends => cases sends <;> rfl

private theorem bound?_of_none {place : ℕ} (nobody : self.workers[place]? = none) :
    self.bound? place clientId = none := by
  simp only [bound?, next?, nobody]

/-- A shipment that finds room is one more message. -/
private theorem work_messages (connected : self.broker.session.Connected) (place : ℕ) (draws : Broker.Draws) :
    OutboundChannel.messages ((self.work place draws).broker.channels clientId) =
      OutboundChannel.messages (self.broker.channels clientId) ++
        ((self.shipment? clientId (.work place draws)).toList.filter Shipment.fits).map Shipment.message := by
  rw [work_channels connected, shipment?]
  cases self.bound? place clientId with
  | none => exact (List.append_nil _).symm
  | some msg =>
    rw [OutboundChannel.messages, Option.toList_some, List.map_singleton, Channel.accepted_foldl_offer,
      List.filterMap_append]
    congr 1
    by_cases full : (self.broker.channels clientId).room = 0
    · simp only [Option.map_some, Option.toList_some, full, List.take_zero]
      rfl
    · obtain ⟨count, more⟩ := Nat.exists_eq_succ_of_ne_zero full
      simp only [Option.map_some, Option.toList_some, more, List.take_succ_cons, List.take_nil]
      rfl

end Crew

/-- The log of a run from `start`: every worker serves its request, every shipment is a copy of the request
of its worker, and the channel has what was accepted. -/
structure Log.Faithful (start : Broker) (clientId : Uuid) (log : Log) : Prop where
  tasks : log.crew.broker.tasks = []
  connected : log.crew.broker.session.Connected
  byMqttId : log.crew.broker.session.byMqttId = start.session.byMqttId
  topics : log.crew.broker.topics = start.topics
  messages : OutboundChannel.messages (log.crew.broker.channels clientId) =
    OutboundChannel.messages (start.channels clientId) ++ log.accepted.map Shipment.message
  size : log.crew.workers.length = log.requests.length
  workers : ∀ place (worker : Worker) (p : Publish), log.crew.workers[place]? = some worker →
    log.requests[place]? = some p → worker.Serves start clientId p (log.deliveredBy place)
  copies : ∀ shipment ∈ log.shipments, ∃ p, log.requests[shipment.place]? = some p ∧
    Broker.CopyOf p shipment.message

namespace Log

variable {start : Broker} {topic : TopicName} {qos : QoS} {clientId : Uuid} {log : Log} {mqttId : String}

private theorem Faithful.new (connected : start.session.Connected) (idle : start.tasks = []) :
    Faithful start clientId ⟨⟨start, []⟩, [], []⟩ where
  tasks := idle
  connected := connected
  byMqttId := rfl
  topics := rfl
  messages := (List.append_nil _).symm
  size := rfl
  workers := fun place worker p there => by cases there
  copies := fun shipment member => by cases member

/-- Nothing is delivered by a worker that is not there yet. -/
private theorem Faithful.deliveredBy_new (faithful : Faithful start clientId log) :
    log.deliveredBy log.requests.length = [] := by
  rw [deliveredBy, List.map_eq_nil_iff, List.filter_eq_nil_iff]
  intro shipment member here
  obtain ⟨p, there, _⟩ := faithful.copies shipment member
  rw [of_decide_eq_true here, List.getElem?_eq_none (Nat.le_refl _)] at there
  cases there

/-- Something happens to a channel, and the messages in it stay. -/
theorem Faithful.onChannel (faithful : Faithful start clientId log) {other : Uuid}
    {change : OutboundChannel → OutboundChannel}
    (same : OutboundChannel.messages (change (log.crew.broker.channels other)) =
      OutboundChannel.messages (log.crew.broker.channels other)) :
    Faithful start clientId
      { log with crew := { log.crew with broker := log.crew.broker.onChannel other change } } where
  tasks := faithful.tasks
  connected := faithful.connected
  byMqttId := faithful.byMqttId
  topics := faithful.topics
  messages := by
    refine Eq.trans ?_ faithful.messages
    rw [Broker.channels_onChannel]
    split
    · next own => rw [own, same]
    · rfl
  size := faithful.size
  workers := faithful.workers
  copies := faithful.copies

/-- A request is handled. -/
theorem Faithful.publish {p : Publish} (faithful : Faithful start clientId log)
    (notQos2 : qos ≠ .qos2) (request : p.RequestFor topic qos) :
    Faithful start clientId (log.apply mqttId clientId (.publish p)) := by
  have hired : log.crew.apply mqttId (.publish p) = {
      broker := { log.crew.broker with tasks := [] }
      workers := log.crew.workers ++ [.spawned (.deliver (log.crew.broker.stamped mqttId p))] } := by
    simp only [Crew.apply, Crew.hire, log.crew.broker.publish_spawns mqttId request notQos2, Broker.spawn,
      faithful.tasks, List.nil_append, List.map_singleton]
  have applied : log.apply mqttId clientId (.publish p) = {
      crew := log.crew.apply mqttId (.publish p)
      requests := log.requests ++ [p]
      shipments := log.shipments ++ [] } := rfl
  rw [applied, hired, List.append_nil]
  exact {
    tasks := rfl
    connected := faithful.connected
    byMqttId := faithful.byMqttId
    topics := faithful.topics
    messages := faithful.messages
    size := by rw [List.length_append, List.length_append, faithful.size]; rfl
    workers := by
      intro place worker own there asked
      by_cases before : place < log.requests.length
      · rw [List.getElem?_append_left (by rw [faithful.size]; exact before)] at there
        rw [List.getElem?_append_left before] at asked
        exact faithful.workers place worker own there asked
      · have within := (List.getElem?_eq_some_iff.mp asked).1
        rw [List.length_append, List.length_singleton] at within
        obtain rfl : place = log.requests.length := by omega
        rw [← faithful.size, List.getElem?_concat_length] at there
        rw [List.getElem?_concat_length] at asked
        cases there
        cases asked
        exact ⟨faithful.deliveredBy_new, rfl, rfl⟩
    copies := by
      intro shipment member
      obtain ⟨own, asked, copy⟩ := faithful.copies shipment member
      refine ⟨own, ?_, copy⟩
      rw [List.getElem?_append_left (List.getElem?_eq_some_iff.mp asked).1]
      exact asked }

/-- A worker adds to its own shipments. -/
private theorem deliveredBy_work (log : Log) (crew : Crew) (requests : List Publish) (clientId : Uuid)
    (place other : ℕ) (draws : Broker.Draws) :
    deliveredBy ⟨crew, requests,
        log.shipments ++ (log.crew.shipment? clientId (.work place draws)).toList⟩ other =
      log.deliveredBy other ++ if other = place then (log.crew.bound? place clientId).toList else [] := by
  rw [deliveredBy, deliveredBy, List.filter_append, List.map_append, Crew.shipment?]
  congr 1
  cases log.crew.bound? place clientId with
  | none => split <;> rfl
  | some message =>
    split
    · next same => simp [same]
    · next other => simp [Ne.symm other]

/-- A worker goes on. -/
theorem Faithful.work (faithful : Faithful start clientId log) (place : ℕ) (draws : Broker.Draws) :
    Faithful start clientId (log.apply mqttId clientId (.work place draws)) := by
  have messages : OutboundChannel.messages ((log.crew.work place draws).broker.channels clientId) = _ :=
    Crew.work_messages faithful.connected place draws
  have applied : log.apply mqttId clientId (.work place draws) = {
      crew := log.crew.work place draws
      requests := log.requests ++ []
      shipments := log.shipments ++ (log.crew.shipment? clientId (.work place draws)).toList } := rfl
  rw [applied, List.append_nil]
  rw [faithful.messages, List.append_assoc, ← List.map_append, accepted, ← List.filter_append] at messages
  cases there : log.crew.workers[place]? with
  | none =>
    rw [Crew.work_of_none there, Crew.shipment?, Crew.bound?_of_none there, Option.map_none, Option.toList_none,
      List.append_nil]
    exact faithful
  | some worker =>
    have within := (List.getElem?_eq_some_iff.mp there).1
    obtain ⟨p, asked⟩ : ∃ p, log.requests[place]? = some p :=
      ⟨_, List.getElem?_eq_getElem (faithful.size ▸ within)⟩
    obtain ⟨serves, copies⟩ := (faithful.workers place worker p there asked).work faithful.topics
      faithful.byMqttId draws
    rw [← Crew.bound?_of_some there] at serves copies
    obtain ⟨retain, channels, same⟩ := log.crew.work_eq place draws
    refine {
      tasks := by rw [same]; exact faithful.tasks
      connected := by rw [Crew.work_session]; exact faithful.connected
      byMqttId := by rw [Crew.work_session]; exact faithful.byMqttId
      topics := by rw [Crew.work_topics]; exact faithful.topics
      messages := messages
      size := by rw [Crew.work_of_some there, List.length_set]; exact faithful.size
      workers := fun other next own here asks => ?_
      copies := fun shipment member => ?_ }
    · rw [deliveredBy_work]
      rw [Crew.work_of_some there] at here
      by_cases self : other = place
      · subst self
        rw [List.getElem?_set_self within] at here
        cases here
        cases asked.symm.trans asks
        rw [if_pos rfl]
        exact serves
      · rw [List.getElem?_set_ne (Ne.symm self)] at here
        rw [if_neg self, List.append_nil]
        exact faithful.workers other next own here asks
    · rcases List.mem_append.mp member with before | new
      · exact faithful.copies shipment before
      · rw [Option.mem_toList, Crew.shipment?, Option.map_eq_some_iff] at new
        obtain ⟨message, bound, rfl⟩ := new
        exact ⟨p, asked, copies message bound⟩

/-- One step. -/
theorem Faithful.apply {topic : TopicName} {qos : QoS} (faithful : Faithful start clientId log)
    (notQos2 : qos ≠ .qos2) {event : Crew.Event}
    (request : ∀ p ∈ event.request?, p.RequestFor topic qos) :
    Faithful start clientId (log.apply mqttId clientId event) := by
  have unchanged : ∀ {crew : Crew}, Faithful start clientId { log with crew } →
      Faithful start clientId ⟨crew, log.requests ++ [], log.shipments ++ []⟩ := by
    intro crew held
    rw [List.append_nil, List.append_nil]
    exact held
  cases event with
  | publish p => exact faithful.publish notQos2 (request p rfl)
  | work place draws => exact faithful.work place draws
  | answer other packet => exact unchanged (faithful.onChannel (Crew.messages_offer_of_none packet.property))
  | take other =>
    have same : OutboundChannel.messages (log.crew.broker.channels other).take =
        OutboundChannel.messages (log.crew.broker.channels other) := by
      rw [OutboundChannel.messages, OutboundChannel.messages, Channel.accepted_take]
    exact unchanged (faithful.onChannel same)
  | close other => exact unchanged (faithful.onChannel rfl)

/-- What holds at the start holds behind every run. -/
theorem Faithful.run {topic : TopicName} {qos : QoS} (notQos2 : qos ≠ .qos2) {events : List Crew.Event}
    (requests : ∀ p ∈ events.filterMap Crew.Event.request?, p.RequestFor topic qos)
    (faithful : Faithful start clientId log) : Faithful start clientId (log.run mqttId clientId events) := by
  induction events generalizing log with
  | nil => exact faithful
  | cons event events ih =>
    have first : ∀ p ∈ event.request?, p.RequestFor topic qos := by
      intro p asked
      exact requests p (List.mem_filterMap.mpr ⟨event, List.mem_cons_self .., asked⟩)
    refine ih (fun p member => ?_) (faithful.apply notQos2 first)
    obtain ⟨other, listed, asked⟩ := List.mem_filterMap.mp member
    exact requests p (List.mem_filterMap.mpr ⟨other, List.mem_cons_of_mem _ listed, asked⟩)

private theorem run_requests (log : Log) (mqttId : String) (clientId : Uuid) (events : List Crew.Event) :
    (log.run mqttId clientId events).requests =
      log.requests ++ events.filterMap Crew.Event.request? := by
  induction events generalizing log with
  | nil => exact (List.append_nil _).symm
  | cons event events ih =>
    refine (ih _).trans ?_
    rw [apply, List.append_assoc]
    cases event <;> rfl

private theorem run_crew (log : Log) (mqttId : String) (clientId : Uuid) (events : List Crew.Event) :
    (log.run mqttId clientId events).crew = events.foldl (Crew.apply mqttId) log.crew := by
  induction events generalizing log with
  | nil => rfl
  | cons event events ih => exact ih _

/-- Deliveries in the order of their workers. -/
theorem Faithful.inOrder (faithful : Faithful start clientId log)
    (sorted : (log.accepted.map Shipment.place).Pairwise (· ≤ ·)) :
    InOrder log.requests (log.accepted.map Shipment.message) := by
  refine ⟨_, sorted, ?_⟩
  rw [List.forall₂_map_left_iff, List.forall₂_map_right_iff, List.forall₂_same]
  intro shipment member
  exact faithful.copies shipment (List.mem_of_mem_filter member)

/-- Messages that are all different tell which worker sent them. -/
theorem Faithful.pairwise (faithful : Faithful start clientId log)
    (different : (log.requests.map Publish.payloadData).Nodup)
    (ordered : InOrder log.requests (log.accepted.map Shipment.message)) :
    (log.accepted.map Shipment.place).Pairwise (· ≤ ·) := by
  obtain ⟨places, sorted, copies⟩ := ordered
  rw [List.forall₂_map_right_iff] at copies
  have paired := (List.forall₂_and_left _ _).mpr
    ⟨fun shipment member => faithful.copies shipment (List.mem_of_mem_filter member), copies.flip⟩
  have own : List.Forall₂ (fun shipment place => Shipment.place shipment = place) log.accepted places := by
    refine paired.imp ?_
    rintro shipment place ⟨⟨p, asked, copy⟩, q, asked', copy'⟩
    have within := (List.getElem?_eq_some_iff.mp asked).1
    refine (List.getElem?_inj (by rwa [List.length_map]) different).mp ?_
    rw [List.getElem?_map, List.getElem?_map, asked, asked', Option.map_some, Option.map_some, ← copy.2,
      copy'.2]
  have same : log.accepted.map Shipment.place = places :=
    List.forall₂_eq_eq_eq ▸ List.forall₂_map_left_iff.mpr own
  rw [same]
  exact sorted

/-- A worker that is done has delivered one copy for each entry. -/
theorem Faithful.delivered (faithful : Faithful start clientId log) (done : log.crew.Done) {place : ℕ}
    {p : Publish} (asked : log.requests[place]? = some p) :
    List.Forall₂ (fun _ => Broker.CopyOf p) (start.entries p.topicName.value clientId)
      (log.deliveredBy place) := by
  have within := (List.getElem?_eq_some_iff.mp asked).1
  rw [← faithful.size] at within
  have there := List.getElem?_eq_getElem within
  have serves := faithful.workers place _ p there asked
  rw [done _ (List.getElem_mem within)] at serves
  rwa [Worker.Serves, Worker.left, List.filter_nil, List.map_nil, List.append_nil] at serves

end Log

/-- For every sequence of requests with a payload, all of QoS 0 or all of QoS 1, to one topic, handled in
turn, every table of subscriptions and every schedule of their tasks: the channel of a connection accepts
copies of the messages in the order in which their sends run, and each task has one send for each entry. They
are in the order of the requests if the sends are, and, where no two payloads are the same, only then. -/
theorem publisher_order {start : Broker} (connected : start.session.Connected) (idle : start.tasks = [])
    (mqttId : String) {topic : TopicName} {qos : QoS} (notQos2 : qos ≠ .qos2) {events : List Crew.Event}
    (requests : ∀ p ∈ events.filterMap Crew.Event.request?, p.RequestFor topic qos) (clientId : Uuid) :
    let published := events.filterMap Crew.Event.request?
    let final := events.foldl (Crew.apply mqttId) ⟨start, []⟩
    let log := Log.run mqttId clientId ⟨⟨start, []⟩, [], []⟩ events
    OutboundChannel.messages (final.broker.channels clientId) =
      OutboundChannel.messages (start.channels clientId) ++ log.accepted.map Shipment.message ∧
    (final.Done → ∀ place p, published[place]? = some p →
      List.Forall₂ (fun _ => Broker.CopyOf p) (start.entries topic.value clientId) (log.deliveredBy place)) ∧
    ((log.accepted.map Shipment.place).Pairwise (· ≤ ·) →
      InOrder published (log.accepted.map Shipment.message)) ∧
    ((published.map Publish.payloadData).Nodup → InOrder published (log.accepted.map Shipment.message) →
      (log.accepted.map Shipment.place).Pairwise (· ≤ ·)) := by
  intro published final log
  have faithful : Log.Faithful start clientId log :=
    (Log.Faithful.new connected idle).run notQos2 requests
  have crew : log.crew = final := Log.run_crew _ mqttId clientId events
  have asked : log.requests = published := (Log.run_requests _ mqttId clientId events).trans (List.nil_append _)
  rw [← crew, ← asked]
  refine ⟨faithful.messages, fun done place p there => ?_, faithful.inOrder, faithful.pairwise⟩
  have listed : p ∈ published := asked ▸ List.mem_of_getElem? there
  have delivered := faithful.delivered done there
  rwa [(requests p listed).topic] at delivered

/-- Three operations of a worker: it looks at the retained messages, then for its subscribers, and sends. -/
def threeSteps (place : ℕ) : List Crew.Event := List.replicate 3 (.work place Pool.leastDraws)

/-- Two messages, each of which is sent before the next one is handled. -/
def inTurn : List Crew.Event :=
  .publish (publishOf [0x78]) :: threeSteps 0 ++ .publish (publishOf [0x79]) :: threeSteps 1

/-- Two messages, the second of which is sent first. -/
def crossing : List Crew.Event :=
  .publish (publishOf [0x78]) :: .publish (publishOf [0x79]) :: threeSteps 1 ++ threeSteps 0

private theorem publishOf_requestFor {byte : UInt8} : (publishOf [byte]).RequestFor ⟨"t"⟩ .qos0 where
  sound := ⟨rfl, fun _ => rfl, fun _ => rfl⟩
  topic := rfl
  qos := rfl
  payload := List.cons_ne_nil _ _

private theorem pair_requestFor : ∀ p ∈ [publishOf [0x78], publishOf [0x79]], p.RequestFor ⟨"t"⟩ .qos0 := by
  rw [List.forall_mem_cons, List.forall_mem_singleton]
  exact ⟨publishOf_requestFor, publishOf_requestFor⟩

private theorem inTurn_requestFor : ∀ p ∈ inTurn.filterMap Crew.Event.request?, p.RequestFor ⟨"t"⟩ .qos0 :=
  pair_requestFor

theorem publisher_order_inTurn :
    let published := inTurn.filterMap Crew.Event.request?
    let final := inTurn.foldl (Crew.apply "b") ⟨listening.broker, []⟩
    let log := Log.run "b" ⟨0⟩ ⟨⟨listening.broker, []⟩, [], []⟩ inTurn
    OutboundChannel.messages (final.broker.channels ⟨0⟩) =
      OutboundChannel.messages (listening.broker.channels ⟨0⟩) ++ log.accepted.map Shipment.message ∧
    (final.Done → ∀ place p, published[place]? = some p →
      List.Forall₂ (fun _ => Broker.CopyOf p) (listening.broker.entries "t" ⟨0⟩) (log.deliveredBy place)) ∧
    ((log.accepted.map Shipment.place).Pairwise (· ≤ ·) →
      InOrder published (log.accepted.map Shipment.message)) ∧
    ((published.map Publish.payloadData).Nodup → InOrder published (log.accepted.map Shipment.message) →
      (log.accepted.map Shipment.place).Pairwise (· ≤ ·)) :=
  publisher_order listening_reachable.sound.connected rfl "b" (by decide) inTurn_requestFor ⟨0⟩

/-- The task of the second message runs before that of the first. -/
theorem crossing_reordered :
    ¬ ∀ (start : Broker) (events : List Crew.Event) (clientId : Uuid),
      start.session.Connected → start.tasks = [] →
      (∀ p ∈ events.filterMap Crew.Event.request?, p.RequestFor ⟨"t"⟩ .qos0) →
      (events.foldl (Crew.apply "b") ⟨start, []⟩).Done →
      ∃ sent, OutboundChannel.messages
          ((events.foldl (Crew.apply "b") ⟨start, []⟩).broker.channels clientId) =
        OutboundChannel.messages (start.channels clientId) ++ sent ∧
        InOrder (events.filterMap Crew.Event.request?) sent := by
  intro claim
  have connected := listening_reachable.sound.connected
  have faithful : Log.Faithful listening.broker ⟨0⟩
      (Log.run "b" ⟨0⟩ ⟨⟨listening.broker, []⟩, [], []⟩ crossing) :=
    (Log.Faithful.new connected rfl).run (by decide) pair_requestFor
  obtain ⟨sent, whole, ordered⟩ :=
    claim listening.broker crossing ⟨0⟩ connected rfl pair_requestFor (by decide)
  have messages := faithful.messages
  rw [Log.run_crew, whole, List.append_cancel_left_eq] at messages
  rw [messages] at ordered
  have sorted := faithful.pairwise (by decide) ordered
  exact absurd sorted (by decide)

end Aqua
