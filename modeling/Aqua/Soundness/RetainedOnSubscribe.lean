import Aqua.Soundness.SubackCodes
import Aqua.Soundness.TopicMatching

/-! # Retained messages behind a SUBACK

Every message is retained under its own topic, so the list of topics that keeps a message from being sent twice
distinguishes exactly the entries of the store. Whatever the filters share and in whichever order the store is
iterated, the SUBACK is followed by each selected message once.
-/

namespace Aqua

open Wire Runtime

namespace RetainStore

/-- What the handlers do to the store, and its iteration in another order. -/
inductive Update (self : RetainStore) : RetainStore → Prop
  | update (p : Publish) : Update self (self.updateRetain p.topicName.value p)
  | remove (topic : String) : Update self (self.removeRetain topic)
  | rehash {store : RetainStore} (reorders : DashMap.Reorders self.kvs store.kvs) : Update self store

/-- The stores behind any number of updates. -/
def Reachable (self : RetainStore) : Prop := Relation.ReflTransGen Update .new self

/-- Every message is kept under its own topic. -/
def Keyed (self : RetainStore) : Prop :=
  ∀ topic p, self.kvs.get topic = some p → p.topicName.value = topic

private theorem Keyed.update {self next : RetainStore} (keyed : self.Keyed) (update : self.Update next) :
    next.Keyed := by
  intro topic p found
  cases update with
  | update message =>
    rw [updateRetain, DashMap.get_insert] at found
    split at found
    · next same =>
      cases found
      exact same.symm
    · exact keyed topic p found
  | remove other =>
    rw [removeRetain, DashMap.get_remove] at found
    split at found
    · cases found
    · exact keyed topic p found
  | rehash reorders =>
    rw [reorders.get_eq] at found
    exact keyed topic p found

private theorem Reachable.keyed {self : RetainStore} (reachable : self.Reachable) : self.Keyed := by
  unfold Reachable at reachable
  induction reachable with
  | refl => exact fun topic p wrong => by cases wrong
  | tail _ last ih => exact ih.update last

/-- Every message the filters select is among the packets once, and no other. -/
structure SelectedBy (self : RetainStore) (filters : List (TopicFilter × SubscribeOption))
    (packets : List Publish) : Prop where
  once : ∀ topic p, self.kvs.get topic = some p → (∃ filter ∈ filters, Matches filter.1.value topic) →
    packets.count p = 1
  only : ∀ p ∈ packets, ∃ topic, self.kvs.get topic = some p ∧
    ∃ filter ∈ filters, Matches filter.1.value topic

end RetainStore

namespace Broker

/-- A step of the broker updates the store by the operations of the handlers. -/
theorem Step.retain_updates {self next : Broker} {event : Event} (step : self.Step event next) :
    Relation.ReflTransGen RetainStore.Update self.retain next.retain := by
  have clears : ∀ p, Relation.ReflTransGen RetainStore.Update self.retain (self.clearRetained p).retain := by
    intro p
    unfold clearRetained
    split
    · exact .single (.remove _)
    · exact .refl
  cases step with
  | connect clientId mqttId req =>
    cases req with
    | connect p =>
      simp only [onConnect]
      split <;> exact .refl
    | _ => exact .refl
  | request mqttId packet =>
    cases packet with
    | publish p =>
      obtain ⟨_, _, after⟩ | ⟨_, _, after⟩ | ⟨_, _, _, after⟩ | ⟨_, _, _, after⟩ :=
        self.onPublish_cases mqttId p
      · rw [handle, after]
      · rw [handle, after]
        exact clears _
      · rw [handle, after]
      · rw [handle, after]
        exact .refl
    | pubrel p =>
      simp only [handle, onPubrel]
      split
      · split
        · exact .single (.remove _)
        · dsimp only [spawn]
          split
          · exact .single (.update _)
          · exact .refl
      · exact .refl
    | subscribe p =>
      simp only [handle, onSubscribe]
      split <;> exact .refl
    | disconnect p =>
      simp only [handle, onDisconnect]
      split <;> exact .refl
    | _ => exact .refl
  | @task task spawned draws =>
    cases task with
    | deliver p =>
      simp only [runTask]
      rw [sendAll_eq]
      dsimp only
      split
      · exact .single (.update p)
      · exact .refl
    | release p packetId =>
      simp only [runTask]
      rw [sendAll_eq]
      exact .refl
  | rehash sameTopics sameRetain => exact .single (.rehash sameRetain)
  | _ => exact .refl

end Broker

/-- The store of a reachable server is reachable. -/
theorem Server.Reachable.retain {build : Build} {server : Server} (reachable : server.Reachable build) :
    server.broker.retain.Reachable := by
  apply reachable.invariant (Relation.ReflTransGen.refl : RetainStore.new.Reachable)
  intro server event next held step
  cases step with
  | accept fresh => exact held
  | @poll clientId live goesOn read ready =>
    cases given : server.resolve (server.clients clientId) clientId read ready with | mk input behind =>
    obtain ⟨broker, mqttId⟩ := behind
    have resolves := server.resolve_broker (server.clients clientId) clientId read ready
    rw [given] at resolves
    dsimp only at resolves
    rw [Server.poll_eq given]
    refine held.trans ?_
    obtain rfl | ⟨req, _, rfl⟩ | ⟨req, _, rfl⟩ := resolves
    · exact .refl
    · exact (Broker.Step.connect clientId _ req).retain_updates
    · exact (Broker.Step.request _ req).retain_updates
  | background background step => exact held.trans step.retain_updates

namespace Broker

/-- The messages collected from the ones visited: one for each topic. -/
structure Collected.OnePerTopic (visited : List Publish) (collected : Collected) : Prop where
  topics : collected.topics = collected.packets.map Publish.topicName
  distinct : collected.topics.Nodup
  only : ∀ p ∈ collected.packets, p ∈ visited
  every : ∀ p ∈ visited, p.topicName ∈ collected.topics

private theorem Collected.OnePerTopic.add {visited : List Publish} {collected : Collected}
    (one : collected.OnePerTopic visited) (p : Publish) : (collected.add p).OnePerTopic (visited ++ [p]) := by
  unfold Collected.add
  split
  · next known =>
    refine ⟨one.topics, one.distinct, fun q member => List.mem_append_left _ (one.only q member), ?_⟩
    rw [List.forall_mem_append, List.forall_mem_singleton]
    exact ⟨one.every, known⟩
  · next fresh =>
    refine ⟨?_, ?_, ?_, ?_⟩
    · dsimp only
      rw [one.topics, List.map_append, List.map_singleton]
    · exact List.nodup_append'.mpr ⟨one.distinct, List.nodup_singleton _, by simpa using fresh⟩
    · dsimp only
      rw [List.forall_mem_append, List.forall_mem_singleton]
      exact ⟨fun q member => List.mem_append_left _ (one.only q member), by simp⟩
    · rw [List.forall_mem_append, List.forall_mem_singleton]
      exact ⟨fun q member => List.mem_append_left _ (one.every q member), by simp⟩

theorem Collected.onePerTopic (session : SessionManager) (visited : List Publish) :
    (visited.foldl Collected.add { session }).OnePerTopic visited := by
  induction visited using List.reverseRecOn with
  | nil => exact ⟨rfl, .nil, List.forall_mem_nil _, List.forall_mem_nil _⟩
  | append_singleton visited p ih =>
    rw [List.foldl_append, List.foldl_cons, List.foldl_nil]
    exact ih.add p

theorem collectRetained_selects {self : Broker} (keyed : self.retain.Keyed)
    (filters : List (TopicFilter × SubscribeOption)) :
    self.retain.SelectedBy filters (self.collectRetained filters).packets := by
  have one := Collected.onePerTopic self.session
    (filters.flatMap fun filter => self.retain.checkRetain filter.1.value)
  have only : ∀ p ∈ (self.collectRetained filters).packets, ∃ topic, self.retain.kvs.get topic = some p ∧
      ∃ filter ∈ filters, Matches filter.1.value topic := by
    intro p member
    obtain ⟨filter, among, selected⟩ := List.mem_flatMap.mp (one.only p member)
    obtain ⟨topic, kept, matched⟩ := RetainStore.mem_checkRetain_iff.mp selected
    exact ⟨topic, kept, filter, among, matched⟩
  refine ⟨?_, only⟩
  rintro topic p kept ⟨filter, among, matched⟩
  have selected := RetainStore.mem_checkRetain_iff.mpr ⟨topic, kept, matched⟩
  have listed := one.every p (List.mem_flatMap.mpr ⟨filter, among, selected⟩)
  rw [one.topics] at listed
  obtain ⟨q, member, same⟩ := List.mem_map.mp listed
  -- both are kept under the topic they have
  have identical : q = p := by
    obtain ⟨topic', kept', -⟩ := only q member
    have topics : topic' = topic := by
      rw [← keyed topic' q kept', ← keyed topic p kept, same]
    rw [topics, kept] at kept'
    exact (Option.some.inj kept').symm
  rw [identical] at member
  have distinct := one.distinct
  rw [one.topics] at distinct
  exact List.count_eq_one_of_mem (List.Nodup.of_map _ distinct) member

end Broker

/-- A SUBACK, and behind it the retained messages the filters select. -/
def AnswersRetained (store : RetainStore) (p : Subscribe) (response : Response) : Prop :=
  ∃ suback packets, response.packets = .suback suback :: packets.map ControlPacket.publish ∧
    suback.packetId = p.packetId ∧ store.SelectedBy p.topicFilters packets

/-- For every reachable store and every SUBSCRIBE, the response is the SUBACK and each retained message a filter
matches, once; and in every reachable server a SUBSCRIBE is answered from such a store. -/
theorem subscribe_retained :
    (∀ (self : Broker) (mqttId : String) (p : Subscribe) (response : Response), self.retain.Reachable →
      (self.handle mqttId (.subscribe p)).1 = .ok response → AnswersRetained self.retain p response) ∧
    ∀ (build : Build) (server : Server) (clientId : Uuid) (p : Subscribe), server.Reachable build →
      (server.clients clientId).session.result = .ok none →
      (server.clients clientId).session.connection.state = .processingService (.subscribe p) →
        ∃ response, (server.broker.handle (server.clients clientId).mqttId (.subscribe p)).1 = .ok response ∧
          AnswersRetained server.broker.retain p response := by
  have answered : ∀ {self : Broker} {mqttId : String} {version : ProtocolVersion}, self.retain.Reachable →
      self.session.getProtocolVersion mqttId = some version → ∀ p, ∃ response,
        (self.handle mqttId (.subscribe p)).1 = .ok response ∧ AnswersRetained self.retain p response := by
    intro self mqttId version reachable versioned p
    exact ⟨_, self.subscribe_answer versioned p, _, _, rfl, rfl,
      self.collectRetained_selects reachable.keyed p.topicFilters⟩
  constructor
  · intro self mqttId p response reachable answer
    cases versioned : self.session.getProtocolVersion mqttId with
    | none =>
      simp only [Broker.handle, Broker.onSubscribe, versioned] at answer
      cases answer
    | some version =>
      obtain ⟨own, same, answers⟩ := answered reachable versioned p
      rw [answer] at same
      cases same
      exact answers
  · intro build server clientId p reachable goesOn phase
    exact answered reachable.retain (reachable.versioned_of_service goesOn phase) p

/-- A message retained for `t`. -/
def retained : Publish where
  retain := ⟨true⟩
  topicName := ⟨"t"⟩
  payloadLength := 1
  payloadData := [0x01]

/-- A broker with this message and the client `a`. -/
def retaining : Broker where
  session := SessionManager.new.setProtocolVersion "a" level4
  retain := RetainStore.new.updateRetain "t" retained

def sharing : Subscribe where
  packetId := ⟨7⟩
  topicFilters := [(⟨"#"⟩, {}), (⟨"t"⟩, {}), (⟨"t"⟩, {})]

/-- The SUBACK with a code for each filter, and the message once. -/
def shared : Response where
  packets := [.suback {
    packetId := ⟨7⟩
    subackProperties := none
    reasonCodes := [.grantedQos0, .grantedQos0, .grantedQos0]
    protocolVersion := level4 }, .publish retained]

/-- A server that processes the SUBSCRIBE of the client `a`, behind the CONNACK and three polls. -/
def processing : Server :=
  let announced := (joined (connectBytes 4 [])).poll ⟨false⟩ ⟨0⟩ .pending false
  let received := announced.poll ⟨false⟩ ⟨0⟩ (.ready [0x82, 0x06, 0x00, 0x07, 0x00, 0x01, 0x74, 0x00]) false
  (received.poll ⟨false⟩ ⟨0⟩ .pending false).poll ⟨false⟩ ⟨0⟩ .pending false

private theorem processing_reachable : processing.Reachable ⟨false⟩ := by
  have joined := (joined_reachable (.inl rfl)).1
  unfold processing
  refine .poll (.poll (.poll (joined.poll ?_ ?_ _ _) ?_ ?_ _ _) ?_ ?_ _ _) ?_ ?_ _ _ <;> rfl

private theorem processing_phase : ∃ p, (processing.clients ⟨0⟩).session.result = .ok none ∧
    (processing.clients ⟨0⟩).session.connection.state = .processingService (.subscribe p) :=
  ⟨_, rfl, rfl⟩

theorem subscribe_retained_shared :
    AnswersRetained retaining.retain sharing shared ∧
      ∃ p response, (processing.broker.handle (processing.clients ⟨0⟩).mqttId (.subscribe p)).1 = .ok response ∧
        AnswersRetained processing.broker.retain p response := by
  constructor
  · exact subscribe_retained.1 retaining "a" sharing shared (.single (.update retained)) (by decide)
  · obtain ⟨p, goesOn, phase⟩ := processing_phase
    exact ⟨p, subscribe_retained.2 ⟨false⟩ processing ⟨0⟩ p processing_reachable goesOn phase⟩

end Aqua
