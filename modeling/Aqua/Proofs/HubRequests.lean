import Aqua.Proofs.HubSteps
import Aqua.Soundness.ControlPackets

/-! # Requests to the hub

Every handler does what its request asks the hub for. What a SUBSCRIBE collects from the table of retained
messages is what a recall finds, and what it stages again is what the hub holds again.
-/

namespace Aqua

open Runtime

namespace Broker

variable {self : Broker} {workers : List Worker} {offers : Uuid → List ControlPacket}

theorem onDisconnect_hub (self : Broker) (mqttId : String) :
    Hub.Serves rules (if mqttId ≠ "" then [.leave mqttId] else []) (self.hub workers offers)
      ((self.onDisconnect mqttId).2.hub workers offers) := by
  unfold onDisconnect
  by_cases named : mqttId ≠ ""
  · simp only [if_pos named]
    refine .request (.leave mqttId) (Hub.ext ?_ rfl rfl ?_ rfl rfl rfl rfl)
    · funext name
      simp only [hub, unregisterMqttId_byMqttId, Function.update_apply]
    · funext id
      simp only [hub, staged, unregisterMqttId_qosTmp]
  · simp only [if_neg named]
    exact .nil rfl

theorem clearRetained_hub (self : Broker) (p : Publish) :
    Hub.Serves rules (if p.retain.value then [.forget p.topicName.value] else []) (self.hub workers offers)
      ((self.clearRetained p).hub workers offers) := by
  unfold clearRetained
  split
  · refine .request (.forget p.topicName.value) (Hub.ext rfl rfl ?_ rfl rfl rfl rfl rfl)
    funext topic
    simp only [hub, RetainStore.removeRetain, DashMap.get_remove, Function.update_apply]
    split <;> rfl
  · exact .nil rfl

/-- The messages that are held, when one is staged. -/
theorem held_addStagingPacket (self : Broker) {p : Publish} {id : PacketId} (own : p.packetId = some id) (qos : QoS) :
    (fun id => (({ self with session := self.session.addStagingPacket p qos } : Broker).staged id).map
      fun entry => entry.1.letter) =
    Function.update (fun id => (self.staged id).map fun entry => entry.1.letter) id (some p.letter) := by
  funext other
  simp only [staged, get_addStagingPacket, own, Option.some.injEq, Function.update_apply, eq_comm (a := id)]
  split <;> rfl

theorem held_commitPacket (self : Broker) (pid : PacketId) :
    (fun id => (({ self with session := (self.session.commitPacket pid).2 } : Broker).staged id).map
      fun entry => entry.1.letter) =
    Function.update (fun id => (self.staged id).map fun entry => entry.1.letter) pid none := by
  funext other
  simp only [staged, get_commitPacket, Function.update_apply, eq_comm (a := pid)]
  split <;> rfl

/-- The hub with one more worker. -/
theorem hub_concat (self : Broker) (workers : List Worker) (worker : Worker) (offers : Uuid → List ControlPacket) :
    self.hub (workers ++ [worker]) offers = { self.hub workers offers with
      posted := (self.hub workers offers).posted + worker.posted
      kept := (self.hub workers offers).kept + worker.kept
      copies := (self.hub workers offers).copies + worker.copies } := by
  simp only [hub, List.map_append, List.map_singleton, List.sum_append, List.sum_singleton]

theorem onPublish_hub (self : Broker) (idle : self.tasks = []) (mqttId : String) (p : Publish) :
    Hub.Serves rules p.requests (self.hub workers offers)
      ((self.onPublish mqttId p).2.hub (workers ++ (self.onPublish mqttId p).2.tasks.map Worker.spawned) offers) := by
  obtain ⟨unnumbered, counted, after⟩ | ⟨empty, valid, after⟩ | ⟨full, numbered, qos2, after⟩ |
    ⟨full, valid, other, after⟩ := self.onPublish_cases mqttId p
  · rw [after, idle, Publish.requests, if_pos ⟨unnumbered, counted⟩]
    exact .nil (congrArg (self.hub · offers) (List.append_nil workers))
  · have tasks : (self.clearRetained (self.stamped mqttId p)).tasks = [] := by
      unfold clearRetained
      split <;> exact idle
    rw [after, tasks, List.map_nil, List.append_nil, Publish.requests,
      if_neg (not_and_or.mpr (valid.imp_right not_not.mpr)), if_pos empty]
    exact self.clearRetained_hub (self.stamped mqttId p)
  · obtain ⟨id, own⟩ := Option.ne_none_iff_exists'.mp numbered
    rw [after, idle, Publish.requests, if_neg (fun wrong => numbered wrong.1), if_neg full, qos2, own]
    refine .request (.hold id p.letter) ?_
    rw [List.map_nil, List.append_nil]
    have members := (addStagingPacket_sameMaps self.session (self.stamped mqttId p) .qos2).byMqttId
    have held := self.held_addStagingPacket (p := self.stamped mqttId p) own .qos2
    exact Hub.ext (congrArg DashMap.get members) rfl rfl held rfl rfl rfl rfl
  · have posts : p.requests = [.post p.letter] := by
      rw [Publish.requests, if_neg (not_and_or.mpr (valid.imp_right not_not.mpr)), if_neg full]
      split
      · next qos2 _ => exact absurd qos2 other
      · rfl
    rw [after, posts]
    refine .request (.post p.letter) ?_
    rw [spawn, idle, List.nil_append, List.map_singleton, hub_concat]
    exact Hub.ext rfl rfl rfl rfl (add_comm _ _) (add_zero _) (add_zero _) rfl

theorem onPubrel_hub (self : Broker) (idle : self.tasks = []) (keeps : self.Keeps Publish.Carries) (mqttId : String)
    (p : Pubrel) :
    Hub.Serves rules [.release p.packetId] (self.hub workers offers)
      ((self.onPubrel mqttId p).2.hub (workers ++ (self.onPubrel mqttId p).2.tasks.map Worker.spawned) offers) := by
  cases found : self.staged p.packetId with
  | none =>
    have after : (self.onPubrel mqttId p).2 = self := by
      have unknown : self.session.qosTmp.get p.packetId.value = none := found
      simp only [onPubrel, SessionManager.fetchPacket, unknown]
    have waits : (self.hub workers offers).held p.packetId = none := by
      simp only [hub, found, Option.map_none]
    rw [after, idle, List.map_nil, List.append_nil]
    exact .request (.idle waits) rfl
  | some entry =>
    have full := (keeps.staged _ _ found).1
    have waits : (self.hub workers offers).held p.packetId = some entry.1.letter := by
      simp only [hub, found, Option.map_some]
    have after : (self.onPubrel mqttId p).2 =
        { ({ self.retainFor (.deliver entry.1) with
            session := (self.session.commitPacket p.packetId).2 } : Broker) with
          tasks := [.release entry.1 p.packetId] } := by
      have known : self.session.qosTmp.get p.packetId.value = some entry := found
      simp only [onPubrel, SessionManager.fetchPacket, known, full, false_and, if_false, spawn, retainFor]
      split <;> simp [idle]
    have letter := self.letter_retained entry.1
    obtain ⟨retain, same⟩ := self.retainFor_eq (.deliver entry.1)
    rw [same] at letter after
    rw [after, List.map_singleton, hub_concat]
    refine .request (.release waits) ?_
    have members := (commitPacket_sameMaps self.session p.packetId).byMqttId
    exact Hub.ext (congrArg DashMap.get members) rfl letter (self.held_commitPacket p.packetId) (add_zero _)
      (add_comm _ _) (add_zero _) rfl

theorem onPubcomp_hub (self : Broker) (p : Pubcomp) :
    Hub.Serves rules [.discard p.packetId] (self.hub workers offers) ((self.onPubcomp p).2.hub workers offers) := by
  have members := (commitPacket_sameMaps self.session p.packetId).byMqttId
  refine .request (.discard p.packetId) ?_
  exact Hub.ext (congrArg DashMap.get members) rfl rfl (self.held_commitPacket p.packetId) rfl rfl rfl rfl

/-- The table behind a SUBSCRIBE. -/
def enrolled (self : Broker) (mqttId : String) (p : Subscribe) : TopicManager :=
  if mqttId ≠ "" then
    p.topicFilters.foldl (fun topics filter => topics.register filter.1.value mqttId filter.2) self.topics
  else self.topics

theorem onSubscribe_state (self : Broker) (mqttId : String) (p : Subscribe) :
    (self.onSubscribe mqttId p).2 =
      { self with
        topics := self.enrolled mqttId p
        session := (self.collectRetained p.topicFilters).session } := by
  unfold onSubscribe
  dsimp only
  split <;> rfl

/-- Of the messages collected, those with QoS 2 are staged; nothing else changes. -/
def Collected.Restages (session : SessionManager) (collected : Collected) : Prop :=
  ∀ id : PacketId,
    collected.session.qosTmp.get id.value = session.qosTmp.get id.value ∧
        (∀ p ∈ collected.packets, ¬ (p.qos = .qos2 ∧ p.packetId = some id)) ∨
      ∃ p ∈ collected.packets, p.qos = .qos2 ∧ p.packetId = some id ∧
        collected.session.qosTmp.get id.value = some (p, .qos2)

theorem Collected.Restages.add {session : SessionManager} {collected : Collected}
    (restages : collected.Restages session) (p : Publish) : (collected.add p).Restages session := by
  unfold Collected.add
  split
  · exact restages
  · intro id
    have staged : (if p.qos = .qos2 then collected.session.addStagingPacket p .qos2
        else collected.session).qosTmp.get id.value =
          if p.qos = .qos2 ∧ p.packetId = some id then some (p, .qos2)
          else collected.session.qosTmp.get id.value := by
      by_cases qos2 : p.qos = .qos2
      · simp only [qos2, if_true, true_and, get_addStagingPacket]
      · simp only [qos2, if_false, false_and]
    dsimp only
    rw [staged, List.forall_mem_append, List.forall_mem_singleton]
    simp only [List.mem_append, List.mem_singleton]
    by_cases own : p.qos = .qos2 ∧ p.packetId = some id
    · exact .inr ⟨p, .inr rfl, own.1, own.2, if_pos own⟩
    · rw [if_neg own]
      rcases restages id with ⟨same, none⟩ | ⟨q, member, rest⟩
      · exact .inl ⟨same, none, own⟩
      · exact .inr ⟨q, .inl member, rest⟩

theorem Collected.restages (session : SessionManager) (visited : List Publish) :
    (visited.foldl Collected.add { session }).Restages session := by
  induction visited using List.reverseRecOn with
  | nil => exact fun id => .inl ⟨rfl, List.forall_mem_nil _⟩
  | append_singleton visited p ih =>
    rw [List.foldl_append, List.foldl_cons, List.foldl_nil]
    exact ih.add p

/-- What a SUBSCRIBE collects is what the hub recalls. -/
theorem collectRetained_recalls (self : Broker) (keyed : self.retain.Keyed)
    (filters : List (TopicFilter × SubscribeOption)) :
    rules.Recalls (self.hub workers offers).retained (filters.map fun filter => filter.1.value)
      ((self.collectRetained filters).packets.map Publish.letter) := by
  have one := Collected.onePerTopic self.session
    (filters.flatMap fun filter => self.retain.checkRetain filter.1.value)
  obtain ⟨selects, only⟩ := self.collectRetained_selects keyed filters
  constructor
  · have distinct := one.distinct
    rw [one.topics] at distinct
    refine List.Nodup.of_map Publish.topicName ?_
    rw [List.map_map]
    exact distinct
  · intro note
    constructor
    · intro member
      obtain ⟨p, among, rfl⟩ := List.mem_map.mp member
      obtain ⟨topic, kept, filter, listed, matched⟩ := only p among
      exact ⟨topic, congrArg (Option.map Publish.letter) kept, filter.1.value, List.mem_map_of_mem listed,
        matched⟩
    · rintro ⟨topic, kept, name, listed, matched⟩
      obtain ⟨p, found, rfl⟩ := Option.map_eq_some_iff.mp kept
      obtain ⟨filter, among, rfl⟩ := List.mem_map.mp listed
      have once := selects topic p found ⟨filter, among, matched⟩
      exact List.mem_map_of_mem (List.count_pos_iff.mp (by omega))

/-- Those with QoS 2 are held again. -/
theorem collectRetained_holds (self : Broker) (filters : List (TopicFilter × SubscribeOption)) :
    rules.Holds (self.hub workers offers).held ((self.collectRetained filters).packets.map Publish.letter)
      (({ self with session := (self.collectRetained filters).session } : Broker).hub workers offers).held := by
  have key : ∀ (p : Publish) (id : PacketId),
      rules.key p.letter = some id ↔ p.qos = .qos2 ∧ p.packetId = some id := by
    intro p id
    by_cases qos2 : p.qos = .qos2 <;> simp [rules, Publish.letter, qos2]
  have letters : ∀ {found : Option (Publish × QoS)} {found' : Option (Publish × QoS)}, found = found' →
      (found.map fun entry => entry.1.letter) = found'.map fun entry => entry.1.letter := congrArg _
  intro id
  have restages := Collected.restages self.session
    (filters.flatMap fun filter => self.retain.checkRetain filter.1.value) id
  rcases restages with ⟨same, none⟩ | ⟨p, member, qos2, own, staged⟩
  · refine .inl ⟨letters same, ?_⟩
    rw [List.forall_mem_map]
    exact fun p member held => none p member ((key p id).mp held)
  · exact .inr ⟨p.letter, List.mem_map_of_mem member, (key p id).mpr ⟨qos2, own⟩, letters staged⟩

/-- The packets of an answer, as they are offered. -/
def offersOf : Result Response → List ControlPacket
  | .ok res => written res.packets
  | _ => []

/-- Behind the SUBACK a SUBSCRIBE is answered with what it collects. -/
theorem offersOf_subscribe {self : Broker} {mqttId : String} {p : Subscribe} {version : ProtocolVersion}
    (versioned : self.session.getProtocolVersion mqttId = some version) :
    (offersOf (self.onSubscribe mqttId p).1).filterMap ControlPacket.letter? =
      ((self.collectRetained p.topicFilters).packets.map Publish.letter).map rules.recalled := by
  have answer : (self.onSubscribe mqttId p).1 = _ := self.subscribe_answer versioned p
  rw [answer, offersOf, written.eq_4 _ _ (fun _ wrong => by cases wrong) (fun wrong => by cases wrong),
    written_publishes, List.filterMap_cons, List.filterMap_map, List.map_map]
  exact congrFun List.filterMap_eq_map _

theorem onSubscribe_hub (self : Broker) {clientId : Uuid} {mqttId : String} {p : Subscribe}
    (keyed : self.retain.Keyed) (unsent : offers clientId = []) {version : ProtocolVersion}
    (versioned : self.session.getProtocolVersion mqttId = some version) :
    Hub.Serves rules ((ControlPacket.subscribe p).requests clientId mqttId) (self.hub workers offers)
      ((self.onSubscribe mqttId p).2.hub workers
        (Function.update offers clientId (offersOf (self.onSubscribe mqttId p).1))) := by
  have enrolls : Hub.Serves rules
      (if mqttId ≠ "" then [.enroll mqttId (p.topicFilters.map fun filter => (filter.1.value, filter.2))] else [])
      (self.hub workers offers) (({ self with topics := self.enrolled mqttId p } : Broker).hub workers offers) := by
    unfold enrolled
    by_cases named : mqttId ≠ ""
    · simp only [if_pos named]
      refine .request (.enroll _ _) (Hub.ext rfl ?_ rfl rfl rfl rfl rfl rfl)
      simp only [hub, TopicManager.subscriptions_registerAll, List.map_map]
      rfl
    · simp only [if_neg named]
      exact .nil rfl
  refine enrolls.trans ?_
  have due := offersOf_subscribe (p := p) versioned
  rw [onSubscribe_state]
  have recalls := @collectRetained_recalls workers offers self keyed p.topicFilters
  have holds := @collectRetained_holds workers offers self p.topicFilters
  refine .request (.recall clientId recalls holds) ?_
  have members := (self.collectRetained_sameMaps p.topicFilters).byMqttId
  refine Hub.ext (congrArg DashMap.get members) rfl rfl rfl rfl rfl rfl ?_
  funext other
  simp only [hub, Hub.withMailbox, Function.update_apply]
  split
  · next own =>
    rw [own, mailboxOf, due, unsent]
    rfl
  · rfl

theorem onConnect_hub (self : Broker) (clientId : Uuid) (mqttId : String) (req : ControlPacket) :
    Hub.Serves rules (req.joins clientId) (self.hub workers offers)
      ((self.onConnect clientId mqttId req).2.1.hub workers offers) := by
  cases req with
  | connect p =>
    simp only [onConnect, ControlPacket.joins]
    split
    · refine .request (.join p.clientId.value clientId) (Hub.ext ?_ rfl rfl rfl rfl rfl rfl rfl)
      funext name
      simp only [hub, SessionManager.setProtocolVersion, SessionManager.registerMqttId, DashMap.get_insert,
        Function.update_apply]
    · exact .nil rfl
  | _ => exact .nil rfl

/-- Only a SUBSCRIBE is answered with messages. -/
theorem offersOf_quiet {self : Broker} {mqttId : String} {packet : ControlPacket}
    (other : ∀ p, packet ≠ .subscribe p) :
    (offersOf (self.handle mqttId packet).1).filterMap ControlPacket.letter? = [] := by
  cases answers : (self.handle mqttId packet).1 with
  | ok res =>
    rw [offersOf, List.filterMap_eq_nil_iff]
    intro reply member
    cases reply with
    | publish msg =>
      obtain ⟨sub, wrong, _⟩ := mem_answer answers (mem_of_mem_written member)
      exact absurd wrong (other sub)
    | _ => rfl
  | _ => rfl

/-- Packets without messages change nothing for the hub. -/
theorem hub_quiet (self : Broker) {clientId : Uuid} {packets : List ControlPacket} (unsent : offers clientId = [])
    (quiet : packets.filterMap ControlPacket.letter? = []) :
    self.hub workers (Function.update offers clientId packets) = self.hub workers offers := by
  refine Hub.ext rfl rfl rfl rfl rfl rfl rfl ?_
  funext other
  simp only [hub, Function.update_apply]
  split
  · next own =>
    rw [own, mailboxOf, quiet, unsent]
    rfl
  · rfl

/-- A request is handled: the hub serves what it asks for. -/
theorem handle_hub {self : Broker} {clientId : Uuid} {mqttId : String} (packet : ControlPacket)
    (idle : self.tasks = []) (keyed : self.retain.Keyed) (keeps : self.Keeps Publish.Carries)
    (unsent : offers clientId = []) {version : ProtocolVersion}
    (versioned : self.session.getProtocolVersion mqttId = some version) :
    Hub.Serves rules (packet.requests clientId mqttId) (self.hub workers offers)
      ((self.handle mqttId packet).2.hub (workers ++ (self.handle mqttId packet).2.tasks.map Worker.spawned)
        (Function.update offers clientId (offersOf (self.handle mqttId packet).1))) := by
  have unspawned : ∀ {next : Broker}, next.tasks = [] → workers ++ next.tasks.map Worker.spawned = workers := by
    intro next none
    rw [none, List.map_nil, List.append_nil]
  cases packet with
  | subscribe p =>
    have none : (self.onSubscribe mqttId p).2.tasks = [] := by
      rw [onSubscribe_state]
      exact idle
    rw [handle, unspawned none]
    exact self.onSubscribe_hub keyed unsent versioned
  | disconnect p =>
    have none : (self.onDisconnect mqttId).2.tasks = [] := by
      unfold onDisconnect
      dsimp only
      split <;> exact idle
    rw [hub_quiet _ unsent (offersOf_quiet (by rintro _ ⟨⟩)), handle, unspawned none]
    exact self.onDisconnect_hub mqttId
  | publish p =>
    rw [hub_quiet _ unsent (offersOf_quiet (by rintro _ ⟨⟩))]
    exact self.onPublish_hub idle mqttId p
  | pubrel p =>
    rw [hub_quiet _ unsent (offersOf_quiet (by rintro _ ⟨⟩))]
    exact self.onPubrel_hub idle keeps mqttId p
  | pubcomp p =>
    have none : (self.onPubcomp p).2.tasks = [] := idle
    rw [hub_quiet _ unsent (offersOf_quiet (by rintro _ ⟨⟩)), handle, unspawned none]
    exact self.onPubcomp_hub p
  | _ =>
    rw [hub_quiet _ unsent (offersOf_quiet (by rintro _ ⟨⟩))]
    exact .nil (congrArg (self.hub · offers) (unspawned idle))

end Broker

end Aqua
