import Aqua.Proofs.Handlers
import Mathlib.Data.List.ReduceOption

/-! # The table of subscriptions

Every filter of a SUBSCRIBE is appended to the list of its filter, whether the client is on that list
or not, and an UNSUBSCRIBE is answered like any packet the broker does not know. The table is the set
of live subscriptions exactly as long as no client mentions a filter it has subscribed to again.
-/

namespace Aqua

open Runtime

/-- A request of a client with a non-empty id. -/
structure ClientRequest where
  mqttId : String
  named : mqttId ≠ ""
  packet : ControlPacket

/-- The filters a packet mentions: a SUBSCRIBE each with its option, an UNSUBSCRIBE with none. -/
def ControlPacket.mentions : ControlPacket → List (String × Option SubscribeOption)
  | .subscribe p => p.topicFilters.map fun filter => (filter.1.value, some filter.2)
  | .unsubscribe p => p.topicFilters.map fun filter => (filter.value, none)
  | _ => []

/-- The mentions of a pair of a client and a filter in one request. -/
def ClientRequest.mentions (self : ClientRequest) (client filter : String) :
    List (Option SubscribeOption) :=
  if self.mqttId = client then
    (self.packet.mentions.filter fun mention => mention.1 = filter).map Prod.snd
  else []

/-- All mentions of a pair, in their order. -/
def mentions (requests : List ClientRequest) (client filter : String) :
    List (Option SubscribeOption) :=
  requests.flatMap fun request => request.mentions client filter

/-- The live subscription of a pair: the option of its last mention, if that was a SUBSCRIBE. -/
def live (requests : List ClientRequest) (client filter : String) : Option SubscribeOption :=
  (mentions requests client filter).getLast?.join

namespace TopicManager

/-- The entries of the list of a filter. -/
def subscribers (self : TopicManager) (filter : String) : List (String × SubscribeOption) :=
  (self.topicMap.get filter).getD []

/-- The options a client has on the list of a filter. -/
def options (self : TopicManager) (client filter : String) : List SubscribeOption :=
  ((self.subscribers filter).filter fun entry => entry.1 = client).map Prod.snd

/-- The table has exactly one entry for every live subscription, with its option, and no other. -/
def Refines (self : TopicManager) (live : String → String → Option SubscribeOption) : Prop :=
  ∀ client filter, self.options client filter = (live client filter).toList

/-- A topic lists a client at most once for each filter, and only clients with a live subscription
that matches. -/
def ListsLive (self : TopicManager) (live : String → String → Option SubscribeOption) : Prop :=
  (∀ filter, ((self.subscribers filter).map Prod.fst).Nodup) ∧
    ∀ topic client option, (client, option) ∈ self.subedId topic →
      ∃ filter, self.isMatch filter topic ∧ live client filter = some option

variable {self : TopicManager} {live : String → String → Option SubscribeOption}

theorem mem_options {client filter : String} {option : SubscribeOption} :
    option ∈ self.options client filter ↔ (client, option) ∈ self.subscribers filter := by
  simp [options]

theorem mem_subedId {topic client : String} {option : SubscribeOption}
    (listed : (client, option) ∈ self.subedId topic) :
    ∃ filter, self.isMatch filter topic ∧ (client, option) ∈ self.subscribers filter := by
  obtain ⟨filter, _, member⟩ := List.mem_flatMap.mp listed
  split at member
  · next matched => exact ⟨filter, matched, member⟩
  · cases member

private theorem options_length (client filter : String) :
    (self.options client filter).length = ((self.subscribers filter).map Prod.fst).count client := by
  rw [options, List.length_map, ← List.countP_eq_length_filter, List.count, List.countP_map]
  rfl

private theorem Refines.listsLive (refines : self.Refines live) : self.ListsLive live := by
  constructor
  · intro filter
    rw [List.nodup_iff_count_le_one]
    intro client
    rw [← options_length, refines client filter]
    exact Option.length_toList_le
  · intro topic client option listed
    obtain ⟨filter, matched, member⟩ := mem_subedId listed
    refine ⟨filter, matched, ?_⟩
    rw [← mem_options, refines client filter] at member
    exact Option.mem_toList.mp member

private theorem options_register (self : TopicManager) (topicFilter clientId client filter : String)
    (option : SubscribeOption) :
    (self.register topicFilter clientId option).options client filter =
      self.options client filter ++
        if topicFilter = filter ∧ clientId = client then [option] else [] := by
  simp only [options, subscribers, register, DashMap.get_modify]
  by_cases same : filter = topicFilter
  · subst same
    by_cases own : clientId = client <;> simp [own, List.filter_append]
  · simp [same, Ne.symm same]

theorem options_registerAll (filters : List (TopicFilter × SubscribeOption)) (self : TopicManager)
    (clientId client filter : String) :
    (filters.foldl (fun topics entry => topics.register entry.1.value clientId entry.2)
        self).options client filter =
      self.options client filter ++
        if clientId = client then
          (filters.filter fun entry => entry.1.value = filter).map Prod.snd
        else [] := by
  induction filters generalizing self with
  | nil => simp
  | cons entry filters ih =>
    rw [List.foldl_cons, ih, options_register, List.append_assoc]
    congr 1
    by_cases own : clientId = client <;> by_cases same : entry.1.value = filter <;> simp [own, same]

end TopicManager

/-- A request appends exactly the options its SUBSCRIBE mentions. -/
theorem options_handle (broker : Broker) (request : ClientRequest) (client filter : String) :
    (broker.handle request.mqttId request.packet).2.topics.options client filter =
      broker.topics.options client filter ++ (request.mentions client filter).reduceOption := by
  obtain ⟨mqttId, named, packet⟩ := request
  rw [Broker.handle_topics]
  cases packet with
  | subscribe p =>
    simp only [if_pos named, TopicManager.options_registerAll, ClientRequest.mentions,
      ControlPacket.mentions]
    congr 1
    split
    · induction p.topicFilters with
      | nil => rfl
      | cons entry filters ih =>
        by_cases same : entry.1.value = filter <;>
          simpa [same, List.filter_cons, List.reduceOption_cons_of_some] using ih
    · rfl
  | unsubscribe p =>
    simp only [ClientRequest.mentions, ControlPacket.mentions]
    split
    · induction p.topicFilters with
      | nil => simp
      | cons entry filters ih =>
        by_cases same : entry.value = filter <;>
          simpa [same, List.filter_cons, List.reduceOption_cons_of_none] using ih
    · simp
  | _ => simp [ClientRequest.mentions, ControlPacket.mentions]

/-- The state behind a run of requests. -/
def Broker.serve (self : Broker) (requests : List ClientRequest) : Broker :=
  requests.foldl (fun broker request => (broker.handle request.mqttId request.packet).2) self

private theorem options_serve (broker : Broker) (requests : List ClientRequest) (client filter : String) :
    (broker.serve requests).topics.options client filter =
      broker.topics.options client filter ++ (mentions requests client filter).reduceOption := by
  induction requests generalizing broker with
  | nil => simp [Broker.serve, mentions]
  | cons request requests ih =>
    have rest := ih (broker.handle request.mqttId request.packet).2
    rw [options_handle, List.append_assoc, ← List.reduceOption_append] at rest
    exact rest

/-- A history is reduced to its last entry exactly if nothing but unsubscriptions come before it. -/
theorem reduceOption_eq_last_iff {α : Type} (history : List (Option α)) :
    history.reduceOption = history.getLast?.join.toList ↔
      ∀ mention ∈ history.dropLast, mention = none := by
  rcases history.eq_nil_or_concat with rfl | ⟨earlier, last, rfl⟩
  · simp
  · rw [List.concat_eq_append, List.reduceOption_append, List.reduceOption_singleton,
      List.getLast?_concat, List.dropLast_concat]
    change _ ++ last.toList = last.toList ↔ _
    rw [List.append_left_eq_self, List.reduceOption_eq_nil_iff]
    simp only [List.eq_replicate_iff, exists_eq_left']

/-- From a table without subscriptions, behind any run of requests of clients with non-empty ids, the
table has exactly one entry, with the last option, for every pair that was last mentioned by a
SUBSCRIBE and none for every other, and a topic lists only live subscriptions and none twice, if and
only if no pair is mentioned again after a SUBSCRIBE mentioned it. -/
theorem subscriptions_live_iff (broker : Broker) (requests : List ClientRequest) :
    (({ broker with topics := .new }.serve requests).topics.Refines (live requests) ∧
      ({ broker with topics := .new }.serve requests).topics.ListsLive (live requests)) ↔
    ∀ client filter, ∀ mention ∈ (mentions requests client filter).dropLast, mention = none := by
  have table : ∀ client filter,
      ({ broker with topics := .new }.serve requests).topics.options client filter =
        (mentions requests client filter).reduceOption := by
    intro client filter
    rw [options_serve]
    rfl
  simp only [← reduceOption_eq_last_iff]
  constructor
  · rintro ⟨refines, -⟩ client filter
    rw [← table]
    exact refines client filter
  · intro last
    have refines : ({ broker with topics := .new }.serve requests).topics.Refines (live requests) := by
      intro client filter
      rw [table]
      exact last client filter
    exact ⟨refines, refines.listsLive⟩

/-- A SUBSCRIBE of one filter. -/
def subscribed (qos : QoS) : ClientRequest where
  mqttId := "a"
  named := by decide
  packet := .subscribe { topicFilters := [({ value := "t" }, { qos })] }

/-- The UNSUBSCRIBE of the same filter. -/
def unsubscribed : ClientRequest where
  mqttId := "a"
  named := by decide
  packet := .unsubscribe { topicFilters := [{ value := "t" }] }

/-- A repeated SUBSCRIBE leaves two entries, and an UNSUBSCRIBE leaves the one that is there. -/
theorem resubscribed_not_live :
    ¬ (∀ requests, (Broker.new.serve requests).topics.Refines (live requests)) ∧
    ¬ (Broker.new.serve [subscribed .qos0, subscribed .qos1]).topics.Refines
        (live [subscribed .qos0, subscribed .qos1]) ∧
    ¬ (Broker.new.serve [subscribed .qos0, unsubscribed]).topics.Refines
        (live [subscribed .qos0, unsubscribed]) := by
  have twice : ¬ (Broker.new.serve [subscribed .qos0, subscribed .qos1]).topics.Refines
      (live [subscribed .qos0, subscribed .qos1]) :=
    fun refines => absurd (refines "a" "t") (by decide)
  refine ⟨fun all => twice (all _), twice, fun refines => absurd (refines "a" "t") (by decide)⟩

end Aqua
