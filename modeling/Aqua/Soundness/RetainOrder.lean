import Aqua.Proofs.Handlers
import Aqua.Runtime.Runs

/-! # The order of retained messages

A message without a payload clears what is retained for its topic in its handler, any other is
retained by the task its handler spawns. What is retained in the end is therefore decided by the last
of these writes, which the order of the requests alone does not determine.
-/

namespace Aqua

open Runtime

/-- A QoS 0 or QoS 1 message that is to be retained for a topic, as a decoder emits it. -/
structure RetainedPublish (topic : String) where
  publish : Publish
  retained : publish.retain.value = true
  onTopic : publish.topicName.value = topic
  qos : publish.qos ≠ .qos2
  identified : publish.packetId ≠ none ∨ publish.qos = .qos0
  sized : publish.payloadLength = publish.payloadData.length

/-- A schedule: the requests as they are handled, and the spawned tasks as they run. -/
inductive RetainEvent (topic : String) where
  | publish (request : RetainedPublish topic)
  | task (task : Task) (draws : Broker.Draws)

namespace RetainEvent

variable {topic : String}

def toEvent (mqttId : String) : RetainEvent topic → Broker.Event
  | .publish request => .request mqttId (.publish request.publish)
  | .task spawned draws => .task spawned draws

def request : RetainEvent topic → Option (RetainedPublish topic)
  | .publish request => some request
  | .task _ _ => none

end RetainEvent

variable {topic mqttId : String} {start s next final : Broker}

namespace Broker

/-- Every task that has not run retains its message for the topic. -/
def Retaining (topic : String) (self : Broker) : Prop :=
  ∀ task ∈ self.tasks, ∃ pubpacket : Publish, task = .deliver pubpacket ∧
    pubpacket.retain.value = true ∧ pubpacket.topicName.value = topic

private theorem runTask_deliver_get (self : Broker) (draws : Draws) {pubpacket : Publish}
    (retained : pubpacket.retain.value = true) :
    ((self.runTask draws (.deliver pubpacket)).retain.kvs.get pubpacket.topicName.value =
        some pubpacket) ∧
      (self.runTask draws (.deliver pubpacket)).tasks = self.tasks := by
  simp only [runTask, if_pos retained]
  rw [sendAll_eq]
  exact ⟨DashMap.get_insert_self _ _ _, rfl⟩

/-- What the handler of a retained message does. -/
theorem handle_retained (self : Broker) (mqttId : String) (request : RetainedPublish topic) :
    (request.publish.payloadData = [] →
      (self.handle mqttId (.publish request.publish)).2.retain.kvs.get topic = none ∧
        (self.handle mqttId (.publish request.publish)).2.tasks = self.tasks) ∧
    (request.publish.payloadData ≠ [] →
      (self.handle mqttId (.publish request.publish)).2.tasks =
        self.tasks ++ [.deliver (self.stamped mqttId request.publish)]) := by
  obtain ⟨publish, retained, rfl, qos, identified, sized⟩ := request
  have sized_iff : publish.payloadLength = 0 ↔ publish.payloadData = [] := by
    rw [sized, List.length_eq_zero_iff]
  dsimp only [handle]
  obtain ⟨none_id, not_qos0, _⟩ | ⟨empty, _, after⟩ | ⟨_, _, qos2, _⟩ | ⟨full, _, _, after⟩ :=
    self.onPublish_cases mqttId publish
  · exact absurd identified (not_or.mpr ⟨not_not.mpr none_id, not_qos0⟩)
  · rw [after, clearRetained, if_pos (by exact retained)]
    refine ⟨fun _ => ⟨DashMap.get_remove_self _ _, rfl⟩, fun full => ?_⟩
    exact absurd (sized_iff.mp empty) full
  · exact absurd qos2 qos
  · rw [after]
    exact ⟨fun empty => absurd (sized_iff.mpr empty) full, fun _ => rfl⟩

private theorem Retaining.step {event : RetainEvent topic} (retaining : s.Retaining topic)
    (step : s.Step (event.toEvent mqttId) next) : next.Retaining topic := by
  cases event with
  | publish request =>
    cases step
    by_cases empty : request.publish.payloadData = []
    · have tasks := (((s.handle_retained mqttId request).1 empty)).2
      rwa [Retaining, tasks]
    · have tasks := (s.handle_retained mqttId request).2 empty
      rw [Retaining, tasks, List.forall_mem_append, List.forall_mem_singleton]
      exact ⟨retaining, _, rfl, request.retained, request.onTopic⟩
  | task task draws =>
    cases step with
    | task spawned draws =>
      obtain ⟨pubpacket, rfl, retained, _⟩ := retaining task spawned
      rw [Retaining, ((s.finish (.deliver pubpacket)).runTask_deliver_get draws retained).2]
      exact fun other member => retaining other (List.mem_of_mem_erase member)

private theorem Retaining.run {schedule : List (RetainEvent topic)} (retaining : start.Retaining topic)
    (run : Runs Step start (schedule.map (·.toEvent mqttId)) final) : final.Retaining topic := by
  induction schedule using List.reverseRecOn generalizing final with
  | nil => rwa [runs_nil_iff.mp run]
  | append_singleton schedule event ih =>
    rw [List.map_append, List.map_singleton, runs_snoc_iff] at run
    obtain ⟨s, earlier, last⟩ := run
    exact (ih earlier).step last

end Broker

/-- The requests of a schedule, in the order in which they are handled. -/
def retainRequests (schedule : List (RetainEvent topic)) : List (RetainedPublish topic) :=
  schedule.filterMap RetainEvent.request

/-- What is to be retained behind the request `last`. -/
def Broker.retainedFor (self : Broker) (mqttId : String) (last : RetainedPublish topic) :
    Option Publish :=
  if last.publish.payloadData = [] then none else some (self.stamped mqttId last.publish)

/-- The event at the end of a schedule is the last request if that clears the topic, and otherwise a
task with the message of the last request. -/
def EndsWith (start : Broker) (mqttId : String) (schedule : List (RetainEvent topic))
    (last : RetainedPublish topic) : Prop :=
  if last.publish.payloadData = [] then ∃ request, schedule.getLast? = some (.publish request)
  else ∃ draws, schedule.getLast? = some (.task (.deliver (start.stamped mqttId last.publish)) draws)

/-- For every sequence of retained QoS 0 and QoS 1 requests on one topic and every order in which the
tasks they spawn run, the store holds what the last request asks for once all tasks have run if and
only if the last event of the schedule acts for that request. -/
theorem retained_last_iff {schedule : List (RetainEvent topic)} {last : RetainedPublish topic}
    (idle : start.tasks = []) (run : Runs Broker.Step start (schedule.map (·.toEvent mqttId)) final)
    (finished : final.tasks = []) (isLast : (retainRequests schedule).getLast? = some last) :
    final.retain.kvs.get topic = start.retainedFor mqttId last ↔
      EndsWith start mqttId schedule last := by
  rcases schedule.eq_nil_or_concat with rfl | ⟨earlier, event, rfl⟩
  · cases isLast
  have idle_retaining : start.Retaining topic := by
    rw [Broker.Retaining, idle]
    exact List.forall_mem_nil _
  rw [List.concat_eq_append, List.map_append, List.map_singleton, runs_snoc_iff] at run
  obtain ⟨s, before, step⟩ := run
  have retaining := idle_retaining.run before
  rw [List.concat_eq_append] at isLast ⊢
  cases event with
  | publish request =>
    cases step
    -- the task of a last message with a payload has not run
    have empty : request.publish.payloadData = [] := by
      by_contra full
      rw [(s.handle_retained mqttId request).2 full] at finished
      simp at finished
    have same : request = last := by
      simpa [retainRequests, RetainEvent.request] using isLast
    subst same
    rw [((s.handle_retained mqttId request).1 empty).1, Broker.retainedFor, if_pos empty, EndsWith,
      if_pos empty, List.getLast?_concat]
    exact iff_of_true rfl ⟨request, rfl⟩
  | task task draws =>
    cases step with
    | task spawned draws =>
      obtain ⟨pubpacket, rfl, retained, rfl⟩ := retaining task spawned
      have written := ((s.finish (.deliver pubpacket)).runTask_deliver_get draws retained).1
      rw [written, Broker.retainedFor, EndsWith, List.getLast?_concat]
      split
      · simp
      · simp

/-- A retained message for the topic `t`. -/
def announcement (payload : Bytes) : RetainedPublish "t" where
  publish := {
    retain := ⟨true⟩
    topicName := { value := "t" }
    payloadLength := payload.length
    payloadData := payload }
  retained := rfl
  onTopic := rfl
  qos := fun wrong => by cases wrong
  identified := .inr rfl
  sized := rfl

/-- The task of the message with a payload. -/
def announcing : Task := .deliver (Broker.new.stamped "a" (announcement [1]).publish)

/-- The topic is set, then cleared, and the task of the first request runs last. -/
def overtaking : List (RetainEvent "t") :=
  [.publish (announcement [1]), .publish (announcement []), .task announcing fun _ => 0]

/-- The state behind the two requests. -/
def cleared : Broker :=
  ((Broker.new.handle "a" (.publish (announcement [1]).publish)).2.handle "a"
    (.publish (announcement []).publish)).2

/-- The state behind the task. -/
def overtaken : Broker := (cleared.finish announcing).runTask (fun _ => 0) announcing

private theorem overtaking_run :
    Runs Broker.Step .new (overtaking.map (·.toEvent "a")) overtaken :=
  ((Runs.nil.snoc (.request _ _)).snoc (.request _ _)).snoc (.task (by decide) _)

theorem retained_last_iff_overtaking :
    overtaken.retain.kvs.get "t" = Broker.new.retainedFor "a" (announcement []) ↔
      EndsWith .new "a" overtaking (announcement []) :=
  retained_last_iff rfl overtaking_run (by decide) rfl

/-- The message is retained although the last request cleared the topic. -/
theorem overtaken_retains :
    ¬ ∀ (schedule : List (RetainEvent "t")) (final : Broker) (last : RetainedPublish "t"),
      Runs Broker.Step .new (schedule.map (·.toEvent "a")) final → final.tasks = [] →
        (retainRequests schedule).getLast? = some last →
          final.retain.kvs.get "t" = Broker.new.retainedFor "a" last := by
  intro claim
  have empty := claim overtaking overtaken (announcement []) overtaking_run (by decide) rfl
  exact absurd empty (by decide)

end Aqua
