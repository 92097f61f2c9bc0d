import Aqua.Soundness.Provenance
import Mathlib.Algebra.BigOperators.Group.List.Basic
import Mathlib.Data.List.Perm.Basic

/-! # What is left to deliver

Whatever order the workers take turns in, they come to an end, and then everything that was to be delivered has
been offered to the channel it was for, each copy once. Where there was room for all of it, all of it was
accepted. Only the packet identifiers depend on the order.
-/

namespace Aqua

open Wire Runtime

/-- The message without its packet identifier. -/
def Publish.unnumbered (p : Publish) : Publish := { p with packetId := none }

/-- The copies of a task, with the MQTT ids they go to; their identifiers are not known yet. -/
def Task.copies (self : Task) (topics : TopicManager) : Sends :=
  (topics.subedId self.message.topicName.value).map fun sub =>
    (sub.1, { self.message with qos := sub.2.qos, packetId := none })

/-- The sends, whatever the identifiers. -/
def Sends.unnumbered (sends : Sends) : Sends := sends.map fun send => (send.1, send.2.unnumbered)

/-- The sends of a task are its copies, whatever is drawn. -/
theorem Broker.sendsOf_unnumbered (self : Broker) (draws : Draws) (task : Task) :
    Sends.unnumbered (self.sendsOf draws task) = task.copies self.topics := by
  have places : ∀ (subs : List (String × SubscribeOption)) (copy : String × SubscribeOption → String × Publish),
      subs.zipIdx.map (fun sub => copy sub.1) = subs.map copy := by
    intro subs copy
    rw [← Function.comp_def copy Prod.fst, ← List.map_map, List.zipIdx_map_fst]
  cases task with
  | deliver pubpacket =>
    rw [Sends.unnumbered, sendsOf, sendsTo, List.map_map]
    exact places _ fun sub => (sub.1, { pubpacket with qos := sub.2.qos, packetId := none })
  | release publish packetId =>
    rw [Sends.unnumbered, sendsOf, sendsTo, List.map_map]
    exact places _ fun sub => (sub.1, { publish with qos := sub.2.qos, packetId := none })

namespace Worker

/-- The copies a worker has still to send. -/
def due (topics : TopicManager) : Worker → Sends
  | .spawned task => task.copies topics
  | .retained task => task.copies topics
  | .sending sends => Sends.unnumbered sends

/-- The operations of a worker that are left. -/
def turns (topics : TopicManager) : Worker → ℕ
  | .spawned task => (task.copies topics).length + 2
  | .retained task => (task.copies topics).length + 1
  | .sending sends => sends.length

/-- The copies that go to a connection. -/
def dueFor (broker : Broker) (clientId : Uuid) (worker : Worker) : List Publish :=
  ((worker.due broker.topics).filter fun send => broker.session.byMqttId.get send.1 = some clientId).map Prod.snd

private theorem turns_work {broker : Broker} {worker : Worker} (unfinished : worker ≠ .sending [])
    (draws : Broker.Draws) :
    (broker.work draws worker).2.turns broker.topics + 1 = worker.turns broker.topics := by
  cases worker with
  | spawned task => rfl
  | retained task =>
    have length := congrArg List.length (broker.sendsOf_unnumbered draws task)
    rw [Sends.unnumbered, List.length_map] at length
    simp only [Broker.work, turns, length]
  | sending sends =>
    cases sends with
    | nil => exact absurd rfl unfinished
    | cons send rest => rfl

end Worker

namespace Crew

variable {self : Crew} {place : ℕ} {draws : Broker.Draws} {worker : Worker}

/-- What a worker owes a connection is what it sends there now and what it owes it then. -/
private theorem dueFor_work (there : self.workers[place]? = some worker) (draws : Broker.Draws) (clientId : Uuid) :
    worker.dueFor self.broker clientId = (self.bound? place clientId).toList.map Publish.unnumbered ++
      (self.broker.work draws worker).2.dueFor self.broker clientId := by
  unfold bound? next?
  rw [there]
  cases worker with
  | spawned task => rfl
  | retained task =>
    simp only [Broker.work, Worker.dueFor, Worker.due, Broker.sendsOf_unnumbered]
    rfl
  | sending sends =>
    cases sends with
    | nil => rfl
    | cons send rest =>
      simp only [Broker.work, Worker.dueFor, Worker.due, Sends.unnumbered, List.map_cons, List.filter_cons]
      split
      · next bound =>
        rw [if_pos (of_decide_eq_true bound)]
        rfl
      · next other =>
        rw [if_neg (fun bound => other (decide_eq_true bound))]
        rfl

end Crew

/-- Where one element of a list is replaced, the others stay. -/
private theorem exists_perm_set {α : Type} {list : List α} {place : ℕ} {old : α}
    (there : list[place]? = some old) (new : α) :
    ∃ others, list.Perm (old :: others) ∧ (list.set place new).Perm (new :: others) := by
  obtain ⟨inside, here⟩ := List.getElem?_eq_some_iff.mp there
  exact ⟨list.eraseIdx place, here ▸ (List.getElem_cons_eraseIdx_perm inside).symm,
    List.set_perm_cons_eraseIdx inside new⟩

/-- So a sum over the list changes by what is made of the element. -/
theorem sum_map_set {α M : Type} [AddCommMonoid M] {list : List α} {place : ℕ} {old : α} (make : α → M)
    (there : list[place]? = some old) (new : α) :
    ((list.set place new).map make).sum + make old = (list.map make).sum + make new := by
  obtain ⟨others, before, after⟩ := exists_perm_set there new
  rw [(before.map make).sum_eq, (after.map make).sum_eq, List.map_cons, List.map_cons, List.sum_cons, List.sum_cons]
  rw [add_right_comm, add_right_comm (make old), add_comm (make old)]

private theorem flatMap_set_perm {α β : Type} {list : List α} {place : ℕ} {old new : α} {make : α → List β}
    {front : List β} (there : list[place]? = some old) (split : make old = front ++ make new) :
    (list.flatMap make).Perm (front ++ (list.set place new).flatMap make) := by
  obtain ⟨others, before, after⟩ := exists_perm_set there new
  refine (before.flatMap_right make).trans ?_
  rw [List.flatMap_cons, split, List.append_assoc]
  refine List.Perm.append_left front ?_
  rw [← List.flatMap_cons]
  exact (after.flatMap_right make).symm

namespace Pool

/-- The operations the workers have still to do. -/
def turns (self : Pool) : ℕ := (self.workers.map (Worker.turns self.server.broker.topics)).sum

/-- The copies that are still to go to a connection. -/
def due (self : Pool) (clientId : Uuid) : List Publish :=
  self.workers.flatMap (Worker.dueFor self.server.broker clientId)

/-- A worker that is not done takes its turn. -/
def TakesTurn (self : Pool) (event : Event) : Prop :=
  ∃ place draws worker, event = .work place draws ∧ self.workers[place]? = some worker ∧ worker ≠ .sending []

/-- The steps of the workers, with nothing else happening. -/
abbrev Deliver (build : Build) : Pool → Event → Pool → Prop := Guarded (Step build) TakesTurn

variable {build : Build} {self next : Pool} {event : Event} {clientId : Uuid}

/-- What some turns do: they leave as many turns less, and of what is due to a connection they offer some copies to
its channel, one after the other, and the others stay due. -/
structure Turns (before after : Pool) (clientId : Uuid) (count : ℕ) : Prop where
  turns : count + after.turns = before.turns
  offers : ∃ offered : List Publish,
    (before.due clientId).Perm (offered.map Publish.unnumbered ++ after.due clientId) ∧
    after.server.broker.channels clientId =
      (offered.map ControlPacket.publish).foldl Channel.offer (before.server.broker.channels clientId)

private theorem Deliver.turn (step : self.Deliver build event next) (sound : self.Sound build) (clientId : Uuid) :
    self.Turns next clientId 1 := by
  obtain ⟨step, place, draws, worker, rfl, there, unfinished⟩ := step
  cases step with
  | work place draws =>
    have workers : (self.work place draws).workers =
        self.workers.set place (self.server.broker.work draws worker).2 := by
      rw [work_of_some there]
    have session : (self.work place draws).server.broker.session = self.server.broker.session :=
      self.crew.work_session place draws
    have topics : (self.work place draws).server.broker.topics = self.server.broker.topics :=
      self.crew.work_topics place draws
    refine ⟨?_, (self.crew.bound? place clientId).toList, ?_, ?_⟩
    · rw [Pool.turns, Pool.turns, workers, topics]
      have less := @Worker.turns_work self.server.broker worker unfinished draws
      have sums := sum_map_set (Worker.turns self.server.broker.topics) there (self.server.broker.work draws worker).2
      omega
    · have same : Worker.dueFor (self.work place draws).server.broker clientId =
          Worker.dueFor self.server.broker clientId := by
        funext worker
        rw [Worker.dueFor, Worker.dueFor, session, topics]
      rw [Pool.due, Pool.due, workers, same]
      exact flatMap_set_perm there (@Crew.dueFor_work self.crew place worker there draws clientId)
    · exact Crew.work_channels sound.server.connected place draws clientId

private theorem Turns.nil (self : Pool) (clientId : Uuid) : self.Turns self clientId 0 where
  turns := Nat.zero_add _
  offers := ⟨[], .refl _, rfl⟩

private theorem Turns.trans {before : Pool} {count more : ℕ} (turns : before.Turns self clientId count)
    (further : self.Turns next clientId more) : before.Turns next clientId (count + more) := by
  obtain ⟨left, offered, due, channel⟩ := turns
  obtain ⟨less, also, copies, after⟩ := further
  refine ⟨by omega, offered ++ also, ?_, ?_⟩
  · rw [List.map_append, List.append_assoc]
    exact due.trans (copies.append_left _)
  · rw [List.map_append, List.foldl_append, ← channel]
    exact after

/-- The rule for runs of the workers. -/
theorem Reachable.turns {final : Pool} {events : List Event} (reachable : self.Reachable build)
    (run : Runs (Deliver build) self events final) (clientId : Uuid) :
    final.Reachable build ∧ self.Turns final clientId events.length := by
  induction run with
  | nil => exact ⟨reachable, .nil self clientId⟩
  | snoc _ step ih =>
    obtain ⟨before, turns⟩ := ih
    rw [List.length_append, List.length_singleton]
    exact ⟨before.step step.1, turns.trans (step.turn before.sound clientId)⟩

/-- Where no worker can take a turn, none is left. -/
private theorem rested (stuck : ∀ event next, ¬ self.Deliver build event next) :
    ∀ worker ∈ self.workers, worker = .sending [] := by
  intro worker member
  obtain ⟨place, there⟩ := List.mem_iff_getElem?.mp member
  by_contra unfinished
  exact stuck _ _ ⟨.work place leastDraws, place, leastDraws, worker, rfl, there, unfinished⟩

end Pool

/-- In every reachable pool, workers that take turns while nothing else happens come to an end after as many turns as
are left, in whatever order. Then the copies that were due to a connection, each once, have been offered to its channel
one after the other; it has accepted as many as it had room for. -/
theorem deliveries_complete {build : Build} {pool final : Pool} (reachable : pool.Reachable build)
    {events : List Pool.Event} (run : Runs (Pool.Deliver build) pool events final) :
    events.length ≤ pool.turns ∧
      ((∀ event next, ¬ final.Deliver build event next) → events.length = pool.turns ∧
        ∀ clientId, ∃ offered : List Publish, (pool.due clientId).Perm (offered.map Publish.unnumbered) ∧
          final.server.broker.channels clientId =
            (offered.map ControlPacket.publish).foldl Channel.offer (pool.server.broker.channels clientId) ∧
          (final.server.broker.channels clientId).accepted = (pool.server.broker.channels clientId).accepted ++
            (offered.map ControlPacket.publish).take (pool.server.broker.channels clientId).room) := by
  have turns := (reachable.turns run ⟨0⟩).2.turns
  refine ⟨by omega, fun stuck => ⟨?_, fun clientId => ?_⟩⟩
  · have none : final.turns = 0 := by
      rw [Pool.turns, List.sum_eq_zero_iff_forall_eq_nat, List.forall_mem_map]
      intro worker member
      rw [Pool.rested stuck worker member]
      rfl
    omega
  · obtain ⟨offered, due, channel⟩ := (reachable.turns run clientId).2.offers
    have nothing : final.due clientId = [] := by
      rw [Pool.due, List.flatMap_eq_nil_iff]
      intro worker member
      rw [Pool.rested stuck worker member]
      rfl
    rw [nothing, List.append_nil] at due
    refine ⟨offered, due, channel, ?_⟩
    rw [channel, Channel.accepted_foldl_offer]

/-- The copy is sent, and nothing is left. -/
private theorem Pool.echoing_deliver :
    Runs (Deliver ⟨false⟩) echoing [.work 0 leastDraws] (echoing.work 0 leastDraws) :=
  .snoc .nil ⟨.work 0 leastDraws, 0, leastDraws, .sending [("a", echo)], rfl, rfl, by decide⟩

private theorem Pool.echoing_rested (event : Event) (next : Pool) :
    ¬ (echoing.work 0 leastDraws).Deliver ⟨false⟩ event next := by
  rintro ⟨-, place, draws, worker, -, there, unfinished⟩
  have workers : (echoing.work 0 leastDraws).workers = [.sending []] := rfl
  rw [workers] at there
  exact unfinished (List.mem_singleton.mp (List.mem_of_getElem? there))

theorem deliveries_complete_echoing : 1 = Pool.echoing.turns ∧
    ∀ clientId, ∃ offered : List Publish, (Pool.echoing.due clientId).Perm (offered.map Publish.unnumbered) ∧
      (Pool.echoing.work 0 Pool.leastDraws).server.broker.channels clientId =
        (offered.map ControlPacket.publish).foldl Channel.offer (Pool.echoing.server.broker.channels clientId) ∧
      ((Pool.echoing.work 0 Pool.leastDraws).server.broker.channels clientId).accepted =
        (Pool.echoing.server.broker.channels clientId).accepted ++
          (offered.map ControlPacket.publish).take (Pool.echoing.server.broker.channels clientId).room :=
  (deliveries_complete Pool.echoing_reachable Pool.echoing_deliver).2 Pool.echoing_rested

end Aqua
