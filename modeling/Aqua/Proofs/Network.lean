import Aqua.Proofs.Writers

/-! # Runs of the network

To one connection, a run of the network is a run of its channel and its writer, fed by the connections and
the tasks. To everybody else a writer takes a packet from a channel or is gone, as in the pool.
-/

namespace Aqua

open Wire Runtime

/-- Unless it stands for a writer, a step offers packets to a channel, or the connection is new. -/
theorem Pool.Step.channel {build : Build} {self next : Pool} {event : Pool.Event}
    (step : self.Step build event next) (sound : self.Sound build) (other : Network.isWriter event = false)
    (clientId : Uuid) :
    (event ≠ .server (.accept clientId) ∧ next.server.broker.channels clientId =
        (self.incoming event clientId).foldl Channel.offer (self.server.broker.channels clientId)) ∨
      event = .server (.accept clientId) ∧ next.server.broker.channels clientId = .new := by
  cases step with
  | server noTask step =>
    cases step with
    | @accept accepted fresh =>
      by_cases own : clientId = accepted
      · subst own
        refine .inr ⟨rfl, ?_⟩
        change (self.server.broker.accept clientId).channels clientId = _
        rw [Broker.accept, Broker.channels_onChannel, if_pos rfl]
      · refine .inl ⟨fun same => own (by cases same; rfl), ?_⟩
        change (self.server.broker.accept accepted).channels clientId = _
        rw [Broker.accept, Broker.channels_onChannel, if_neg own]
        rfl
    | @poll polled live goesOn read ready =>
      refine .inl ⟨(by rintro ⟨⟩), ?_⟩
      change (self.server.poll build polled read ready).broker.channels clientId = _
      by_cases own : clientId = polled
      · subst own
        rw [Server.poll_channels, Pool.incoming, if_pos rfl]
      · rw [Server.poll_channels_of_ne _ own, Pool.incoming, if_neg own]
        rfl
    | @background event broker background step =>
      refine .inl ⟨(by rintro ⟨⟩), ?_⟩
      change broker.channels clientId = self.server.broker.channels clientId
      cases step with
      | task spawned draws => cases noTask
      | take taken => cases other
      | close closed => cases other
      | rehash sameTopics sameRetain => rfl
      | _ => cases background
  | work place draws =>
    refine .inl ⟨(by rintro ⟨⟩), ?_⟩
    change (self.crew.work place draws).broker.channels clientId = _
    rw [Crew.work_channels sound.server.connected]
    rfl

namespace Line

variable {start line : Line} {events : List Event}

/-- Packets offered one after the other are steps. -/
theorem runs_offers (run : Runs Step start events line) (packets : List ControlPacket) :
    ∃ events', Runs Step start events' { line with channel := packets.foldl Channel.offer line.channel } := by
  induction packets generalizing line events with
  | nil => exact ⟨events, run⟩
  | cons packet packets ih => exact ih (run.snoc (.offer packet))

end Line

namespace Network

variable {build : Build} {self next : Network} {event : Event}

theorem withLine_line (self : Network) (clientId other : Uuid) (line : Line) :
    (self.withLine clientId line).line other = if other = clientId then line else self.line other := by
  have channel : (self.withLine clientId line).pool.server.broker.channels other = _ :=
    self.pool.server.broker.channels_onChannel clientId other fun _ => line.channel
  rw [Network.line, channel, withLine]
  dsimp only
  split
  · next same => rw [same, Function.update_self]
  · next ne => rw [Function.update_of_ne ne, Network.line]

end Network

/-- One channel of the pool is replaced. -/
def Pool.withChannel (self : Pool) (clientId : Uuid) (channel : OutboundChannel) : Pool :=
  self.enter { self.server with broker := self.server.broker.onChannel clientId fun _ => channel }

namespace Pool

variable {build : Build} {self : Pool} {clientId : Uuid}

theorem withChannel_withChannel (self : Pool) (clientId : Uuid) (first second : OutboundChannel) :
    (self.withChannel clientId first).withChannel clientId second = self.withChannel clientId second := by
  simp only [withChannel, enter, withCrew, crew, Crew.hire, Broker.onChannel, Function.update_idem,
    List.map_nil, List.append_nil]

theorem Reachable.take (reachable : self.Reachable build) (clientId : Uuid) :
    (self.withChannel clientId (self.server.broker.channels clientId).take).Reachable build :=
  reachable.step (@Step.server _ _ (.background (.take clientId)) _ rfl (.background trivial (.take clientId)))

theorem Reachable.close (reachable : self.Reachable build) (clientId : Uuid) :
    (self.withChannel clientId (self.server.broker.channels clientId).close).Reachable build :=
  reachable.step (@Step.server _ _ (.background (.close clientId)) _ rfl (.background trivial (.close clientId)))

theorem withChannel_channels (self : Pool) (clientId : Uuid) (channel : OutboundChannel) :
    (self.withChannel clientId channel).server.broker.channels clientId = channel := by
  change (self.server.broker.onChannel clientId fun _ => channel).channels clientId = channel
  rw [Broker.channels_onChannel, if_pos rfl]

/-- Every spawned task has become a worker. -/
theorem Reachable.tasks (reachable : self.Reachable build) : self.server.broker.tasks = [] := by
  obtain ⟨events, run⟩ := reachable
  induction run with
  | nil => rfl
  | @snoc events event pool next earlier step ih =>
    cases step with
    | server noTask step => rfl
    | work place draws =>
      obtain ⟨retain, channels, same⟩ := pool.crew.work_eq place draws
      change (pool.crew.work place draws).broker.tasks = []
      rw [same]
      exact ih

/-- The channel is replaced by itself. -/
theorem Reachable.withChannel_self (reachable : self.Reachable build) (clientId : Uuid) :
    self.withChannel clientId (self.server.broker.channels clientId) = self := by
  have none := reachable.tasks
  obtain ⟨⟨⟨session, retain, topics, channels, tasks⟩, clients⟩, workers⟩ := self
  cases none
  simp only [withChannel, enter, withCrew, crew, Crew.hire, Broker.onChannel, Function.update_eq_self,
    List.map_nil, List.append_nil]

/-- What a writer does to its channel are steps of the pool. -/
theorem Reachable.withWriter (reachable : self.Reachable build) (line : Line)
    (moves : line.channel = self.server.broker.channels clientId ∨
      line.channel = (self.server.broker.channels clientId).take) (writer : Writer) :
    (self.withChannel clientId (line.withWriter writer).channel).Reachable build := by
  have moved : (self.withChannel clientId line.channel).Reachable build := by
    rcases moves with same | takes
    · rw [same, reachable.withChannel_self]
      exact reachable
    · rw [takes]
      exact reachable.take clientId
  unfold Line.withWriter
  dsimp only
  split
  · exact moved
  · have closed := moved.close clientId
    rw [withChannel_channels, withChannel_withChannel] at closed
    exact closed

end Pool

namespace Network

variable {build : Build} {self next : Network} {event : Event}

/-- A step of the network leads from a reachable pool to a reachable pool. -/
theorem Step.pool_reachable (step : self.Step build event next) (reachable : self.pool.Reachable build) :
    next.pool.Reachable build := by
  cases step with
  | pool other step => exact reachable.step step
  | @receive clientId live waits queued =>
    change (self.pool.withChannel clientId (self.line clientId).receive.channel).Reachable build
    cases first : (self.line clientId).channel.queue with
    | nil => exact absurd first queued
    | cons packet rest =>
      rw [Line.receive_eq first]
      exact reachable.withWriter _ (.inr rfl) _
  | write live writes result => exact reachable.withWriter (self.line _) (.inl rfl) _
  | shutdown live waits empty senderless => exact reachable.withWriter (self.line _) (.inl rfl) _

theorem Reachable.pool (reachable : self.Reachable build) : self.pool.Reachable build := by
  obtain ⟨events, run⟩ := reachable
  induction run with
  | nil => exact .new build
  | snoc earlier step ih => exact Step.pool_reachable step ih

theorem Reachable.step (reachable : self.Reachable build) (step : self.Step build event next) :
    next.Reachable build := by
  obtain ⟨events, run⟩ := reachable
  exact ⟨_, run.snoc step⟩

/-- A step of the network is a run of each line, or starts it anew. -/
theorem Step.line (step : self.Step build event next) (sound : self.pool.Sound build) (clientId : Uuid) {start : Line}
    {events : List Line.Event} (run : Runs Line.Step start events (self.line clientId)) :
    (∃ events', Runs Line.Step start events' (next.line clientId)) ∨ next.line clientId = .new := by
  have moves : ∀ {moved : Uuid} {line : Line} {event : Line.Event}, (self.line moved).Step event line →
      ∃ events', Runs Line.Step start events' ((self.withLine moved line).line clientId) := by
    intro moved line event step
    rw [withLine_line]
    split
    · next own =>
      subst own
      exact ⟨_, run.snoc step⟩
    · exact ⟨events, run⟩
  cases step with
  | @pool event pool other step =>
    rcases step.channel sound other clientId with ⟨old, offered⟩ | ⟨rfl, fresh⟩
    · have kept : self.spawnWriter event clientId = self.writers clientId := by
        unfold spawnWriter
        split
        · next accepted =>
          exact Function.update_of_ne (fun own : clientId = accepted => old (by rw [own])) _ _
        · rfl
      have same : line ⟨pool, self.spawnWriter event⟩ clientId = { self.line clientId with
          channel := (self.pool.incoming event clientId).foldl Channel.offer (self.line clientId).channel } := by
        rw [Network.line, offered, Network.line]
        exact congrArg (Line.mk _) kept
      rw [same]
      exact .inl (Line.runs_offers run _)
    · refine .inr ?_
      rw [Network.line, fresh, spawnWriter]
      exact congrArg (Line.mk .new) (Function.update_self ..)
  | receive live waits queued => exact .inl (moves (.receive waits queued))
  | write live writes result => exact .inl (moves (.write writes result))
  | shutdown live waits empty senderless => exact .inl (moves (.shutdown waits empty))

/-- To a connection, a run of the network is a run of its channel and its writer. -/
theorem Reachable.line (reachable : self.Reachable build) (clientId : Uuid) :
    ∃ events, Runs Line.Step .new events (self.line clientId) := by
  obtain ⟨events, run⟩ := reachable
  induction run with
  | nil => exact ⟨[], .nil⟩
  | @snoc events event before next earlier step ih =>
    obtain ⟨lineEvents, run⟩ := ih
    have sound := (Reachable.pool ⟨_, earlier⟩).sound
    rcases Step.line step sound clientId run with continued | fresh
    · exact continued
    · rw [fresh]
      exact ⟨[], .nil⟩

end Network

namespace Network

variable {build : Build} {pool : Pool} {writers : Uuid → Writer} {clientId : Uuid}

theorem Reachable.poll (reachable : Reachable build ⟨pool, writers⟩)
    (live : (pool.server.clients clientId).live = true)
    (goesOn : (pool.server.clients clientId).session.result = .ok none) (read : SocketRead) (ready : Bool) :
    Reachable build ⟨pool.enter (pool.server.poll build clientId read ready), writers⟩ :=
  reachable.step (@Step.pool _ ⟨pool, writers⟩ (.server (.poll clientId read ready)) _ rfl
    (.server rfl (.poll live goesOn read ready)))

theorem Reachable.resume (reachable : Reachable build ⟨pool, writers⟩) (count : ℕ)
    (goesOn : ∀ k < count, (((Pool.resume build clientId)^[k] pool).server.clients clientId).live = true ∧
      (((Pool.resume build clientId)^[k] pool).server.clients clientId).session.result = .ok none) :
    Reachable build ⟨(Pool.resume build clientId)^[count] pool, writers⟩ := by
  induction count with
  | zero => exact reachable
  | succ count ih =>
    obtain ⟨live, pending⟩ := goesOn count (Nat.lt_succ_self _)
    rw [Function.iterate_succ_apply']
    exact (ih fun k lt => goesOn k (Nat.lt_succ_of_lt lt)).poll live pending _ _

theorem Reachable.work (reachable : Reachable build ⟨pool, writers⟩) (place : ℕ) (draws : Broker.Draws) :
    Reachable build ⟨pool.work place draws, writers⟩ :=
  reachable.step (@Step.pool _ ⟨pool, writers⟩ (.work place draws) _ rfl (.work place draws))

/-- The pool with a message about to be sent back, before its writer has begun. -/
def silent : Network := ⟨Pool.echoing, Function.update (fun _ => .new) ⟨0⟩ .new⟩

theorem silent_reachable : silent.Reachable ⟨false⟩ := by
  have start : Network.new.Reachable ⟨false⟩ := ⟨[], .nil⟩
  have accepted := start.step (.pool rfl (.server rfl (@Server.Step.accept _ _ ⟨0⟩ rfl)))
  have polled := @Reachable.poll _ _ _ ⟨0⟩ accepted rfl rfl (.ready Pool.echoBytes) true
  have published : Reachable ⟨false⟩ ⟨Pool.published, Function.update (fun _ => .new) ⟨0⟩ .new⟩ := by
    refine polled.resume 13 fun k lt => ?_
    interval_cases k <;> exact ⟨rfl, rfl⟩
  exact (published.work 0 Pool.leastDraws).work 0 Pool.leastDraws

/-- Its writer has written the CONNACK, and three of the five bytes of the SUBACK. -/
def talking : Network :=
  let announced := silent.withLine ⟨0⟩ (silent.line ⟨0⟩).receive
  let written := announced.withLine ⟨0⟩ ((announced.line ⟨0⟩).write (.wrote 4))
  let granted := written.withLine ⟨0⟩ (written.line ⟨0⟩).receive
  granted.withLine ⟨0⟩ ((granted.line ⟨0⟩).write (.wrote 3))

theorem talking_reachable : talking.Reachable ⟨false⟩ := by
  have announced := silent_reachable.step (@Step.receive _ _ ⟨0⟩ rfl ⟨rfl, rfl⟩ (List.cons_ne_nil _ _))
  have written := announced.step (@Step.write _ _ ⟨0⟩ rfl ⟨rfl, List.cons_ne_nil _ _⟩ (.wrote 4))
  have granted := written.step (@Step.receive _ _ ⟨0⟩ rfl ⟨rfl, rfl⟩ (List.cons_ne_nil _ _))
  exact granted.step (@Step.write _ _ ⟨0⟩ rfl ⟨rfl, List.cons_ne_nil _ _⟩ (.wrote 3))

theorem talking_accepted : (talking.line ⟨0⟩).channel.accepted =
    [.connack { version := ⟨4⟩ }, .suback {
      packetId := ⟨1⟩, reasonCodes := [.grantedQos1], protocolVersion := ⟨4⟩ }] := rfl

end Network

end Aqua
