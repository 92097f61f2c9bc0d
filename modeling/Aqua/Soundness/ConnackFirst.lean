import Aqua.Proofs.Workers
import Aqua.Soundness.ResponseQueue
import Mathlib.Tactic.IntervalCases

/-! # CONNACK comes first

The connect service registers the MQTT id, and only a later poll offers the CONNACK. The first packet in a
channel is the CONNACK of its connection as long as no worker sends to the connection in between.
-/

namespace Aqua

open Wire Runtime

/-- The CONNACK is due. -/
def Session.Announcing {F CF ε : Type} (self : Session ε F CF) : Prop :=
  self.result = .ok none ∧ ∃ res, self.connection.state = .responseConnect res

/-- The first packet accepted is the CONNACK for what the connect service returned. -/
def ConnackHeads {F CF ε : Type} (session : Session ε F CF) (channel : OutboundChannel) : Prop :=
  ∀ packet, channel.accepted.head? = some packet →
    ∃ res, .connectResolved res ∈ session.trace ∧ packet = .connack res.toConnack

namespace Pool

/-- It is in every channel. -/
def ConnackFirst (self : Pool) : Prop :=
  ∀ clientId, ConnackHeads (self.server.clients clientId).session (self.server.broker.channels clientId)

/-- A worker sends to a connection that has a writer, and whose CONNACK is due. -/
def Overtakes (self : Pool) : Event → Prop
  | .work place _ => ∃ clientId msg, self.crew.bound? place clientId = some msg ∧
      (self.server.clients clientId).session.Announcing ∧
      (self.server.broker.channels clientId).closed = false
  | .server _ => False

end Pool

section Phases

variable {F CF ε : Type} {build : Build} {services : Services F CF}

/-- A connection serves behind its CONNACK, and not before. -/
private theorem polls_serving {self : Connection F CF} {channel : OutboundChannel} {input : PollInput ε}
    {polled : Connection.Polled ε F CF} (polls : Connection.Polls build services self channel input polled)
    (pending : polled.result = .ok none) (other : ∀ res, self.state ≠ .responseConnect res) :
    Serving polled.connection.state ↔ Serving self.state := by
  cases polls with
  | waits state decodes => rw [state]
  | fails idle ready state decodes => exact absurd pending ready
  | connects state next decodes version => rw [next, state]; exact Iff.rfl
  | refuses state unlike next decodes => cases pending
  | accepts state resolved => rw [state]; exact Iff.rfl
  | announces state sent => exact absurd state (other _)
  | closed state gone => cases pending
  | reads state next decodes => rw [next, state]; exact Iff.rfl
  | answers state resolved => rw [state]; exact Iff.rfl
  | writes state wrote ends =>
    rw [state]
    rcases ends with ⟨_, rfl, _⟩ | ⟨_, _, ended⟩
    · exact Iff.rfl
    · exact absurd pending ended

/-- The poll that offers the CONNACK: the connection serves behind it, or ends where nobody takes it. -/
private theorem poll_responseConnect (build : Build) (services : Services F CF) {self : Connection F CF}
    {res : ConnackResponse} (state : self.state = .responseConnect res) (channel : OutboundChannel)
    (input : PollInput ε) :
    (channel.closed = false → Serving (self.poll build services channel input).connection.state) ∧
      (channel.closed = true → (self.poll build services channel input).result ≠ .ok none) := by
  unfold Connection.poll
  rw [state]
  dsimp only
  split
  · next sent =>
    refine ⟨fun _ => trivial, fun gone => ?_⟩
    cases gone.symm.trans (Channel.trySend_eq_ok_iff.mp sent).1
  · next full =>
    refine ⟨fun _ => trivial, fun gone => ?_⟩
    rw [Channel.trySend, if_pos gone] at full
    cases full
  · next closed =>
    refine ⟨fun open_ => ?_, fun _ => by rintro ⟨⟩⟩
    cases open_.symm.trans (Channel.closed_of_trySend closed)

end Phases

/-- The phase of a connection and its channel: empty until the CONNACK, and then not any more. -/
structure Orderly (session : Session MqttError ControlPacket ControlPacket) (channel : OutboundChannel)
    (registered : Prop) : Prop where
  inPhase : InPhase Server.services session
  first : ConnackHeads session channel
  early : session.result = .ok none → ¬ Serving session.connection.state → channel.accepted = []
  serving : session.result = .ok none → Serving session.connection.state → channel.accepted ≠ []
  registered : registered → session.Announcing ∨ channel.accepted ≠ [] ∨ channel.closed = true

namespace Orderly

variable {session : Session MqttError ControlPacket ControlPacket} {channel next : OutboundChannel}
  {registered registered' : Prop}

private theorem new (clientId : Uuid) (unknown : ¬ registered) : Orderly (.new clientId) .new registered where
  inPhase := by
    have start : InPhase Server.services ((Session.new clientId :
        Session MqttError ControlPacket ControlPacket).run ⟨true⟩ Server.services []) :=
      run_inPhase clientId []
    exact start
  first := fun packet head => by cases head
  early := fun _ _ => rfl
  serving := fun _ serves => serves.elim
  registered := fun known => absurd known unknown

/-- Nothing comes in, and the channel may be closed. -/
private theorem quiet (orderly : Orderly session channel registered) (same : next.accepted = channel.accepted)
    (closed : channel.closed = true → next.closed = true) (less : registered' → registered) :
    Orderly session next registered' where
  inPhase := orderly.inPhase
  first := by
    intro packet head
    rw [same] at head
    exact orderly.first packet head
  early := by rw [same]; exact orderly.early
  serving := by rw [same]; exact orderly.serving
  registered := by
    intro known
    rw [same]
    exact (orderly.registered (less known)).imp_right (Or.imp_right closed)

/-- Behind the first packet more may come in. -/
private theorem grows (orderly : Orderly session channel registered) (filled : channel.accepted ≠ [])
    {more : List ControlPacket} (added : next.accepted = channel.accepted ++ more) :
    ConnackHeads session next ∧ next.accepted ≠ [] := by
  obtain ⟨packet, rest, whole⟩ := List.exists_cons_of_ne_nil filled
  refine ⟨fun other head => ?_, ?_⟩
  · apply orderly.first other
    rwa [added, whole, List.cons_append, List.head?_cons, ← List.head?_cons (l := rest), ← whole] at head
  · rw [added]
    exact List.append_ne_nil_of_left_ne_nil filled more

/-- A worker sends to a registered connection whose CONNACK is not due, or whose writer is gone. -/
private theorem send (orderly : Orderly session channel registered) (known : registered)
    (due : ¬ (session.Announcing ∧ channel.closed = false)) (msg : Publish) :
    Orderly session (channel.offer (.publish msg)) registered := by
  by_cases filled : channel.accepted = []
  · have gone : channel.closed = true := by
      obtain announcing | other | gone := orderly.registered known
      · by_contra open_
        exact due ⟨announcing, Bool.eq_false_iff.mpr open_⟩
      · exact absurd filled other
      · exact gone
    rw [Channel.offer_of_room_eq_zero (Channel.room_of_closed gone)]
    exact orderly
  · have added := Channel.accepted_foldl_offer [ControlPacket.publish msg] channel
    obtain ⟨first, filled'⟩ := orderly.grows filled added
    exact {
      inPhase := orderly.inPhase
      first
      early := fun pending phase => absurd (orderly.early pending phase) filled
      serving := fun _ _ => filled'
      registered := fun _ => .inr (.inl filled') }

section Polls

variable {build : Build} {input : PollInput MqttError}

/-- What a poll adds to the channel. -/
private theorem poll_accepted (build : Build) (session : Session MqttError ControlPacket ControlPacket)
    (channel : OutboundChannel) (alone : ∀ k, input.others k = []) :
    (session.connection.poll build Server.services channel input).channel.accepted =
      channel.accepted ++ session.connection.offers.take channel.room := by
  rw [Connection.poll_channel _ _ alone, Channel.accepted_foldl_offer]

private theorem poll_eq (pending : session.result = .ok none) :
    session.poll build Server.services (channel, input) = {
    connection := (session.connection.poll build Server.services channel input).connection
    trace := session.trace ++ (session.connection.poll build Server.services channel input).actions
    result := (session.connection.poll build Server.services channel input).result } := by
  rw [Session.poll, pending]

private theorem polled_inPhase (build : Build) (orderly : Orderly session channel registered)
    (input : PollInput MqttError) :
    InPhase Server.services (session.poll build Server.services (channel, input)) :=
  poll_inPhase session (channel, input) orderly.inPhase

/-- A connection behind its CONNACK. -/
private theorem poll_serving (orderly : Orderly session channel registered) (pending : session.result = .ok none)
    (alone : ∀ k, input.others k = []) (serves : Serving session.connection.state) :
    Orderly (session.poll build Server.services (channel, input))
      (session.connection.poll build Server.services channel input).channel registered' := by
  have inPhase := orderly.polled_inPhase build input
  have polls := session.connection.polls build Server.services channel input
  obtain ⟨first, filled⟩ := orderly.grows (orderly.serving pending serves)
    (poll_accepted build session channel alone)
  rw [poll_eq pending] at inPhase ⊢
  refine {
    inPhase
    first := fun packet head => ?_
    early := fun ends early => absurd ((polls_serving polls ends ?_).mpr serves) early
    serving := fun _ _ => filled
    registered := fun _ => .inr (.inl filled) }
  · obtain ⟨res, member, same⟩ := first packet head
    exact ⟨res, List.mem_append_left _ member, same⟩
  · intro res wrong
    rw [wrong] at serves
    exact serves

/-- A connection whose CONNACK is due. -/
private theorem poll_announcing (orderly : Orderly session channel registered) (pending : session.result = .ok none)
    (alone : ∀ k, input.others k = []) {res : ConnackResponse}
    (state : session.connection.state = .responseConnect res) :
    Orderly (session.poll build Server.services (channel, input))
      (session.connection.poll build Server.services channel input).channel registered' := by
  have inPhase := orderly.polled_inPhase build input
  obtain ⟨serves, ends⟩ := poll_responseConnect build Server.services state channel input
  have fresh : channel.accepted = [] := orderly.early pending (by rw [state]; exact id)
  have added := poll_accepted build session channel alone
  have offers : session.connection.offers = [.connack res.toConnack] := by rw [Connection.offers, state]
  rw [fresh, List.nil_append, offers] at added
  rw [poll_eq pending] at inPhase ⊢
  cases gone : channel.closed with
  | true =>
    have closed : (session.connection.poll build Server.services channel input).channel.closed = true := by
      rw [Connection.poll_channel _ _ alone,
        Channel.foldl_offer_of_room_eq_zero (Channel.room_of_closed gone), gone]
    rw [Channel.room_of_closed gone, List.take_zero] at added
    exact {
      inPhase
      first := fun packet head => by rw [added] at head; cases head
      early := fun _ _ => added
      serving := fun pending => absurd pending (ends gone)
      registered := fun _ => .inr (.inr closed) }
  | false =>
    rw [Channel.room_of_accepted_eq_nil fresh gone] at added
    have filled : (session.connection.poll build Server.services channel input).channel.accepted ≠ [] := by
      rw [added]
      exact List.cons_ne_nil _ _
    refine {
      inPhase
      first := fun packet head => ?_
      early := fun _ early => absurd (serves gone) early
      serving := fun _ _ => filled
      registered := fun _ => .inr (.inl filled) }
    rw [added] at head
    cases head
    have reached := orderly.inPhase.2 pending
    rw [state] at reached
    obtain ⟨first, whole⟩ := reached
    refine ⟨res, List.mem_append_left _ ?_, rfl⟩
    rw [whole]
    simp

/-- A connection whose connect service has not returned. It may be registered by the poll that takes the
result. -/
private theorem poll_early (orderly : Orderly session channel registered) (pending : session.result = .ok none)
    (alone : ∀ k, input.others k = []) (early : ¬ Serving session.connection.state)
    (due : ∀ res, session.connection.state ≠ .responseConnect res)
    (less : registered' → registered ∨ ∃ req res, session.connection.state = .processingConnect req ∧
      input.connect = .ok (some res)) :
    Orderly (session.poll build Server.services (channel, input))
      (session.connection.poll build Server.services channel input).channel registered' := by
  have inPhase := orderly.polled_inPhase build input
  have polls := session.connection.polls build Server.services channel input
  have fresh := orderly.early pending early
  have offers : session.connection.offers = [] := by
    unfold Connection.offers
    split
    · next res state => exact absurd state (due res)
    · next res state => exact absurd (by rw [state]; exact trivial) early
    · rfl
  have same : (session.connection.poll build Server.services channel input).channel = channel := by
    rw [Connection.poll_channel _ _ alone, offers, List.foldl_nil]
  rw [poll_eq pending] at inPhase ⊢
  rw [same]
  refine {
    inPhase
    first := fun packet head => by rw [fresh] at head; cases head
    early := fun _ _ => fresh
    serving := fun ends later => absurd ((polls_serving polls ends due).mp later) early
    registered := fun known => ?_ }
  obtain before | ⟨req, res, state, connects⟩ := less known
  · obtain ⟨_, res, state⟩ | filled | gone := orderly.registered before
    · exact absurd state (due res)
    · exact absurd fresh filled
    · exact .inr (.inr gone)
  · refine .inl ⟨?_, res, ?_⟩
    · simp only [Connection.poll, state, connects]
    · simp only [Connection.poll, state, connects]

private theorem poll (build : Build) (orderly : Orderly session channel registered)
    (pending : session.result = .ok none) (alone : ∀ k, input.others k = [])
    (less : registered' → registered ∨ ∃ req res, session.connection.state = .processingConnect req ∧
      input.connect = .ok (some res)) :
    Orderly (session.poll build Server.services (channel, input))
      (session.connection.poll build Server.services channel input).channel registered' := by
  by_cases serves : Serving session.connection.state
  · exact orderly.poll_serving pending alone serves
  by_cases due : ∃ res, session.connection.state = .responseConnect res
  · obtain ⟨res, state⟩ := due
    exact orderly.poll_announcing pending alone state
  · exact orderly.poll_early pending alone serves (fun res state => due ⟨res, state⟩) less

end Polls

end Orderly

namespace Pool

variable {build : Build} {self next : Pool} {event : Event}

def Registered (self : Pool) (clientId : Uuid) : Prop :=
  ∃ mqttId, self.server.broker.session.byMqttId.get mqttId = some clientId

/-- Every connection is orderly. -/
structure Ordered (build : Build) (pool : Pool) : Prop where
  sound : pool.Sound build
  clients : ∀ clientId, Orderly (pool.server.clients clientId).session
    (pool.server.broker.channels clientId) (pool.Registered clientId)

private theorem Ordered.new (build : Build) : Pool.new.Ordered build where
  sound := .new build
  clients := fun clientId => .new clientId (by rintro ⟨mqttId, wrong⟩; cases wrong)

private theorem Ordered.connackFirst (ordered : self.Ordered build) : self.ConnackFirst :=
  fun clientId => (ordered.clients clientId).first

/-- A step that registers no connection of its own. -/
private theorem Step.registered_of_other (step : self.Step build event next) (clientId : Uuid)
    (other : ∀ read ready, event ≠ .server (.poll clientId read ready)) (known : next.Registered clientId) :
    self.Registered clientId := by
  obtain ⟨mqttId, known⟩ := known
  obtain before | ⟨_, read, ready, _, _, same, _⟩ := step.registered known
  · exact ⟨mqttId, before⟩
  · exact absurd same (other read ready)

/-- The connection that is polled. -/
theorem Ordered.poll (ordered : self.Ordered build) {clientId : Uuid} {read : SocketRead} {ready : Bool}
    (goesOn : (self.server.clients clientId).session.result = .ok none)
    (step : self.Step build (.server (.poll clientId read ready))
      (self.enter (self.server.poll build clientId read ready))) :
    Orderly ((self.server.poll build clientId read ready).clients clientId).session
      ((self.server.poll build clientId read ready).broker.channels clientId)
      ((self.enter (self.server.poll build clientId read ready)).Registered clientId) := by
  have alone := self.server.resolve_others (self.server.clients clientId) clientId read ready
  have channels := self.server.resolve_channels (self.server.clients clientId) clientId read ready
  have less : (self.enter (self.server.poll build clientId read ready)).Registered clientId →
      self.Registered clientId ∨ ∃ req res,
        (self.server.clients clientId).session.connection.state = .processingConnect req ∧
        (self.server.resolve (self.server.clients clientId) clientId read ready).1.connect =
          .ok (some res) := by
    rintro ⟨mqttId, known⟩
    obtain before | ⟨_, _, _, req, res, same, state, connects⟩ := step.registered known
    · exact .inl ⟨mqttId, before⟩
    · cases same
      exact .inr ⟨req, res, state, connects⟩
  revert less
  generalize (self.enter (self.server.poll build clientId read ready)).Registered clientId = registered
  intro less
  cases given : self.server.resolve (self.server.clients clientId) clientId read ready with | mk input behind =>
  rw [given] at alone channels less
  have polled := (ordered.clients clientId).poll build goesOn alone less
  rw [Server.poll_eq given, Broker.channels_onChannel, if_pos rfl, channels]
  simp only [Function.update_self]
  exact polled

section Events

variable {clientId : Uuid} {registered : Prop}

/-- A connection is accepted under a new id. -/
theorem Ordered.accept (ordered : self.Ordered build) {accepted : Uuid}
    (fresh : (self.server.clients accepted).live = false) (less : registered → self.Registered clientId) :
    Orderly ((self.server.accept accepted).clients clientId).session
      ((self.server.accept accepted).broker.channels clientId) registered := by
  change Orderly (Function.update self.server.clients accepted
    { live := true, session := .new accepted } clientId).session
      ((self.server.broker.onChannel accepted fun _ => .new).channels clientId) _
  rw [Broker.channels_onChannel]
  by_cases same : clientId = accepted
  · rw [same, Function.update_self, if_pos rfl]
    refine .new accepted fun known => ?_
    obtain ⟨mqttId, known⟩ := less known
    cases fresh.symm.trans (same ▸ ordered.sound.registered mqttId clientId known)
  · rw [Function.update_of_ne same, if_neg same]
    exact (ordered.clients clientId).quiet rfl id less

/-- What happens in the background adds nothing to a channel, except for a task. -/
theorem Ordered.background (ordered : self.Ordered build) {event : Broker.Event} {broker : Broker}
    (background : Server.Background event) (noTask : isTask (.background event) = false)
    (step : self.server.broker.Step event broker) (less : registered → self.Registered clientId) :
    Orderly (self.server.clients clientId).session (broker.channels clientId) registered := by
  have own := ordered.clients clientId
  rcases background_channels background noTask step clientId with same | same | same
  · exact own.quiet (by rw [same]) (by rw [same]; exact id) less
  · exact own.quiet (by rw [same, Channel.accepted_take]) (by rw [same]; exact id) less
  · exact own.quiet (by rw [same]; rfl) (by rw [same]; exact fun _ => rfl) less

/-- A worker goes on, and overtakes no CONNACK. -/
theorem Ordered.work (ordered : self.Ordered build) {place : ℕ} {draws : Broker.Draws}
    (timely : ¬ self.Overtakes (.work place draws)) (less : registered → self.Registered clientId) :
    Orderly (self.server.clients clientId).session
      ((self.crew.work place draws).broker.channels clientId) registered := by
  have own := ordered.clients clientId
  rw [Crew.work_channels ordered.sound.server.connected]
  cases bound : self.crew.bound? place clientId with
  | none => exact own.quiet rfl id less
  | some msg =>
    obtain ⟨subId, _, known⟩ := Crew.bound?_eq_some_iff.mp bound
    have sent := own.send ⟨subId, known⟩ (fun due => timely ⟨clientId, msg, bound, due⟩) msg
    exact sent.quiet rfl id less

end Events

private theorem Ordered.step (ordered : self.Ordered build) (step : self.Step build event next)
    (timely : ¬ self.Overtakes event) : next.Ordered build where
  sound := ordered.sound.step step
  clients := by
    intro clientId
    have less := step.registered_of_other clientId
    cases step with
    | server noTask step =>
      cases step with
      | accept fresh => exact ordered.accept fresh (less (by rintro _ _ ⟨⟩))
      | @poll polled live goesOn read ready =>
        by_cases same : clientId = polled
        · rw [same]
          exact ordered.poll goesOn (.server noTask (.poll live goesOn read ready))
        · replace less := less fun read ready wrong => same (by cases wrong; rfl)
          have others : (self.server.poll build polled read ready).clients clientId =
            self.server.clients clientId := Function.update_of_ne same _ _
          change Orderly ((self.server.poll build polled read ready).clients clientId).session
            ((self.server.poll build polled read ready).broker.channels clientId) _
          rw [others, Server.poll_channels_of_ne _ same]
          exact (ordered.clients clientId).quiet rfl id less
      | @background event broker background step =>
        replace less := less (by rintro _ _ ⟨⟩)
        change Orderly (self.server.clients clientId).session (broker.channels clientId) _
        exact ordered.background background noTask step less
    | work place draws => exact ordered.work timely (less (by rintro _ _ ⟨⟩))

/-- A message that overtakes the CONNACK is first. -/
theorem Ordered.not_first (ordered : self.Ordered build) (step : self.Step build event next)
    (overtakes : self.Overtakes event) : ¬ next.ConnackFirst := by
  intro claim
  cases event with
  | server event => exact overtakes
  | work place draws =>
    obtain ⟨clientId, msg, bound, ⟨pending, res, state⟩, open_⟩ := overtakes
    have fresh := (ordered.clients clientId).early pending (by rw [state]; exact id)
    have added := step.accepted ordered.sound clientId
    have comes : self.incoming (.work place draws) clientId = [.publish msg] := by
      rw [incoming, bound]
      rfl
    rw [fresh, comes, Channel.room_of_accepted_eq_nil fresh open_] at added
    obtain ⟨_, _, wrong⟩ := claim clientId (.publish msg) (by rw [added]; rfl)
    cases wrong

end Pool

/-- For every run of the broker: in every state the first packet in every channel is the CONNACK of its
connection, if and only if in no state of the run a worker sends to a connection whose connect service has
returned and whose CONNACK has not been offered. A poll is one step, with the connect service inside: a send
while it goes on counts as one behind it. -/
theorem connack_first_iff (build : Build) {events : List Pool.Event} {pool : Pool} :
    Runs (Ending (Pool.Step build) Pool.ConnackFirst) .new events pool ↔
      Runs (Guarded (Pool.Step build) fun s event => ¬ s.Overtakes event) .new events pool :=
  runs_ending_iff_guarded
    (fun _ _ _ ordered step =>
      ⟨fun first overtakes => ordered.not_first step overtakes first,
        fun timely => (ordered.step step timely).connackFirst⟩)
    (fun _ _ _ ordered step timely => ordered.step step timely) (Pool.Ordered.new build)

/-- While the message waits for its send, its client connects anew; the connect service has returned. -/
def returning : Pool :=
  let accepted := Pool.echoing.enter (Pool.echoing.server.accept ⟨1⟩)
  (Pool.resume ⟨false⟩ ⟨1⟩)^[3]
    (accepted.enter (accepted.server.poll ⟨false⟩ ⟨1⟩ (.ready (Pool.echoBytes.take 15)) true))

private theorem returning_reachable : returning.Reachable ⟨false⟩ := by
  have accepted : (Pool.echoing.enter (Pool.echoing.server.accept ⟨1⟩)).Reachable ⟨false⟩ :=
    Pool.echoing_reachable.accept rfl
  refine (accepted.poll rfl rfl (.ready (Pool.echoBytes.take 15)) true).resume 3 fun k lt => ?_
  interval_cases k <;> exact ⟨rfl, rfl⟩

/-- The message goes to the new connection, which has not been told that it is one. -/
theorem returning_overtaken :
    ¬ ∀ events pool, Runs (Pool.Step ⟨false⟩) .new events pool → pool.ConnackFirst := by
  intro claim
  obtain ⟨events, run⟩ := returning_reachable.step (.work 0 Pool.leastDraws)
  obtain ⟨res, _, wrong⟩ := claim events _ run ⟨1⟩ _ rfl
  cases wrong

end Aqua
