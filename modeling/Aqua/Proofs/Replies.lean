import Aqua.Proofs.Workers
import Aqua.Soundness.ResponseQueue

/-! # What a connection offers, from its requests

A connection whose service replies to a request in a way that depends on the request alone offers the CONNACK
and the replies, in the order of the requests, and stops inside one of them at most. Of a response that
depends on more than the request, some packets may still be determined; only those that count are looked at.
-/

namespace Aqua

open Wire Runtime

/-- Which packets count, and the packets of these that a request is replied to with. -/
structure Replying where
  counts : ControlPacket → Bool
  reply : ControlPacket → List ControlPacket

namespace Replying

variable {F CF ε : Type} {build : Build} {services : Services F CF}

/-- The packets that are to be offered for an action: a CONNACK for a CONNECT, a reply for a request. -/
def expects (self : Replying) : Action → List ControlPacket
  | .connectResolved res => [ControlPacket.connack res.toConnack].filter self.counts
  | .called request => self.reply request
  | _ => []

/-- All packets that are to be offered, in the order of the requests. -/
def expected (self : Replying) (trace : List Action) : List ControlPacket := trace.flatMap self.expects

/-- The packets that were offered, of those that count. -/
def offered (self : Replying) (trace : List Action) : List ControlPacket :=
  (trace.filterMap Action.offer).filter self.counts

/-- What a connection in this state has still to offer. -/
def Due (self : Replying) (services : Services F CF) (due : List ControlPacket) : ConnectionState F CF → Prop
  | .responseConnect res => due = [ControlPacket.connack res.toConnack].filter self.counts
  | .processingService fut => ∃ request, fut = services.call request ∧ due = self.reply request
  | .writingPacket res => due = (written res.packets).filter self.counts
  | _ => due = []

/-- A future that is ready gives a response with the reply to its request. -/
def Answers (self : Replying) (services : Services F CF) (state : ConnectionState F CF) (input : PollInput ε) : Prop :=
  ∀ request res, state = .processingService (services.call request) → input.service = .ok (some res) →
    (written res.packets).filter self.counts = self.reply request

/-- What was offered is the beginning of what is expected, and while the connection goes on, the rest is due. -/
structure Settled (replying : Replying) (services : Services F CF) (session : Session ε F CF) : Prop where
  offers : replying.offered session.trace <+: replying.expected session.trace
  due : session.result = .ok none → ∃ due, replying.Due services due session.connection.state ∧
    replying.offered session.trace ++ due = replying.expected session.trace

theorem settled_new (self : Replying) (clientId : Uuid) :
    self.Settled services (.new clientId : Session ε F CF) where
  offers := List.nil_prefix
  due := fun _ => ⟨[], rfl, rfl⟩

variable {self : Replying} {session : Session ε F CF}

theorem offered_append (self : Replying) (trace actions : List Action) :
    self.offered (trace ++ actions) = self.offered trace ++ self.offered actions := by
  rw [offered, List.filterMap_append, List.filter_append]
  rfl

theorem expected_append (self : Replying) (trace actions : List Action) :
    self.expected (trace ++ actions) = self.expected trace ++ self.expected actions :=
  List.flatMap_append

theorem offered_actions (self : Replying) (offers : Offers) :
    self.offered offers.actions = (offers.map Prod.fst).filter self.counts := by
  rw [offered, filterMap_offer_actions]

theorem expected_actions (self : Replying) (offers : Offers) : self.expected offers.actions = [] := by
  rw [expected, List.flatMap_eq_nil_iff]
  intro action member
  obtain ⟨packet, found, rfl⟩ := mem_offers_actions member
  rfl

/-- A poll offers the beginning of what was due and what it calls for, and leaves the rest due. -/
theorem polls (polled : Connection.Polled ε F CF) {channel : OutboundChannel} {input : PollInput ε}
    {connection : Connection F CF}
    (polls : Connection.Polls build services connection channel input polled)
    (answers : self.Answers services connection.state input) {due : List ControlPacket}
    (isDue : self.Due services due connection.state) :
    ∃ rest, self.offered polled.actions ++ rest = due ++ self.expected polled.actions ∧
      (polled.result = .ok none → self.Due services rest polled.connection.state) := by
  cases polls with
  | waits state decodes => exact ⟨due, (List.append_nil due).symm, fun _ => state ▸ isDue⟩
  | fails idle ready state decodes =>
    exact ⟨due, (List.append_nil due).symm, fun pending => absurd pending ready⟩
  | connects state next decodes version =>
    rw [state] at isDue
    obtain rfl : due = [] := isDue
    refine ⟨[], rfl, fun _ => ?_⟩
    rw [next]
    rfl
  | refuses state other next decodes =>
    exact ⟨due, (List.append_nil due).symm, fun wrong => by cases wrong⟩
  | @accepts fut res state resolved =>
    rw [state] at isDue
    obtain rfl : due = [] := isDue
    refine ⟨[ControlPacket.connack res.toConnack].filter self.counts, ?_, fun _ => rfl⟩
    rw [expected, List.flatMap_singleton]
    rfl
  | @announces res final state sent =>
    rw [state] at isDue
    obtain rfl : due = _ := isDue
    exact ⟨[], rfl, fun _ => rfl⟩
  | @closed res state gone =>
    rw [state] at isDue
    obtain rfl : due = _ := isDue
    exact ⟨[], rfl, fun wrong => by cases wrong⟩
  | @reads connection request state next decodes =>
    rw [state] at isDue
    obtain rfl : due = [] := isDue
    refine ⟨self.reply request, ?_, fun _ => ?_⟩
    · simp only [expected, List.flatMap_cons, List.flatMap_nil, expects, List.nil_append, List.append_nil]
      rfl
    · rw [next]
      exact ⟨request, rfl, rfl⟩
  | @answers fut res state resolved =>
    rw [state] at isDue answers
    obtain ⟨request, rfl, rfl⟩ := isDue
    refine ⟨self.reply request, ?_, fun _ => (answers request res rfl resolved).symm⟩
    exact (List.append_nil _).symm
  | @writes res loop final actions next result state wrote ends =>
    rw [state] at isDue
    obtain rfl : due = (written res.packets).filter self.counts := isDue
    obtain ⟨offers, rest, offered, all, whole⟩ := writePackets_offers input.others res.packets 0 channel
    rw [wrote] at offered whole
    obtain rfl : actions = offers.actions := offered
    refine ⟨(rest.map Prod.fst).filter self.counts, ?_, fun pending => ?_⟩
    · dsimp only
      rw [offered_actions, expected_actions, List.append_nil, ← List.filter_append, ← List.map_append, all]
    · rcases ends with ⟨done, rfl, _⟩ | ⟨_, _, ended⟩
      · rw [whole (by rw [done]; intro wrong; cases wrong)]
        rfl
      · exact absurd pending ended

/-- A poll keeps what is expected and what is due in step. -/
theorem Settled.poll (settled : self.Settled services session) (found : OutboundChannel × PollInput ε)
    (answers : self.Answers services session.connection.state found.2) :
    self.Settled services (session.poll build services found) := by
  unfold Session.poll
  split
  · next pending =>
    obtain ⟨due, isDue, whole⟩ := settled.due pending
    obtain ⟨rest, more, left⟩ :=
      polls _ (session.connection.polls build services found.1 found.2) answers isDue
    have step : self.offered (session.trace ++ (session.connection.poll build services found.1 found.2).actions) ++
        rest = self.expected (session.trace ++ (session.connection.poll build services found.1 found.2).actions) := by
      rw [offered_append, expected_append, List.append_assoc, more, ← List.append_assoc, whole]
    exact ⟨⟨rest, step⟩, fun ready => ⟨rest, left ready, step⟩⟩
  · exact settled

/-- Two ways of replying that agree on what has happened. -/
theorem Settled.congr {other : Replying} (settled : self.Settled services session) (counts : other.counts = self.counts)
    (same : ∀ request, .called request ∈ session.trace → other.reply request = self.reply request)
    (serving : session.result = .ok none → ∀ request,
      session.connection.state = .processingService (services.call request) → .called request ∈ session.trace) :
    other.Settled services session := by
  have offered : ∀ trace, other.offered trace = self.offered trace := by
    intro trace
    rw [Replying.offered, Replying.offered, counts]
  have expected : other.expected session.trace = self.expected session.trace := by
    refine List.flatMap_congr fun action member => ?_
    cases action with
    | called request => exact same request member
    | connectResolved res => rw [expects, expects, counts]
    | _ => rfl
  refine ⟨?_, fun pending => ?_⟩
  · rw [offered, expected]
    exact settled.offers
  · obtain ⟨due, isDue, whole⟩ := settled.due pending
    refine ⟨due, ?_, by rw [offered, expected, whole]⟩
    cases state : session.connection.state with
    | processingService fut =>
      rw [state] at isDue
      obtain ⟨request, rfl, rfl⟩ := isDue
      exact ⟨request, rfl, (same request (serving pending request state)).symm⟩
    | responseConnect res =>
      rw [state] at isDue
      rw [Due, counts]
      exact isDue
    | writingPacket res =>
      rw [state] at isDue
      rw [Due, counts]
      exact isDue
    | _ =>
      rw [state] at isDue
      exact isDue

end Replying

/-- Of the packets that count all are accepted, if each of these finds room. -/
theorem filter_accepted_eq {counts : ControlPacket → Bool} {trace : List Action}
    (room : ∀ packet found, .offered packet found ∈ trace → counts packet = true → found.HasRoom 1) :
    (trace.filterMap Action.accepted).filter counts = (trace.filterMap Action.offer).filter counts := by
  induction trace with
  | nil => rfl
  | cons action trace ih =>
    have ih := ih fun packet found later => room packet found (List.mem_cons_of_mem _ later)
    cases action with
    | offered packet found =>
      rw [List.filterMap_cons_some (show Action.offer (.offered packet found) = some packet from rfl)]
      by_cases fits : found.HasRoom 1
      · rw [List.filterMap_cons_some (accepted_of_room fits), List.filter_cons, List.filter_cons, ih]
      · have uncounted : ¬ counts packet = true := fun counted =>
          fits (room packet found (List.mem_cons_self ..) counted)
        rw [List.filterMap_cons_none (accepted_of_not_room fits), List.filter_cons_of_neg uncounted, ih]
    | _ => exact ih

/-- What the loop over a response adds to a channel nobody else uses. -/
theorem writePackets_accepted (packets : List ControlPacket) (place : ℕ) (channel : OutboundChannel) :
    (Connection.writePackets (fun _ => []) place packets channel).2.1.accepted =
      channel.accepted ++
        (Connection.writePackets (fun _ => []) place packets channel).2.2.filterMap Action.accepted := by
  induction place, packets, channel using Connection.writePackets.induct fun _ => [] with
  | case1 place channel => exact (List.append_nil _).symm
  | case2 place p rest channel => exact (List.append_nil _).symm
  | case3 place rest channel ih => exact ih
  | case4 place packet rest channel not_disconnect not_noop found next sent ends final actions writes ih =>
    have sent : channel.trySend packet = .ok next := sent
    have took : Action.accepted (.offered packet channel) = some packet := by
      simp only [Action.accepted, sent]
    rw [writes] at ih
    dsimp only at ih
    rw [Connection.writePackets.eq_4 _ _ _ _ _ not_disconnect not_noop, List.foldl_nil, sent]
    dsimp only
    rw [writes]
    dsimp only
    rw [List.filterMap_cons_some took, ih, Channel.accepted_trySend sent, List.append_assoc,
      List.singleton_append]
  | case5 place packet rest channel not_disconnect not_noop found message full ends final actions writes ih =>
    have full : channel.trySend packet = .error (.full message) := full
    have dropped : Action.accepted (.offered packet channel) = none := by
      simp only [Action.accepted, full]
    have writes : Connection.writePackets (fun _ => []) (place + 1) rest channel = (ends, final, actions) := writes
    have ih : (Connection.writePackets (fun _ => []) (place + 1) rest channel).2.1.accepted = channel.accepted ++
      (Connection.writePackets (fun _ => []) (place + 1) rest channel).2.2.filterMap Action.accepted := ih
    rw [writes] at ih
    dsimp only at ih
    rw [Connection.writePackets.eq_4 _ _ _ _ _ not_disconnect not_noop, List.foldl_nil, full]
    dsimp only
    rw [writes]
    dsimp only
    rw [List.filterMap_cons_none dropped]
    exact ih
  | case6 place packet rest channel not_disconnect not_noop found message closed =>
    have closed : channel.trySend packet = .error (.closed message) := closed
    have refused : Action.accepted (.offered packet channel) = none := by
      simp only [Action.accepted, closed]
    rw [Connection.writePackets.eq_4 _ _ _ _ _ not_disconnect not_noop, List.foldl_nil, closed]
    dsimp only
    rw [List.filterMap_cons_none refused, List.filterMap_nil, List.append_nil]

/-- What a poll adds to a channel nobody else uses are the offers that succeeded. -/
theorem Connection.poll_accepted {F CF ε : Type} {build : Build} {services : Services F CF}
    (self : Connection F CF) (channel : OutboundChannel) {input : PollInput ε} (alone : ∀ k, input.others k = []) :
    (self.poll build services channel input).channel.accepted =
      channel.accepted ++ (self.poll build services channel input).actions.filterMap Action.accepted := by
  obtain alone : input.others = fun _ => [] := funext alone
  unfold poll
  dsimp only
  split
  · split <;> exact (List.append_nil _).symm
  · split <;> exact (List.append_nil _).symm
  · next res phase =>
    split
    · next next sent =>
      have took : Action.accepted (.offered (.connack res.toConnack) channel) = some (.connack res.toConnack) := by
        simp only [Action.accepted, sent]
      rw [List.filterMap_cons_some took, Channel.accepted_trySend sent]
      rfl
    · next full =>
      have dropped : Action.accepted (.offered (.connack res.toConnack) channel) = none := by
        simp only [Action.accepted, full]
      rw [List.filterMap_cons_none dropped]
      exact (List.append_nil _).symm
    · next closed =>
      have refused : Action.accepted (.offered (.connack res.toConnack) channel) = none := by
        simp only [Action.accepted, closed]
      rw [List.filterMap_cons_none refused]
      exact (List.append_nil _).symm
  · split <;> exact (List.append_nil _).symm
  · split <;> exact (List.append_nil _).symm
  · next res phase =>
    have wrote := writePackets_accepted res.packets 0 channel
    rw [alone]
    split
    · next writes => rw [writes] at wrote; exact wrote
    · next writes => rw [writes] at wrote; exact wrote
    · next writes => rw [writes] at wrote; exact wrote

end Aqua
