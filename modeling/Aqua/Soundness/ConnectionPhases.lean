import Aqua.Proofs.ConnectionPoll
import Aqua.Runtime.Calls

/-! # The phases of a connection

Whatever the socket, the decoder and the services do, what a connection has done is the beginning of a
script: one CONNECT, its result, the CONNACK, and then rounds of one request, its response and the
packets of the response. The state a poll leaves behind is the phase the script has reached.
-/

namespace Aqua

open Wire Runtime

variable {F CF ε : Type} {build : Build} {services : Services F CF}

/-- The packets of a response that are written: up to a DISCONNECT, without NOOPERATION. -/
def written : List ControlPacket → List ControlPacket
  | [] => []
  | .disconnect _ :: _ => []
  | .noOperation :: rest => written rest
  | packet :: rest => packet :: written rest

/-- The packets offered to the channel, each with the channel it found. -/
abbrev Offers := List (ControlPacket × OutboundChannel)

def Offers.actions (offers : Offers) : List Action := offers.map fun offer => .offered offer.1 offer.2

/-- One request, its response, and the packets of the response. -/
structure Round where
  request : ControlPacket
  response : Response
  offers : Offers
  whole : offers.map Prod.fst = written response.packets

def Round.actions (round : Round) : List Action :=
  .received round.request :: .called round.request :: .resolved round.response :: round.offers.actions

/-- A CONNECT that was accepted, and the requests behind it, one at a time. -/
structure Script where
  first : Connect
  res : ConnackResponse
  found : OutboundChannel
  rounds : List Round

/-- The actions up to the CONNACK. -/
def Script.prelude (script : Script) : List Action :=
  [.received (.connect script.first), .connectCalled (.connect script.first),
    .connectResolved script.res, .offered (.connack script.res.toConnack) script.found]

def Script.actions (script : Script) : List Action :=
  script.prelude ++ script.rounds.flatMap Round.actions

/-- The beginning of a script, or a first packet that is not a CONNECT. -/
def Scripted (trace : List Action) : Prop :=
  (∃ script : Script, trace <+: script.actions) ∨
    ∃ packet, (∀ connect, packet ≠ .connect connect) ∧ trace = [.received packet]

/-- The state of a connection is the phase its actions have reached. -/
def Reached (services : Services F CF) (trace : List Action) : ConnectionState F CF → Prop
  | .preConnection => trace = []
  | .processingConnect fut => ∃ first, fut = services.connect (.connect first) ∧
      trace = [.received (.connect first), .connectCalled (.connect first)]
  | .responseConnect res => ∃ first,
      trace = [.received (.connect first), .connectCalled (.connect first), .connectResolved res]
  | .readingPacket => ∃ script : Script, trace = script.actions
  | .processingService fut => ∃ (script : Script) (request : ControlPacket),
      fut = services.call request ∧ trace = script.actions ++ [.received request, .called request]
  | .writingPacket res => ∃ (script : Script) (request : ControlPacket),
      trace = script.actions ++ [.received request, .called request, .resolved res]

/-- What the loop over a response does: it offers the packets in turn, and all of them unless the
channel is closed. -/
theorem writePackets_offers (others : ℕ → List ChannelOp) (packets : List ControlPacket)
    (place : ℕ) (channel : OutboundChannel) :
    ∃ offers rest : Offers,
      (Connection.writePackets others place packets channel).2.2 = offers.actions ∧
      (offers ++ rest).map Prod.fst = written packets ∧
      ((Connection.writePackets others place packets channel).1 ≠ .closed → rest = []) := by
  induction place, packets, channel using Connection.writePackets.induct others with
  | case1 place channel => exact ⟨[], [], rfl, rfl, fun _ => rfl⟩
  | case2 place p rest channel => exact ⟨[], [], rfl, rfl, fun _ => rfl⟩
  | case3 place rest channel ih => exact ih
  | case4 place packet rest channel not_disconnect not_noop found next sent ends final actions writes
      ih =>
    rw [writes] at ih
    obtain ⟨offers, left, rfl, all, whole⟩ := ih
    refine ⟨(packet, found) :: offers, left, ?_⟩
    rw [Connection.writePackets.eq_4 _ _ _ _ _ not_disconnect not_noop, sent,
      written.eq_4 _ _ not_disconnect not_noop, ← all]
    simp only [writes]
    exact ⟨rfl, rfl, whole⟩
  | case5 place packet rest channel not_disconnect not_noop found message full ends final actions
      writes ih =>
    rw [writes] at ih
    obtain ⟨offers, left, rfl, all, whole⟩ := ih
    refine ⟨(packet, found) :: offers, left, ?_⟩
    rw [Connection.writePackets.eq_4 _ _ _ _ _ not_disconnect not_noop, full,
      written.eq_4 _ _ not_disconnect not_noop, ← all]
    simp only [found, writes]
    exact ⟨rfl, rfl, whole⟩
  | case6 place packet rest channel not_disconnect not_noop found message closed =>
    refine ⟨[(packet, found)], (written rest).map fun packet => (packet, found), ?_⟩
    rw [Connection.writePackets.eq_4 _ _ _ _ _ not_disconnect not_noop, closed,
      written.eq_4 _ _ not_disconnect not_noop]
    refine ⟨rfl, ?_, fun open_ => absurd rfl open_⟩
    simp only [List.cons_append, List.nil_append, List.map_cons, List.map_map, Function.comp_def,
      List.map_id']

private theorem script_concat (script : Script) (round : Round) :
    ({ script with rounds := script.rounds ++ [round] } : Script).actions =
      script.actions ++ round.actions := by
  simp only [Script.actions, Script.prelude, List.flatMap_append, List.flatMap_singleton,
    List.append_assoc]

/-- A script that goes on from a phase. -/
theorem Reached.scripted {trace : List Action} {state : ConnectionState F CF}
    (reached : Reached services trace state) : ∃ script : Script, trace <+: script.actions := by
  cases state with
  | preConnection => exact ⟨⟨{}, {}, .new, []⟩, by rw [show trace = [] from reached]; exact List.nil_prefix⟩
  | processingConnect fut =>
    obtain ⟨first, -, rfl⟩ := reached
    exact ⟨⟨first, {}, .new, []⟩, ⟨_, rfl⟩⟩
  | responseConnect res =>
    obtain ⟨first, rfl⟩ := reached
    exact ⟨⟨first, res, .new, []⟩, ⟨_, rfl⟩⟩
  | readingPacket =>
    obtain ⟨script, rfl⟩ := reached
    exact ⟨script, List.prefix_refl _⟩
  | processingService fut =>
    obtain ⟨script, request, -, rfl⟩ := reached
    let round : Round := ⟨request, {}, [], rfl⟩
    refine ⟨{ script with rounds := script.rounds ++ [round] }, ?_⟩
    rw [script_concat]
    exact List.prefix_append_right_inj _ |>.mpr ⟨_, rfl⟩
  | writingPacket res =>
    obtain ⟨script, request, rfl⟩ := reached
    let round : Round := ⟨request, res, (written res.packets).map fun packet => (packet, .new),
      by rw [List.map_map]; exact List.map_id _⟩
    refine ⟨{ script with rounds := script.rounds ++ [round] }, ?_⟩
    rw [script_concat]
    exact List.prefix_append_right_inj _ |>.mpr ⟨_, rfl⟩

/-- A poll continues the script and, if it is pending, leaves the phase it has reached. -/
theorem poll_reached {trace : List Action} (self : Connection F CF) (channel : OutboundChannel)
    (input : PollInput ε) (reached : Reached services trace self.state) :
    Scripted (trace ++ (self.poll build services channel input).actions) ∧
      ((self.poll build services channel input).result = .ok none →
        Reached services (trace ++ (self.poll build services channel input).actions)
          (self.poll build services channel input).connection.state) := by
  have stays : Scripted (trace ++ []) := by
    rw [List.append_nil]
    exact .inl reached.scripted
  have keeps : ∀ {more : List Action} {state : ConnectionState F CF},
      Reached services (trace ++ more) state →
        Scripted (trace ++ more) ∧ ((.ok none : Outcome (ConnectionError ε) (Option Unit)) = .ok none →
          Reached services (trace ++ more) state) :=
    fun reached => ⟨.inl reached.scripted, fun _ => reached⟩
  have polls := self.polls build services channel input
  generalize self.poll build services channel input = polled at *
  cases polls with
  | waits state decodes =>
    apply keeps
    rw [List.append_nil, state]
    exact reached
  | fails idle ready state decodes => exact ⟨stays, fun pending => absurd pending ready⟩
  | @connects connection first decoder state next decodes version =>
    rw [state] at reached
    apply keeps
    rw [next, show trace = [] from reached]
    exact ⟨first, rfl, rfl⟩
  | @refuses connection packet state other next decodes =>
    rw [state] at reached
    rw [show trace = [] from reached]
    exact ⟨.inr ⟨packet, other, rfl⟩, fun wrong => by cases wrong⟩
  | accepts state resolved =>
    rw [state] at reached
    obtain ⟨first, -, rfl⟩ := reached
    exact keeps ⟨first, rfl⟩
  | @announces res final state sent =>
    rw [state] at reached
    obtain ⟨first, rfl⟩ := reached
    exact keeps ⟨⟨first, res, channel, []⟩, rfl⟩
  | @closed res state gone =>
    rw [state] at reached
    obtain ⟨first, rfl⟩ := reached
    exact ⟨.inl ⟨⟨first, res, channel, []⟩, List.prefix_refl _⟩, fun wrong => by cases wrong⟩
  | @reads connection request state next decodes =>
    rw [state] at reached
    obtain ⟨script, rfl⟩ := reached
    apply keeps
    rw [next]
    exact ⟨script, request, rfl, rfl⟩
  | answers state resolved =>
    rw [state] at reached
    obtain ⟨script, request, -, rfl⟩ := reached
    apply keeps
    rw [List.append_assoc]
    exact ⟨script, request, rfl⟩
  | @writes res written final actions next result state wrote ends =>
    rw [state] at reached
    obtain ⟨script, request, so_far⟩ := reached
    obtain ⟨offers, left, offered, all, whole⟩ :=
      writePackets_offers input.others res.packets 0 channel
    rw [wrote] at offered whole
    obtain rfl : actions = offers.actions := offered
    let round : Round := ⟨request, res, offers ++ left, all⟩
    have continued : trace ++ offers.actions ++ Offers.actions left =
        ({ script with rounds := script.rounds ++ [round] } : Script).actions := by
      rw [script_concat, so_far]
      simp [round, Round.actions, Offers.actions]
    rcases ends with ⟨rfl, rfl, rfl⟩ | ⟨_, _, ended⟩
    · rw [whole (fun wrong => by cases wrong), show Offers.actions [] = [] from rfl,
        List.append_nil] at continued
      exact keeps ⟨_, continued⟩
    · exact ⟨.inl ⟨_, continued ▸ List.prefix_append _ _⟩, fun pending => absurd pending ended⟩

/-- The actions are scripted, and a connection that goes on is in the phase it has reached. -/
def InPhase (services : Services F CF) (session : Session ε F CF) : Prop :=
  Scripted session.trace ∧
    (session.result = .ok none → Reached services session.trace session.connection.state)

theorem poll_inPhase (session : Session ε F CF) (found : OutboundChannel × PollInput ε)
    (inPhase : InPhase services session) : InPhase services (session.poll build services found) := by
  unfold Session.poll
  split
  · next pending => exact poll_reached _ _ _ (inPhase.2 pending)
  · exact inPhase

theorem run_inPhase (clientId : Uuid) (polls : List (OutboundChannel × PollInput ε)) :
    InPhase services ((Session.new clientId).run build services polls) := by
  have fresh : InPhase services (Session.new clientId : Session ε F CF) :=
    ⟨.inl ⟨⟨{}, {}, .new, []⟩, List.nil_prefix⟩, fun _ => rfl⟩
  exact List.foldlRecOn polls _ fresh fun session inPhase found _ =>
    poll_inPhase session found inPhase

/-- The end of a prefix lies in the first part or in the second. -/
theorem concat_prefix_append {α : Type} {l xs ys : List α} {a : α} (shorter : l ++ [a] <+: xs ++ ys) :
    l ++ [a] <+: xs ∨ ∃ l', l = xs ++ l' ∧ l' ++ [a] <+: ys := by
  rcases Nat.lt_or_ge l.length xs.length with inside | outside
  · refine .inl (List.prefix_of_prefix_length_le shorter (List.prefix_append _ _) ?_)
    rw [List.length_append, List.length_singleton]
    exact inside
  · obtain ⟨l', rfl⟩ : xs <+: l :=
      List.prefix_of_prefix_length_le (List.prefix_append _ _)
        ((List.prefix_append _ _).trans shorter) outside
    rw [List.append_assoc, List.prefix_append_right_inj] at shorter
    exact .inr ⟨l', rfl, shorter⟩

private theorem mem_of_concat_prefix {α : Type} {l xs : List α} {a : α} (shorter : l ++ [a] <+: xs) : a ∈ xs :=
  shorter.subset (List.mem_append_right l (List.mem_singleton_self a))

def Action.isConnectCalled : Action → Bool
  | .connectCalled _ => true
  | _ => false

theorem mem_offers_actions {offers : Offers} {action : Action} (member : action ∈ offers.actions) :
    ∃ packet found, action = .offered packet found := by
  obtain ⟨offer, _, rfl⟩ := List.mem_map.mp member
  exact ⟨offer.1, offer.2, rfl⟩

/-- A request is taken in front of a round or nowhere in it. -/
theorem received_round {round : Round} {l : List Action} {packet : ControlPacket}
    (shorter : l ++ [.received packet] <+: round.actions) : l = [] := by
  cases l with
  | nil => rfl
  | cons action l =>
    rw [Round.actions, List.cons_append, List.cons_prefix_cons] at shorter
    have member := mem_of_concat_prefix shorter.2
    rw [List.mem_cons, List.mem_cons] at member
    rcases member with wrong | wrong | offered
    · cases wrong
    · cases wrong
    · obtain ⟨_, _, wrong⟩ := mem_offers_actions offered
      cases wrong

private theorem received_rounds {rounds : List Round} {l : List Action} {packet : ControlPacket}
    (shorter : l ++ [.received packet] <+: rounds.flatMap Round.actions) :
    ∃ complete : List Round, l = complete.flatMap Round.actions := by
  induction rounds generalizing l with
  | nil => simp at shorter
  | cons round rounds ih =>
    rw [List.flatMap_cons] at shorter
    rcases concat_prefix_append shorter with inside | ⟨l', rfl, rest⟩
    · exact ⟨[], received_round inside⟩
    · obtain ⟨complete, rfl⟩ := ih rest
      exact ⟨round :: complete, rfl⟩

/-- When a packet is taken from the decoder, it is the first, or everything before it is a script whose
responses were all written. -/
theorem Scripted.received {trace : List Action} (scripted : Scripted trace) {before : List Action}
    {packet : ControlPacket} (shorter : before ++ [.received packet] <+: trace) :
    before = [] ∨ ∃ script : Script, before = script.actions := by
  rcases scripted with ⟨script, beginning⟩ | ⟨other, _, rfl⟩
  · rcases concat_prefix_append (shorter.trans beginning) with inside | ⟨l', rfl, rest⟩
    · refine .inl ?_
      cases before with
      | nil => rfl
      | cons action before =>
        rw [Script.prelude, List.cons_append, List.cons_prefix_cons] at inside
        have member := mem_of_concat_prefix inside.2
        simp at member
    · obtain ⟨complete, rfl⟩ := received_rounds rest
      exact .inr ⟨{ script with rounds := complete }, rfl⟩
  · refine .inl (List.length_eq_zero_iff.mp ?_)
    have length := shorter.length_le
    simp only [List.length_append, List.length_singleton] at length
    omega

/-- The service is called only behind the result of the connect service and its CONNACK. -/
theorem Scripted.called {trace : List Action} (scripted : Scripted trace) {before : List Action}
    {packet : ControlPacket} (shorter : before ++ [.called packet] <+: trace) :
    ∃ res found, [.connectResolved res, .offered (.connack res.toConnack) found] <:+: before := by
  rcases scripted with ⟨script, beginning⟩ | ⟨other, _, rfl⟩
  · rcases concat_prefix_append (shorter.trans beginning) with inside | ⟨l', rfl, rest⟩
    · have member := mem_of_concat_prefix inside
      simp [Script.prelude] at member
    · exact ⟨script.res, script.found, [.received (.connect script.first),
        .connectCalled (.connect script.first)], l', rfl⟩
  · have member := mem_of_concat_prefix shorter
    simp at member

private theorem Scripted.connectCalled {trace : List Action} (scripted : Scripted trace) :
    trace.countP Action.isConnectCalled ≤ 1 ∧
      ∀ packet, .connectCalled packet ∈ trace → ∃ connect, packet = .connect connect := by
  rcases scripted with ⟨script, beginning⟩ | ⟨other, _, rfl⟩
  · have rounds : ∀ action ∈ script.rounds.flatMap Round.actions, ¬ action.isConnectCalled := by
      intro action member
      obtain ⟨round, _, member⟩ := List.mem_flatMap.mp member
      rw [Round.actions, List.mem_cons, List.mem_cons, List.mem_cons] at member
      rcases member with rfl | rfl | rfl | offered
      · exact Bool.false_ne_true
      · exact Bool.false_ne_true
      · exact Bool.false_ne_true
      · obtain ⟨_, _, rfl⟩ := mem_offers_actions offered
        exact Bool.false_ne_true
    constructor
    · refine beginning.sublist.countP_le.trans ?_
      rw [Script.actions, List.countP_append, List.countP_eq_zero.mpr rounds]
      rfl
    · intro packet member
      rcases List.mem_append.mp (beginning.subset member) with inside | outside
      · simp only [Script.prelude, List.mem_cons, reduceCtorEq, Action.connectCalled.injEq, false_or,
          List.not_mem_nil, or_false] at inside
        exact ⟨_, inside⟩
      · exact absurd rfl (rounds _ outside)
  · refine ⟨Nat.zero_le 1, fun packet member => ?_⟩
    simp at member

/-- For every sequence of polls and every outcome of reads, decoder and services: the connect service
is called at most once and only with a CONNECT; the service is called only behind the result of the
connect service and the CONNACK for it; a pending connection is in the phase its actions have reached;
and a packet is taken from the decoder only behind complete rounds. -/
theorem connection_phases (build : Build) (services : Services F CF) (clientId : Uuid)
    (polls : List (OutboundChannel × PollInput ε)) :
    let session := (Session.new clientId : Session ε F CF).run build services polls
    (session.trace.countP Action.isConnectCalled ≤ 1 ∧
      ∀ packet, .connectCalled packet ∈ session.trace → ∃ connect, packet = .connect connect) ∧
    (∀ before packet, before ++ [.called packet] <+: session.trace → ∃ res found,
      [.connectResolved res, .offered (.connack res.toConnack) found] <:+: before) ∧
    (session.result = .ok none → Reached services session.trace session.connection.state) ∧
    (∀ before packet, before ++ [.received packet] <+: session.trace →
      before = [] ∨ ∃ script : Script, before = script.actions) := by
  intro session
  have inPhase : InPhase services session := run_inPhase clientId polls
  exact ⟨inPhase.1.connectCalled, fun _ _ shorter => inPhase.1.called shorter, inPhase.2,
    fun _ _ shorter => inPhase.1.received shorter⟩

end Aqua
