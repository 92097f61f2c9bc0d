import Aqua.Proofs.ConnectionPoll
import Aqua.Soundness.ConnectionPhases

/-! # Responses and the outbound channel

A connection offers every packet of every response to its channel, once and in order. A packet that
finds the channel full is dropped, so the packets accepted are the packets of the responses exactly
if each of them finds room.
-/

namespace Aqua

open Wire Runtime

variable {F CF ε : Type} {build : Build} {services : Services F CF}

def Action.offer : Action → Option ControlPacket
  | .offered packet _ => some packet
  | _ => none

/-- The packet of an offer that succeeded. -/
def Action.accepted : Action → Option ControlPacket
  | .offered packet found =>
      match found.trySend packet with
      | .ok _ => some packet
      | .error _ => none
  | _ => none

def Action.foundClosed : Action → Bool
  | .offered _ found => found.closed
  | _ => false

def Action.response : Action → Option Response
  | .resolved res => some res
  | _ => none

namespace Session

/-- The packets offered, in their order. -/
def offered (self : Session ε F CF) : List ControlPacket := self.trace.filterMap Action.offer

/-- The packets accepted, in their order. -/
def accepted (self : Session ε F CF) : List ControlPacket := self.trace.filterMap Action.accepted

/-- The packets of all responses of the service. -/
def responses (self : Session ε F CF) : List ControlPacket :=
  (self.trace.filterMap Action.response).flatMap fun res => written res.packets

/-- The packets of a response that the next poll writes. -/
def unwritten (self : Session ε F CF) : List ControlPacket :=
  match self.connection.state with
  | .writingPacket res => written res.packets
  | _ => []

/-- The writer was there whenever a packet was offered. -/
def WriterAlive (self : Session ε F CF) : Prop := ∀ action ∈ self.trace, action.foundClosed = false

instance (self : Session ε F CF) : Decidable self.WriterAlive :=
  inferInstanceAs (Decidable (∀ action ∈ _, _))

/-- A connection whose CONNECT was accepted, behind its CONNACK. -/
def established (clientId : Uuid) (decoder : Decoder) (version : Option ProtocolVersion) :
    Session ε F CF where
  connection := { clientId, state := .readingPacket, decoder, protocolVersion := version }

end Session

theorem accepted_of_room {packet : ControlPacket} {found : OutboundChannel}
    (room : found.HasRoom 1) : Action.accepted (.offered packet found) = some packet := by
  obtain ⟨next, sent⟩ := (@Channel.trySend_isOk_iff _ _ _ packet).mpr room
  simp only [Action.accepted, sent]

theorem accepted_of_not_room {packet : ControlPacket} {found : OutboundChannel}
    (full : ¬ found.HasRoom 1) : Action.accepted (.offered packet found) = none := by
  simp only [Action.accepted]
  cases sent : found.trySend packet with
  | ok next => exact absurd (Channel.trySend_isOk_iff.mp ⟨next, sent⟩) full
  | error e => rfl

/-- What is accepted is what is offered, with the packets left out that find no room. -/
theorem accepted_sublist (trace : List Action) :
    (trace.filterMap Action.accepted).Sublist (trace.filterMap Action.offer) := by
  induction trace with
  | nil => exact List.Sublist.refl _
  | cons action trace ih =>
    cases action with
    | offered packet found =>
      by_cases room : found.HasRoom 1
      · rw [List.filterMap_cons_some (accepted_of_room room), List.filterMap_cons_some (by rfl)]
        exact ih.cons_cons packet
      · rw [List.filterMap_cons_none (accepted_of_not_room room), List.filterMap_cons_some (by rfl)]
        exact ih.cons packet
    | _ => exact ih

/-- Everything offered is accepted exactly if every offer finds room. -/
theorem accepted_eq_offered_iff (trace : List Action) :
    trace.filterMap Action.accepted = trace.filterMap Action.offer ↔
      ∀ packet found, .offered packet found ∈ trace → found.HasRoom 1 := by
  induction trace with
  | nil => exact iff_of_true rfl fun _ _ none => by cases none
  | cons action trace ih =>
    cases action with
    | offered packet found =>
      by_cases room : found.HasRoom 1
      · rw [List.filterMap_cons_some (accepted_of_room room), List.filterMap_cons_some (by rfl),
          List.cons_inj_right, ih]
        constructor
        · intro rest other otherFound member
          rcases List.mem_cons.mp member with same | later
          · cases same
            exact room
          · exact rest other otherFound later
        · exact fun all other otherFound later => all other otherFound (List.mem_cons_of_mem _ later)
      · rw [List.filterMap_cons_none (accepted_of_not_room room), List.filterMap_cons_some (by rfl)]
        refine iff_of_false (fun same => ?_) fun all => room (all packet found (List.mem_cons_self ..))
        have shorter := (accepted_sublist trace).length_le
        rw [same, List.length_cons] at shorter
        omega
    | _ =>
      change trace.filterMap Action.accepted = trace.filterMap Action.offer ↔ _
      rw [ih]
      simp

theorem filterMap_offer_actions (offers : Offers) :
    offers.actions.filterMap Action.offer = offers.map Prod.fst := by
  induction offers with
  | nil => rfl
  | cons offer offers ih => exact congrArg (offer.1 :: ·) ih

private theorem filterMap_response_actions (offers : Offers) :
    offers.actions.filterMap Action.response = [] := by
  induction offers with
  | nil => rfl
  | cons offer offers ih => exact ih

/-- The loop stops early only at a channel whose receiver is gone. -/
theorem writePackets_closed (others : ℕ → List ChannelOp) (packets : List ControlPacket)
    (place : ℕ) (channel : OutboundChannel)
    (closes : (Connection.writePackets others place packets channel).1 = .closed) :
    ∃ packet found, .offered packet found ∈
      (Connection.writePackets others place packets channel).2.2 ∧ found.closed = true := by
  induction place, packets, channel using Connection.writePackets.induct others with
  | case1 place channel => cases closes
  | case2 place p rest channel => cases closes
  | case3 place rest channel ih => exact ih closes
  | case4 place packet rest channel not_disconnect not_noop found next sent ends final actions writes
      ih =>
    rw [Connection.writePackets.eq_4 _ _ _ _ _ not_disconnect not_noop, sent] at closes ⊢
    rw [writes] at ih
    simp only [writes] at closes ⊢
    obtain ⟨other, otherFound, member, gone⟩ := ih closes
    exact ⟨other, otherFound, List.mem_cons_of_mem _ member, gone⟩
  | case5 place packet rest channel not_disconnect not_noop found message full ends final actions
      writes ih =>
    rw [Connection.writePackets.eq_4 _ _ _ _ _ not_disconnect not_noop, full] at closes ⊢
    rw [writes] at ih
    simp only [found, writes] at closes ⊢
    obtain ⟨other, otherFound, member, gone⟩ := ih closes
    exact ⟨other, otherFound, List.mem_cons_of_mem _ member, gone⟩
  | case6 place packet rest channel not_disconnect not_noop found message closed =>
    rw [Connection.writePackets.eq_4 _ _ _ _ _ not_disconnect not_noop, closed]
    exact ⟨packet, found, List.mem_singleton_self _, Channel.closed_of_trySend closed⟩

/-- The three states behind the CONNACK. -/
def Serving : ConnectionState F CF → Prop
  | .readingPacket => True
  | .processingService _ => True
  | .writingPacket _ => True
  | _ => False

/-- What is offered, and what is still to be written, are the packets of the responses. -/
structure Flows (session : Session ε F CF) : Prop where
  serving : session.result = .ok none → Serving session.connection.state
  flow : session.WriterAlive → session.offered ++ session.unwritten = session.responses

private theorem WriterAlive.earlier {session next : Session ε F CF} {actions : List Action}
    (alive : next.WriterAlive) (trace : next.trace = session.trace ++ actions) :
    session.WriterAlive := by
  intro action member
  apply alive action
  rw [trace]
  exact List.mem_append_left _ member

/-- A poll that offers nothing and gets no response. -/
theorem Flows.quiet {session next : Session ε F CF} {actions : List Action} (flows : Flows session)
    (trace : next.trace = session.trace ++ actions)
    (silent : actions.filterMap Action.offer = [] ∧ actions.filterMap Action.response = [])
    (before : session.unwritten = []) (after : next.unwritten = [])
    (serving : next.result = .ok none → Serving next.connection.state) : Flows next := by
  refine ⟨serving, fun alive => ?_⟩
  have flow := flows.flow (WriterAlive.earlier alive trace)
  rw [before, List.append_nil] at flow
  rw [Session.offered, Session.responses, trace, after, List.filterMap_append, List.filterMap_append,
    silent.1, silent.2, List.append_nil, List.append_nil, List.append_nil]
  exact flow

private theorem poll_flows (session : Session ε F CF) (found : OutboundChannel × PollInput ε)
    (flows : Flows session) : Flows (session.poll build services found) := by
  unfold Session.poll
  split
  · next pending =>
    have serving := flows.serving pending
    have polls := session.connection.polls build services found.1 found.2
    generalize session.connection.poll build services found.1 found.2 = polled at *
    cases polls with
    | waits state decodes =>
      refine ⟨fun _ => state ▸ serving, fun alive => ?_⟩
      have flow := flows.flow (WriterAlive.earlier alive rfl)
      simp only [Session.offered, Session.responses, Session.unwritten, state, List.append_nil] at flow ⊢
      exact flow
    | fails idle ready state decodes =>
      refine flows.quiet rfl ⟨rfl, rfl⟩ ?_ ?_ fun pending => absurd pending ready
      · cases phase : session.connection.state with
        | writingPacket res => exact absurd phase (idle res)
        | _ => rw [Session.unwritten, phase]
      · rw [Session.unwritten, state]
    | connects state => rw [state] at serving; exact absurd serving id
    | refuses state => rw [state] at serving; exact absurd serving id
    | accepts state => rw [state] at serving; exact absurd serving id
    | announces state => rw [state] at serving; exact absurd serving id
    | closed state => rw [state] at serving; exact absurd serving id
    | reads state next decodes =>
      refine flows.quiet rfl ⟨rfl, rfl⟩ ?_ ?_ fun _ => ?_
      · rw [Session.unwritten, state]
      · rw [Session.unwritten, next]
      · rw [next]
        exact trivial
    | answers state resolved =>
      refine ⟨fun _ => trivial, fun alive => ?_⟩
      have flow := flows.flow (WriterAlive.earlier alive rfl)
      rw [Session.unwritten, state, List.append_nil] at flow
      simp only [Session.offered, Session.responses, Session.unwritten] at flow ⊢
      simp [Action.offer, Action.response, flow]
    | @writes res loop final actions next result state wrote ends =>
      obtain ⟨offers, rest, offered, all, whole⟩ :=
        writePackets_offers found.2.others res.packets 0 found.1
      have closes := writePackets_closed found.2.others res.packets 0 found.1
      rw [wrote] at offered whole closes
      obtain rfl : actions = offers.actions := offered
      refine ⟨fun pending => ?_, fun alive => ?_⟩
      · rcases ends with ⟨_, rfl, _⟩ | ⟨_, _, ended⟩
        · exact trivial
        · exact absurd pending ended
      · have left : rest = [] := by
          apply whole
          intro stopped
          obtain ⟨packet, gone, member, closed⟩ := closes stopped
          have open_ := alive (.offered packet gone) (List.mem_append_right _ member)
          rw [Action.foundClosed, closed] at open_
          cases open_
        have flow := flows.flow (WriterAlive.earlier alive rfl)
        have before : session.unwritten = offers.map Prod.fst := by
          rw [Session.unwritten, state, ← List.append_nil offers, ← left]
          exact all.symm
        rw [before] at flow
        have after : (⟨{ session.connection with state := next }, session.trace ++ offers.actions,
            result⟩ : Session ε F CF).unwritten = [] := by
          rcases ends with ⟨_, rfl, _⟩ | ⟨_, rfl, _⟩ <;> rfl
        rw [after, List.append_nil, Session.offered, Session.responses, List.filterMap_append,
          List.filterMap_append, filterMap_offer_actions, filterMap_response_actions, List.append_nil]
        exact flow
  · exact flows

private theorem run_flows (clientId : Uuid) (decoder : Decoder) (version : Option ProtocolVersion)
    (polls : List (OutboundChannel × PollInput ε)) :
    Flows ((Session.established clientId decoder version).run build services polls) := by
  have start : Flows (Session.established clientId decoder version : Session ε F CF) :=
    ⟨fun _ => trivial, fun _ => rfl⟩
  exact List.foldlRecOn polls _ start fun session flows found _ => poll_flows session found flows

/-- For every run of an established connection during which the writer is there, every packet of the
responses (without NOOPERATION, up to a DISCONNECT) is offered to the channel, once and in order, and
the packets accepted are all of them if and only if each finds room. -/
theorem responses_accepted_iff (build : Build) (services : Services F CF) (clientId : Uuid)
    (decoder : Decoder) (version : Option ProtocolVersion)
    (polls : List (OutboundChannel × PollInput ε))
    (alive : ((Session.established clientId decoder version).run build services polls).WriterAlive) :
    let session := (Session.established clientId decoder version).run build services polls
    session.offered ++ session.unwritten = session.responses ∧
      session.accepted.Sublist session.offered ∧
      (session.accepted ++ session.unwritten = session.responses ↔
        ∀ packet found, .offered packet found ∈ session.trace → found.HasRoom 1) := by
  intro session
  have flow : session.offered ++ session.unwritten = session.responses :=
    (run_flows clientId decoder version polls).flow alive
  refine ⟨flow, accepted_sublist session.trace, ?_⟩
  rw [← flow, List.append_cancel_right_eq]
  exact accepted_eq_offered_iff session.trace

/-- A client sends one PUBACK, and the service answers with a PINGRESP, which finds the channel
`found`. -/
def answered (found : OutboundChannel) : Session MqttError Unit Unit :=
  (Session.established ⟨1⟩ .new (some ⟨4⟩)).run ⟨true⟩ ⟨fun _ => (), fun _ => ()⟩
    [(.new, { read := .ready [0x40, 0x02, 0x00, 0x01] }), (.new, {}),
      (.new, { service := .ok (some (.new (.pingresp {}))) }), (found, {})]

/-- A channel with no room. -/
def fullChannel : OutboundChannel where
  queue := List.replicate 32 (.pingresp {})
  bounded := by decide

theorem responses_accepted_iff_answered :
    (answered .new).offered ++ (answered .new).unwritten = (answered .new).responses ∧
      (answered .new).accepted.Sublist (answered .new).offered ∧
      ((answered .new).accepted ++ (answered .new).unwritten = (answered .new).responses ↔
        ∀ packet found, .offered packet found ∈ (answered .new).trace → found.HasRoom 1) :=
  responses_accepted_iff ⟨true⟩ _ ⟨1⟩ .new _ _ (by decide)

/-- A response that finds the channel full is lost. -/
theorem full_channel_loses :
    ¬ ∀ polls : List (OutboundChannel × PollInput MqttError),
      let session := (Session.established ⟨1⟩ .new (some ⟨4⟩)).run ⟨true⟩
        (⟨fun _ => (), fun _ => ()⟩ : Services Unit Unit) polls
      session.WriterAlive → session.accepted ++ session.unwritten = session.responses := by
  intro claim
  have kept : (answered fullChannel).accepted ++ (answered fullChannel).unwritten =
      (answered fullChannel).responses := claim _ (by decide)
  exact absurd kept (by decide)

end Aqua
