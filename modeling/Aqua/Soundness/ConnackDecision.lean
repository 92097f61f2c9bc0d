import Aqua.Soundness.ConnectionPhases

/-! # The decision of the connect service

The connect service ends with a CONNACK or with a reason to refuse, and the connection is to tell the client
which. But a `ConnackResponse` has no reason, and an error ends the connection without a CONNACK: the
decision is told if and only if it is success.
-/

namespace Aqua

open Wire Runtime

/-- What the connect service decides. -/
abbrev ConnectDecision : Type := Except ConnackError Connack

namespace ConnectDecision

/-- What its future is ready with. -/
def answer : ConnectDecision → Outcome ConnackError (Option ConnackResponse)
  | .ok connack => .ok (some (.ofConnack connack))
  | .error e => .err e

/-- The client is let in. -/
def Success (decision : ConnectDecision) : Prop :=
  ∃ connack, decision = .ok connack ∧ connack.connectReason = .success

end ConnectDecision

def Action.connack? : Action → Option Connack
  | .offered (.connack connack) _ => some connack
  | _ => none

/-- The first CONNACK a connection offers its channel. -/
def announced (trace : List Action) : Option Connack := trace.findSome? Action.connack?

/-- The actions of a connection tell the decision. -/
structure ConnectDecision.Told (decision : ConnectDecision) (trace : List Action) : Prop where
  decided : ∀ connack, decision = .ok connack → announced trace = some connack
  refused : ∀ e, decision = .error e →
    ∃ connack, announced trace = some connack ∧ connack.connectReason = e.reasonCode
  success : ∀ connack, announced trace = some connack → connack.connectReason = .success →
    decision.Success

namespace ConnackResponse

/-- The way through a response keeps all but the reason. -/
theorem toConnack_ofConnack (connack : Connack) :
    (ofConnack connack).toConnack = { connack with connectReason := .success } := rfl

private theorem toConnack_ofConnack_eq_iff {connack : Connack} :
    (ofConnack connack).toConnack = connack ↔ connack.connectReason = .success := by
  rw [toConnack_ofConnack]
  constructor
  · intro same
    rw [← same]
  · intro success
    rw [← success]

end ConnackResponse

private theorem announced_append (trace more : List Action) :
    announced (trace ++ more) = (announced trace).or (announced more) := List.findSome?_append

/-- What was announced stays so. -/
theorem announced_of_prefix {trace later : List Action} {connack : Connack} (longer : trace <+: later)
    (first : announced trace = some connack) : announced later = some connack := by
  obtain ⟨more, rfl⟩ := longer
  rw [announced_append, first, Option.some_or]

namespace Session

variable {F CF ε : Type} {build : Build} {services : Services F CF}

/-- The two polls behind the connect service: the first takes its response, the second offers the CONNACK. -/
theorem announces {session : Session ε F CF} {fut : CF} (pending : session.result = .ok none)
    (waiting : session.connection.state = .processingConnect fut) {found : OutboundChannel × PollInput ε}
    {res : ConnackResponse} (ready : found.2.connect = .ok (some res))
    (next : OutboundChannel × PollInput ε) :
    ((session.poll build services found).poll build services next).trace =
      session.trace ++ [.connectResolved res] ++ [.offered (.connack res.toConnack) next.1] := by
  have accepts : session.poll build services found =
      { connection := { session.connection with state := .responseConnect res }
        trace := session.trace ++ [.connectResolved res] } := by
    simp only [poll, pending, Connection.poll, waiting, ready]
  rw [accepts]
  simp only [poll, Connection.poll]
  split <;> rfl

/-- A refusal ends the connection, and nothing is offered. -/
theorem refuses {session : Session ε F CF} {fut : CF} (pending : session.result = .ok none)
    (waiting : session.connection.state = .processingConnect fut) {found : OutboundChannel × PollInput ε}
    {e : ConnackError} (ready : found.2.connect = .err e) :
    (session.poll build services found).trace = session.trace ∧
      (session.poll build services found).result = .err (.connect e) := by
  simp only [poll, pending, Connection.poll, waiting, ready, List.append_nil, and_self]

end Session

/-- For every run up to the poll at which the connect service is ready, every decision and all later polls,
at least one: the connection tells the decision if and only if it is success. -/
theorem decision_told_iff {F CF ε : Type} (build : Build) (services : Services F CF) (clientId : Uuid)
    (polls : List (OutboundChannel × PollInput ε)) {fut : CF} (decision : ConnectDecision)
    (pending : ((Session.new clientId).run build services polls).result = .ok none)
    (waiting : ((Session.new clientId).run build services polls).connection.state = .processingConnect fut)
    {found : OutboundChannel × PollInput ε} (ready : found.2.connect = decision.answer)
    (next : OutboundChannel × PollInput ε) (later : List (OutboundChannel × PollInput ε)) :
    decision.Told (((Session.new clientId).run build services polls).run build services
      (found :: next :: later)).trace ↔ decision.Success := by
  have inPhase : InPhase services ((Session.new clientId : Session ε F CF).run build services polls) :=
    run_inPhase clientId polls
  generalize (Session.new clientId).run build services polls = session at *
  have silent : announced session.trace = none := by
    have phase := inPhase.2 pending
    rw [waiting] at phase
    obtain ⟨first, _, whole⟩ := phase
    rw [whole]
    rfl
  cases decision with
  | ok connack =>
    have first : announced (session.run build services (found :: next :: later)).trace =
        some { connack with connectReason := .success } := by
      refine announced_of_prefix (Session.run_trace _ later) ?_
      rw [Session.announces pending waiting ready, announced_append, announced_append, silent]
      rfl
    constructor
    · intro told
      exact told.success _ first rfl
    · rintro ⟨same, decided, success⟩
      cases decided
      have whole : { connack with connectReason := .success } = connack :=
        ConnackResponse.toConnack_ofConnack_eq_iff.mpr success
      rw [whole] at first
      refine ⟨?_, ?_, fun _ _ _ => ⟨connack, rfl, success⟩⟩
      · rintro _ ⟨⟩
        exact first
      · rintro _ ⟨⟩
  | error e =>
    obtain ⟨kept, ended⟩ : (session.poll build services found).trace = session.trace ∧
        (session.poll build services found).result = .err (.connect e) :=
      Session.refuses pending waiting ready
    have settled : session.run build services (found :: next :: later) = session.poll build services found :=
      Session.run_of_ended (by rw [ended]; rintro ⟨⟩) (next :: later)
    rw [settled, kept]
    constructor
    · intro told
      obtain ⟨connack, wrong, _⟩ := told.refused e rfl
      cases silent.symm.trans wrong
    · rintro ⟨_, wrong, _⟩
      cases wrong

/-- A CONNECT of version 3.1.1. -/
def knock : Bytes :=
  [0x10, 0x0d, 0x00, 0x04, 0x4d, 0x51, 0x54, 0x54, 0x04, 0x02, 0x00, 0x3c, 0x00, 0x01, 0x61]

/-- The polls that find it. -/
def knocking : List (OutboundChannel × PollInput Unit) :=
  [(.new, { read := .ready knock }), (.new, {}), (.new, {})]

/-- Services whose futures carry nothing. -/
def idleServices : Services Unit Unit := ⟨fun _ => (), fun _ => ()⟩

def welcome : ConnectDecision := .ok { connectReason := .success, version := ⟨4⟩ }

def unwelcome : ConnectDecision := .ok { connectReason := .notAuthorized, version := ⟨4⟩ }

theorem decision_told_iff_welcome :
    welcome.Told (((Session.new ⟨0⟩).run ⟨true⟩ idleServices knocking).run ⟨true⟩ idleServices
      [(.new, { connect := welcome.answer }), (.new, {})]).trace ↔ welcome.Success := by
  have waiting : ((Session.new ⟨0⟩).run ⟨true⟩ idleServices knocking).connection.state =
    .processingConnect () := rfl
  exact decision_told_iff ⟨true⟩ idleServices ⟨0⟩ knocking welcome rfl waiting rfl (.new, {}) []

/-- A client that is not authorized is told that it is. -/
theorem unwelcome_announced_as_success :
    ¬ ∀ decision : ConnectDecision,
      decision.Told (((Session.new ⟨0⟩).run ⟨true⟩ idleServices knocking).run ⟨true⟩ idleServices
        [(.new, { connect := decision.answer }), (.new, {})]).trace := by
  intro claim
  have first := (claim unwelcome).decided { connectReason := .notAuthorized, version := ⟨4⟩ } rfl
  exact absurd first (by decide)

end Aqua
