import Aqua.Model.MainService
import Aqua.Proofs.Endings
import Aqua.Proofs.Replies
import Aqua.Proofs.Sendable

/-! # A connection of the main binary

The two services of the main binary look at nothing but the packet they are called with. So whatever the socket
and the channel do, a connection offers what its packets call for: the CONNACK of the first, and the responses
to the others, in their order. All of it can be encoded, and no service ends a connection.
-/

namespace Aqua

open Wire Runtime

def Action.receipt : Action → Option ControlPacket
  | .received packet => some packet
  | _ => none

namespace MainService

/-- The packets that are taken from the decoder, in their order. -/
def receipts (trace : List Action) : List ControlPacket := trace.filterMap Action.receipt

/-- What the packets of a client call for. -/
def answersTo : List ControlPacket → List ControlPacket
  | [] => []
  | first :: requests =>
      .connack (onConnect first).toConnack :: requests.flatMap fun request => written (handle request).packets

/-- Every request is replied to with its response, and every packet counts. -/
def answering : Replying := ⟨fun _ => true, fun request => written (handle request).packets⟩

private theorem answersTo_snoc {received : List ControlPacket} (nonempty : received ≠ []) (request : ControlPacket) :
    answersTo (received ++ [request]) = answersTo received ++ answering.reply request := by
  cases received with
  | nil => exact absurd rfl nonempty
  | cons first requests =>
    rw [List.cons_append, answersTo, answersTo, List.flatMap_append, List.flatMap_singleton, List.cons_append]
    rfl

private theorem handle_sendable (request : ControlPacket) :
    ∀ packet ∈ written (handle request).packets, packet.Sendable := by
  have nothing : ∀ packet ∈ written ({} : Response).packets, packet.Sendable := List.forall_mem_nil _
  cases request with
  | pingreq p => exact written_new fun _ _ => Pingresp.sendable _
  | subscribe p => exact written_new fun _ _ => Suback.sendable rfl
  | unsubscribe p => exact written_new fun _ _ => Unsuback.sendable rfl
  | publish p =>
    unfold handle
    dsimp only
    split
    · exact written_new fun _ _ => Puback.sendable rfl
    · exact written_new fun _ _ => Pubrec.sendable rfl
    · exact nothing
  | pubrel p => exact written_new fun _ _ => Pubcomp.sendable rfl
  | _ => exact nothing

/-- Whatever the packets are, what they call for can be encoded. -/
private theorem answersTo_sendable (received : List ControlPacket) :
    ∀ packet ∈ answersTo received, packet.Sendable := by
  cases received with
  | nil => exact List.forall_mem_nil _
  | cons first requests =>
    rw [answersTo, List.forall_mem_cons]
    refine ⟨Connack.sendable ?_, fun packet member => ?_⟩
    · cases first <;> rfl
    · obtain ⟨request, _, among⟩ := List.mem_flatMap.mp member
      exact handle_sendable request packet among

/-- No response has a DISCONNECT. -/
private theorem handle_stays (request : ControlPacket) (p : Disconnect) :
    .disconnect p ∉ (handle request).packets := by
  cases request with
  | publish q =>
    unfold handle
    dsimp only
    split <;> simp [Response.new]
  | _ => simp [handle, Response.new]

variable {build : Build}

/-- There was a first packet, and what was called for is what the packets call for. -/
def Complete (trace : List Action) : Prop :=
  receipts trace ≠ [] ∧ answering.expected trace = answersTo (receipts trace)

/-- What was called for, from the state: nothing before the result of the connect service, and then what the
packets call for; a result is that of a packet. -/
def Agrees (trace : List Action) : ConnectionState Response ConnackResponse → Prop
  | .preConnection => receipts trace = [] ∧ answering.expected trace = []
  | .processingConnect res => ∃ first, res = onConnect first ∧ receipts trace = [first] ∧ answering.expected trace = []
  | .writingPacket res => Complete trace ∧ ∃ request, res = handle request
  | .processingService res => Complete trace ∧ ∃ request, res = handle request
  | _ => Complete trace

/-- An error of the socket or of the decoder, a closed channel, or a panic of the decoder. -/
def Ending : Outcome (ConnectionError Empty) (Option Unit) → Prop
  | .ok none => True
  | .err (.text _) => True
  | .err .io => True
  | .err (.mqtt _) => True
  | .panic => True
  | _ => False

/-- What a run keeps: the offers follow the packets, and no service has ended the connection. -/
structure Answering (session : Session Empty Response ConnackResponse) : Prop where
  settled : answering.Settled services session
  calls : answering.expected session.trace <+: answersTo (receipts session.trace)
  agrees : session.result = .ok none → Agrees session.trace session.connection.state
  ending : Ending session.result

private theorem receipts_append (trace actions : List Action) :
    receipts (trace ++ actions) = receipts trace ++ receipts actions := List.filterMap_append

private theorem receipts_offers (offers : Offers) : receipts offers.actions = [] := by
  rw [receipts, List.filterMap_eq_nil_iff]
  intro action member
  obtain ⟨packet, found, rfl⟩ := mem_offers_actions member
  rfl

private theorem Agrees.calls {trace : List Action} {state : ConnectionState Response ConnackResponse}
    (agrees : Agrees trace state) : answering.expected trace <+: answersTo (receipts trace) := by
  have whole : Complete trace → answering.expected trace <+: answersTo (receipts trace) :=
    fun complete => complete.2 ▸ List.prefix_refl _
  cases state with
  | preConnection =>
    rw [agrees.2]
    exact List.nil_prefix
  | processingConnect res =>
    obtain ⟨first, _, _, none⟩ := agrees
    rw [none]
    exact List.nil_prefix
  | processingService res => exact whole agrees.1
  | writingPacket res => exact whole agrees.1
  | responseConnect res => exact whole agrees
  | readingPacket => exact whole agrees

/-- Actions without a call and without a packet change nothing. -/
theorem Complete.mono {trace actions : List Action} (complete : Complete trace) (silent : receipts actions = [])
    (none : answering.expected actions = []) : Complete (trace ++ actions) := by
  rw [Complete, receipts_append, Replying.expected_append, silent, none, List.append_nil, List.append_nil]
  exact complete

/-- A poll leaves what its state stands for. -/
theorem Agrees.poll {trace : List Action} {connection : Connection Response ConnackResponse}
    {channel : OutboundChannel} {read : SocketRead} {others : ℕ → List ChannelOp}
    {polled : Connection.Polled Empty Response ConnackResponse} (agrees : Agrees trace connection.state)
    (polls : Connection.Polls build services connection channel (input connection.state read others) polled) :
    (∃ state, Agrees (trace ++ polled.actions) state) ∧
      (polled.result = .ok none → Agrees (trace ++ polled.actions) polled.connection.state) := by
  cases polls with
  | waits state decodes =>
    rw [List.append_nil, state]
    exact ⟨⟨_, agrees⟩, fun _ => agrees⟩
  | fails idle ready state decodes =>
    rw [List.append_nil]
    exact ⟨⟨_, agrees⟩, fun pending => absurd pending ready⟩
  | @connects _ first _ state next decodes version =>
    rw [state] at agrees
    have called : Agrees (trace ++ [.received (.connect first), .connectCalled (.connect first)])
        (.processingConnect (onConnect (.connect first))) := by
      refine ⟨_, rfl, ?_, ?_⟩
      · rw [receipts_append, agrees.1]
        rfl
      · rw [Replying.expected_append, agrees.2]
        rfl
    exact ⟨⟨_, called⟩, fun _ => next ▸ called⟩
  | @refuses _ packet state other next decodes =>
    rw [state] at agrees
    refine ⟨⟨.processingConnect (onConnect packet), _, rfl, ?_, ?_⟩, fun wrong => by cases wrong⟩
    · rw [receipts_append, agrees.1]
      rfl
    · rw [Replying.expected_append, agrees.2]
      rfl
  | @accepts fut res state resolved =>
    rw [state] at agrees resolved
    cases resolved
    obtain ⟨first, rfl, only, none⟩ := agrees
    have accepted : Complete (trace ++ [.connectResolved (onConnect first)]) := by
      rw [Complete, receipts_append, only, Replying.expected_append, none]
      exact ⟨List.cons_ne_nil _ _, rfl⟩
    exact ⟨⟨.readingPacket, accepted⟩, fun _ => accepted⟩
  | @announces res final state sent =>
    rw [state] at agrees
    have after : Complete (trace ++ [.offered (.connack res.toConnack) channel]) := agrees.mono rfl rfl
    exact ⟨⟨.readingPacket, after⟩, fun _ => after⟩
  | @closed res state gone =>
    rw [state] at agrees
    have after : Complete (trace ++ [.offered (.connack res.toConnack) channel]) := agrees.mono rfl rfl
    exact ⟨⟨.readingPacket, after⟩, fun wrong => by cases wrong⟩
  | @reads _ request state next decodes =>
    rw [state] at agrees
    have called : Complete (trace ++ [.received request, .called request]) := by
      rw [Complete, receipts_append, Replying.expected_append, agrees.2]
      refine ⟨List.append_ne_nil_of_right_ne_nil _ (List.cons_ne_nil _ _), ?_⟩
      have asked := answersTo_snoc agrees.1 request
      rw [show receipts [.received request, .called request] = [request] from rfl, asked]
      simp only [Replying.expected, List.flatMap_cons, List.flatMap_nil, Replying.expects, List.nil_append,
        List.append_nil]
    exact ⟨⟨.readingPacket, called⟩, fun _ => next ▸ ⟨called, request, rfl⟩⟩
  | answers state resolved =>
    rw [state] at agrees resolved
    cases resolved
    obtain ⟨complete, request, rfl⟩ := agrees
    have answered : Complete (trace ++ [.resolved (handle request)]) := complete.mono rfl rfl
    exact ⟨⟨.readingPacket, answered⟩, fun _ => ⟨answered, request, rfl⟩⟩
  | @writes res loop final actions next result state wrote ends =>
    rw [state] at agrees
    obtain ⟨offers, _, offered, _⟩ := writePackets_offers others res.packets 0 channel
    rw [show Connection.writePackets others 0 res.packets channel = _ from wrote] at offered
    obtain rfl : actions = offers.actions := offered
    have wrote := agrees.1.mono (receipts_offers offers) (answering.expected_actions offers)
    refine ⟨⟨.readingPacket, wrote⟩, fun pending => ?_⟩
    rcases ends with ⟨_, rfl, _⟩ | ⟨_, _, ended⟩
    · exact wrote
    · exact absurd pending ended

/-- No service ends a poll. -/
theorem Agrees.ending {trace : List Action} {connection : Connection Response ConnackResponse}
    {channel : OutboundChannel} {read : SocketRead} {others : ℕ → List ChannelOp}
    (agrees : Agrees trace connection.state)
    {result : Outcome (ConnectionError Empty) (Option Unit)} {left : Decoder} {actions : List Action}
    (ends : connection.Ends build channel (input connection.state read others) result left actions) :
    Ending result := by
  cases ends with
  | reading reads ends => cases ends <;> exact trivial
  | unexpected state other => exact trivial
  | refused state refuses => cases refuses
  | connectAborted state aborts => rcases aborts with wrong | wrong <;> cases wrong
  | failed state fails => cases fails
  | serviceAborted state aborts => rcases aborts with wrong | wrong <;> cases wrong
  | closed offers gone => exact trivial
  | @disconnects res p left actions state member =>
    rw [state] at agrees
    obtain ⟨_, request, rfl⟩ := agrees
    exact absurd member (handle_stays request p)

private theorem Answering.new (clientId : Uuid) : Answering (.new clientId) where
  settled := Replying.settled_new _ _
  calls := List.nil_prefix
  agrees := fun _ => ⟨rfl, rfl⟩
  ending := trivial

private theorem Answering.poll {session : Session Empty Response ConnackResponse} (keeps : Answering session)
    (found : Surroundings) : Answering (MainService.poll build session found) := by
  have answers : answering.Answers services session.connection.state
      (input session.connection.state found.read found.others) := by
    intro request res state answered
    rw [state] at answered
    cases answered
    exact List.filter_true _
  have settled : answering.Settled services (MainService.poll build session found) :=
    keeps.settled.poll (found.channel, _) answers
  by_cases going : session.result = .ok none
  · have agrees := keeps.agrees going
    obtain ⟨⟨state, calls⟩, next⟩ := agrees.poll
      (session.connection.polls build services found.channel
        (input session.connection.state found.read found.others))
    refine ⟨settled, ?_, ?_, ?_⟩ <;> simp only [MainService.poll, Session.poll, going]
    · exact calls.calls
    · exact next
    · obtain pending | ends := session.connection.poll_ends build services found.channel
        (input session.connection.state found.read found.others)
      · rw [pending]
        exact trivial
      · exact agrees.ending ends
  · have same : MainService.poll build session found = session := by
      unfold MainService.poll Session.poll
      split
      · next pending => exact absurd pending going
      · rfl
    rw [same]
    exact keeps

private theorem Answering.run (clientId : Uuid) (polls : List Surroundings) :
    Answering (MainService.run build (.new clientId) polls) :=
  List.foldlRecOn polls _ (.new clientId) fun _ keeps found _ => keeps.poll found

end MainService

/-- Whatever a connection of the main binary meets, what it offers is the beginning of what its packets call
for, all of it when it waits for the next one, and can be encoded; and the services do not end it. -/
theorem main_replies (build : Build) (clientId : Uuid) (polls : List MainService.Surroundings) :
    let session := MainService.run build (.new clientId) polls
    session.offered <+: MainService.answersTo (MainService.receipts session.trace) ∧
      (session.result = .ok none → session.connection.state = .readingPacket →
        session.offered = MainService.answersTo (MainService.receipts session.trace)) ∧
      (∀ packet ∈ session.offered, packet.Sendable) ∧ MainService.Ending session.result := by
  intro session
  have keeps : MainService.Answering session := .run clientId polls
  have all : MainService.answering.offered session.trace = session.offered := List.filter_true _
  have beginning : session.offered <+: MainService.answersTo (MainService.receipts session.trace) :=
    (all ▸ keeps.settled.offers).trans keeps.calls
  refine ⟨beginning, fun goesOn reading => ?_, fun packet member => ?_, keeps.ending⟩
  · obtain ⟨due, isDue, whole⟩ := keeps.settled.due goesOn
    have agrees := keeps.agrees goesOn
    rw [reading] at isDue agrees
    obtain rfl : due = [] := isDue
    rw [List.append_nil, all] at whole
    exact whole.trans agrees.2
  · exact MainService.answersTo_sendable _ packet (beginning.subset member)

end Aqua
