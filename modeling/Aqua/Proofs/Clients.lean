import Aqua.Proofs.PoolRuns
import Aqua.Soundness.VersionPerConnection

/-! # One client in a run of the pool

A step accepts a client, polls it, or leaves it alone. What a client has done is never undone: it is in the
phase its actions have reached, and from its accepted CONNECT on it has the MQTT id of that CONNECT.
-/

namespace Aqua

open Wire Runtime

namespace Client

/-- The packet was taken from the decoder of the client. -/
def Received (self : Client) (packet : ControlPacket) : Prop := .received packet ∈ self.session.trace

/-- The CONNECT of the client was accepted, and has this client id. -/
def Named (self : Client) (name : String) : Prop :=
  ∃ first, .connectCalled (.connect first) ∈ self.session.trace ∧ first.clientId.value = name ∧
    ∃ res, .connectResolved res ∈ self.session.trace

variable {self next : Client} {name : String}

/-- Whatever the client has done, the next one has done too. -/
def Continues (self next : Client) : Prop := self.session.trace <+: next.session.trace

theorem Received.mono {packet : ControlPacket} (received : self.Received packet) (continues : self.Continues next) :
    next.Received packet := continues.subset received

theorem Named.mono (named : self.Named name) (continues : self.Continues next) : next.Named name := by
  obtain ⟨first, called, same, res, resolved⟩ := named
  exact ⟨first, continues.subset called, same, res, continues.subset resolved⟩

/-- What is known of a client whatever the others do: its phase, what it is before it is accepted, and its
MQTT id. -/
structure Known (clientId : Uuid) (client : Client) : Prop where
  inPhase : InPhase Server.services client.session
  unused : client.live = false → client = { session := .new clientId }
  named : ∀ res, .connectResolved res ∈ client.session.trace → client.Named client.mqttId
  nameless : (∀ res, .connectResolved res ∉ client.session.trace) → client.mqttId = ""

theorem Known.new (clientId : Uuid) (live : Bool) : Known clientId { live, session := .new clientId } where
  inPhase := @run_inPhase _ _ _ ⟨false⟩ _ clientId []
  unused := by
    rintro rfl
    rfl
  named := fun _ resolved => by cases resolved
  nameless := fun _ => rfl

/-- A client whose service was called is behind its accepted CONNECT, and has received the request. -/
theorem Known.processing {clientId : Uuid} (known : self.Known clientId) (goesOn : self.session.result = .ok none)
    {req : ControlPacket} (phase : self.session.connection.state = .processingService req) :
    self.Received req ∧ self.Named self.mqttId := by
  have reached := known.inPhase.2 goesOn
  rw [phase] at reached
  obtain ⟨script, request, same, trace⟩ := reached
  obtain rfl : req = request := same
  refine ⟨?_, known.named script.res ?_⟩
  · rw [Received, trace]
    exact List.mem_append_right _ (List.mem_cons_self ..)
  · rw [trace, Script.actions, Script.prelude]
    simp only [List.cons_append, List.mem_cons, true_or, or_true, reduceCtorEq, false_or]

end Client

namespace Server

variable {self : Server} {client : Client} {clientId : Uuid}

/-- The client behind a poll. -/
theorem resolve_known (build : Build) (known : client.Known clientId) (live : client.live = true)
    (goesOn : client.session.result = .ok none) (read : SocketRead) (ready : Bool)
    {input : PollInput MqttError} {broker : Broker} {mqttId : String}
    (given : self.resolve client clientId read ready = (input, broker, mqttId)) (channel : OutboundChannel) :
    let next : Client :=
      { client with mqttId, session := client.session.poll build services (channel, input) }
    next.Known clientId ∧ client.Continues next := by
  intro next
  have polls := client.session.connection.polls build services channel input
  have inPhase := @poll_inPhase _ _ _ build _ client.session (channel, input) known.inPhase
  have trace : next.session.trace =
      client.session.trace ++ (client.session.connection.poll build services channel input).actions := by
    simp only [next, Session.poll, goesOn]
  have continues : client.Continues next := by
    rw [Client.Continues, trace]
    exact List.prefix_append _ _
  have reached := known.inPhase.2 goesOn
  refine ⟨⟨inPhase, fun dead => ?_, ?_, ?_⟩, continues⟩
  · cases live.symm.trans dead
  · intro res resolved
    rw [trace, List.mem_append] at resolved
    rcases resolved with before | now
    · have stays : next.mqttId = client.mqttId := by
        change mqttId = client.mqttId
        have kept := @resolve_mqttId self client clientId read ready
        rw [given] at kept
        apply kept
        intro res' accepted
        -- a CONNECT is accepted once: the service is called behind nothing else
        obtain ⟨req, phase, _, _⟩ := resolve_connect (by rw [given]; exact accepted)
        rw [phase] at reached
        obtain ⟨first, _, whole⟩ := reached
        rw [whole] at before
        simp at before
      rw [stays]
      exact (known.named res before).mono continues
    · obtain ⟨req, phase, accepts, behind⟩ := resolve_connect (by rw [given]; exact polls.resolved now)
      rw [given] at behind
      rw [phase] at reached
      obtain ⟨first, rfl, whole⟩ := reached
      have renamed : mqttId = first.clientId.value := by
        have service : services.connect (.connect first) = .connect first := rfl
        rw [service] at accepts behind
        simp only [Broker.onConnect] at accepts behind
        split at accepts
        · next accepted =>
          rw [if_pos accepted] at behind
          exact congrArg Prod.snd behind
        · cases accepts
      refine ⟨first, ?_, renamed.symm, res, ?_⟩
      · rw [trace, whole]
        exact List.mem_append_left _ (List.mem_cons_of_mem _ (List.mem_singleton_self _))
      · rw [trace]
        exact List.mem_append_right _ now
  · intro silent
    change mqttId = ""
    have kept := @resolve_mqttId self client clientId read ready
    rw [given] at kept
    dsimp only at kept
    rw [kept fun res accepted => ?_]
    · exact known.nameless fun res before => silent res (continues.subset before)
    · obtain ⟨req, phase, _, _⟩ := resolve_connect (by rw [given]; exact accepted)
      apply silent res
      rw [trace]
      refine List.mem_append_right _ ?_
      simp only [Connection.poll, phase, show input.connect = .ok (some res) from accepted, List.mem_singleton]

end Server

namespace Server

variable {self : Server} {clientId other : Uuid} {read : SocketRead} {ready : Bool}

/-- A future registers its connection only under the MQTT id of the CONNECT that is accepted. -/
theorem resolve_registers {client : Client} {name : String}
    (registered : (self.resolve client clientId read ready).2.1.session.byMqttId.get name = some other) :
    self.broker.session.byMqttId.get name = some other ∨
      other = clientId ∧ (self.resolve client clientId read ready).2.2 = name ∧
        ∃ req res, client.session.connection.state = .processingConnect req ∧
          (self.resolve client clientId read ready).1.connect = .ok (some res) := by
  obtain before | ⟨rfl, req, res, phase, accepted⟩ := resolve_registered registered
  · exact .inl before
  · obtain ⟨req', phase', accepts, behind⟩ := resolve_connect accepted
    cases req' with
    | connect p =>
      simp only [Broker.onConnect] at accepts behind
      split at accepts
      · next known =>
        rw [if_pos known] at behind
        rw [behind] at registered ⊢
        simp only [SessionManager.setProtocolVersion, SessionManager.registerMqttId, DashMap.get_insert]
          at registered
        split at registered
        · next same => exact .inr ⟨rfl, same.symm, req, res, phase, accepted⟩
        · exact .inl registered
      · cases accepts
    | _ => cases accepts

end Server

namespace Pool

variable {build : Build} {self next : Pool} {event : Event}

/-- What a step does to one client. -/
inductive ClientStep (build : Build) (self : Pool) (event : Event) (clientId : Uuid) : Client → Prop
  | stays : ClientStep build self event clientId (self.server.clients clientId)
  | accepted (fresh : (self.server.clients clientId).live = false) :
      ClientStep build self event clientId { live := true, session := .new clientId }
  | polled {input : PollInput MqttError} {broker : Broker} {mqttId : String}
      (live : (self.server.clients clientId).live = true)
      (goesOn : (self.server.clients clientId).session.result = .ok none) {read : SocketRead} {ready : Bool}
      (polls : event = .server (.poll clientId read ready))
      (given : self.server.resolve (self.server.clients clientId) clientId read ready =
        (input, broker, mqttId)) :
      ClientStep build self event clientId { self.server.clients clientId with
        mqttId
        session := (self.server.clients clientId).session.poll build Server.services
          (broker.channels clientId, input) }

theorem Step.client (step : self.Step build event next) (clientId : Uuid) :
    self.ClientStep build event clientId (next.server.clients clientId) := by
  cases step with
  | server noTask step =>
    cases step with
    | @accept accepted fresh =>
      change ClientStep _ _ _ _ ((self.server.accept accepted).clients clientId)
      unfold Server.accept
      dsimp only
      rw [Function.update_apply]
      split
      · next own =>
        subst own
        exact .accepted fresh
      · exact .stays
    | @poll polled live goesOn read ready =>
      change ClientStep _ _ _ _ ((self.server.poll build polled read ready).clients clientId)
      cases given : self.server.resolve (self.server.clients polled) polled read ready with | mk input behind =>
      obtain ⟨broker, mqttId⟩ := behind
      rw [Server.poll_eq given]
      dsimp only
      rw [Function.update_apply]
      split
      · next own =>
        subst own
        exact .polled live goesOn rfl given
      · exact .stays
    | background background step => exact .stays
  | work place draws => exact .stays

theorem ClientStep.known {clientId : Uuid} {client : Client} (step : self.ClientStep build event clientId client)
    (known : (self.server.clients clientId).Known clientId) :
    client.Known clientId ∧ (self.server.clients clientId).Continues client := by
  cases step with
  | stays => exact ⟨known, List.prefix_refl _⟩
  | accepted fresh =>
    refine ⟨.new clientId true, ?_⟩
    rw [known.unused fresh]
    exact List.prefix_refl _
  | polled live goesOn polls given => exact Server.resolve_known build known live goesOn _ _ given _

/-- What is known of the clients of a reachable pool. -/
theorem Reachable.known (reachable : self.Reachable build) (clientId : Uuid) :
    (self.server.clients clientId).Known clientId := by
  obtain ⟨events, run⟩ := reachable
  induction run with
  | nil => exact .new clientId false
  | snoc earlier step ih => exact ((step.client clientId).known ih).1

/-- A step undoes nothing a client has done. -/
theorem Reachable.continues (reachable : self.Reachable build) (step : self.Step build event next) (clientId : Uuid) :
    (self.server.clients clientId).Continues (next.server.clients clientId) :=
  ((step.client clientId).known (reachable.known clientId)).2

/-- What is registered behind a step was registered before, or has just got its name. -/
theorem Reachable.registers (reachable : self.Reachable build) (step : self.Step build event next) {name : String}
    {clientId : Uuid} (registered : next.server.broker.session.byMqttId.get name = some clientId) :
    self.server.broker.session.byMqttId.get name = some clientId ∨ (next.server.clients clientId).Named name := by
  obtain before | ⟨live, read, ready, req, res, rfl, phase, accepted⟩ := step.registered registered
  · exact .inl before
  · cases step with
    | server noTask step =>
      cases step with
      | poll live goesOn read ready =>
        have known := reachable.known clientId
        obtain before | ⟨_, renamed, _⟩ := Server.resolve_registers registered
        · exact .inl before
        · refine .inr ?_
          cases given : self.server.resolve (self.server.clients clientId) clientId read ready with
          | mk input behind =>
          obtain ⟨broker, mqttId⟩ := behind
          rw [given] at accepted renamed
          obtain rfl : mqttId = name := renamed
          have next := (Server.resolve_known build known live goesOn read ready given (broker.channels clientId)).1
          change ((self.server.poll build clientId read ready).clients clientId).Named mqttId
          rw [Server.poll_eq given]
          dsimp only
          rw [Function.update_self]
          refine next.named res ?_
          simp only [Session.poll, goesOn, Connection.poll, phase,
            show input.connect = .ok (some res) from accepted]
          exact List.mem_append_right _ (List.mem_singleton_self _)

/-- A registered connection has the name it is registered under. -/
theorem Reachable.named (reachable : self.Reachable build) {name : String} {clientId : Uuid}
    (registered : self.server.broker.session.byMqttId.get name = some clientId) :
    (self.server.clients clientId).Named name := by
  obtain ⟨events, run⟩ := reachable
  induction run with
  | nil => cases registered
  | @snoc events event before next earlier step ih =>
    have reachable : before.Reachable build := ⟨events, earlier⟩
    obtain old | named := reachable.registers step registered
    · exact (ih old).mono (reachable.continues step clientId)
    · exact named

end Pool

end Aqua
