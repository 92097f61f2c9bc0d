import Aqua.Proofs.PoolRuns
import Aqua.Soundness.SubackCodes

/-! # The version in a run of the pool

The workers change none of the versions that are stored, so these stay 4 when the deliveries run beside the
connections; and with them the version of every message kept and of every packet sent.
-/

namespace Aqua

open Wire Runtime

/-- What the clients know of the versions does not depend on the rest of the broker. -/
theorem ServerJoined.withBroker {server : Server} {broker : Broker} (joined : ServerJoined server)
    (same : broker.session = server.broker.session) (all : AllV4 broker) :
    ServerJoined { server with broker } where
  versions := by
    refine ⟨all, fun clientId => (joined.versions.clients clientId).mono (stores_of_eq ?_)⟩
    rw [same]
  joined := joined.joined

namespace Pool

variable {build : Build} {self next : Pool} {event : Event}

/-- Everything that is kept, about to be sent, or in a channel speaks version 4. -/
def Speaks4 (self : Pool) : Prop :=
  self.Holds (fun message => message.protocolVersion = level4) (fun _ msg => msg.protocolVersion = level4)
    fun _ packet => packet.Speaks4

/-- The broker speaks version 4 if what it stores does. -/
theorem Speaks4.all (speaks : self.Speaks4) (joined : ServerJoined self.server) : AllV4 self.server.broker :=
  ⟨joined.versions.broker.versions, speaks.messages, speaks.channels⟩

/-- Where every version stored is 4, a step adds nothing of another version. -/
theorem Speaks4.feeds (speaks : self.Speaks4) (joined : ServerJoined self.server) :
    self.Feeds (fun message => message.protocolVersion = level4) (fun _ msg => msg.protocolVersion = level4)
      fun _ packet => packet.Speaks4 := by
  have all := speaks.all joined
  refine ⟨?_, ?_, ?_, ?_, ?_⟩
  · intro clientId p _ _ _
    exact all.versionOf _
  · intro task draws version send member
    exact AllV4.copies version (Broker.mem_sendsOf member).1 _ rfl
  · intro subId msg clientId version _ v own
    cases own
    exact version
  · intro clientId req res _ _ accepts v own
    cases own
    exact (all.onConnect clientId _ req).2 res accepts
  · intro clientId req res _ _ answers packet member
    exact all.answer answers packet (mem_of_mem_written member)

theorem Step.joined (step : self.Step build event next) (sound : self.Sound build) (speaks : self.Speaks4)
    (joined : ServerJoined self.server) : next.Speaks4 ∧ ServerJoined next.server := by
  have kept : next.Speaks4 := Holds.step speaks (speaks.feeds joined) sound step
  refine ⟨kept, ?_⟩
  cases step with
  | server noTask step =>
    have after := joined.step step
    exact after.withBroker rfl ⟨after.versions.broker.versions, kept.messages, kept.channels⟩
  | work place draws =>
    have session : (self.crew.work place draws).broker.session = self.server.broker.session :=
      self.crew.work_session place draws
    refine joined.withBroker session ⟨?_, kept.messages, kept.channels⟩
    rw [session]
    exact joined.versions.broker.versions

/-- In every reachable pool the versions are 4. -/
theorem Reachable.joined (reachable : self.Reachable build) : self.Speaks4 ∧ ServerJoined self.server := by
  obtain ⟨events, run⟩ := reachable
  induction run with
  | nil => exact ⟨.new _ _ _, serverV4_new, fun clientId => client_joined_fresh _ clientId⟩
  | snoc earlier step ih =>
    have reachable : Reachable build _ := ⟨_, earlier⟩
    exact step.joined reachable.sound ih.1 ih.2

theorem Reachable.all (reachable : self.Reachable build) : AllV4 self.server.broker :=
  reachable.joined.1.all reachable.joined.2

/-- A version is stored for the client whose service processes a request. -/
theorem Reachable.versioned (reachable : self.Reachable build) {clientId : Uuid} {req : ControlPacket}
    (goesOn : (self.server.clients clientId).session.result = .ok none)
    (phase : (self.server.clients clientId).session.connection.state = .processingService req) :
    self.server.broker.session.getProtocolVersion (self.server.clients clientId).mqttId = some level4 := by
  have joined := reachable.joined.2
  have reached := (joined.versions.clients clientId).inPhase.2 goesOn
  rw [phase] at reached
  obtain ⟨first, res, declared, accepted⟩ := reached.accepted
  rw [joined.joined clientId first res declared accepted]
  exact (joined.versions.clients clientId).stored first res declared accepted

end Pool

end Aqua
