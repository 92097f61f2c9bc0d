import Aqua.Proofs.ServerRuns

/-! # Registrations of ended connections

A connection registers its sender when it is made, and nothing ever unregisters it: neither an exit of
`Connection::poll` nor a handler calls `unregister_client_id`. The sender of a connection that has ended
stays, and with it the channel its writer waits on.
-/

namespace Aqua

open Wire Runtime

/-- The session manager knows nothing of the connection. -/
structure SessionManager.Forgot (session : SessionManager) (clientId : Uuid) : Prop where
  sender : session.byClientId.get clientId = none
  mqttId : session.byClientMqtt.get clientId = none
  connection : ∀ mqttId, session.byMqttId.get mqttId ≠ some clientId

/-- `Poll::Ready`. -/
def Client.Ended (self : Client) : Prop :=
  self.session.result = .ok (some ()) ∨ ∃ error, self.session.result = .err error

/-- Only connections that go on are registered. -/
def Server.OnlyLive (self : Server) : Prop :=
  ∀ clientId, self.broker.session.byClientId.get clientId ≠ none → ¬ (self.clients clientId).Ended

namespace Server

variable {build : Build} {server next : Server} {clientId : Uuid}

/-- A connection that has done anything was accepted. -/
def Begun (self : Server) : Prop :=
  ∀ clientId, (self.clients clientId).session.result ≠ .ok none → (self.clients clientId).live = true

private theorem Begun.step {event : Event} (begun : server.Begun) (step : server.Step build event next) :
    next.Begun := by
  cases step with
  | accept fresh =>
    exact forall_update (P := fun _ client => client.session.result ≠ .ok none → client.live = true)
      (fun _ => rfl) begun
  | poll live goesOn read ready =>
    exact forall_update (P := fun _ client => client.session.result ≠ .ok none → client.live = true)
      (fun _ => live) begun
  | background background step => exact begun

private theorem Reachable.begun (reachable : server.Reachable build) : server.Begun :=
  reachable.invariant (fun _ wrong => absurd rfl wrong) fun _ _ _ begun step => begun.step step

private theorem live_later {events : List Event} (run : Runs (Step build) server events next)
    (live : (server.clients clientId).live = true) : (next.clients clientId).live = true := by
  induction run with
  | nil => exact live
  | snoc _ last ih => exact last.live ih

private theorem Reachable.later {events : List Event} (reachable : server.Reachable build)
    (run : Runs (Step build) server events next) : next.Reachable build :=
  run.invariant (fun _ _ _ reachable step => reachable.step step) reachable

end Server

/-- In every run of the server, a connection that has ended is registered in every later state: its
sender stays, so the registered connections are not among those that go on. -/
theorem ended_registered {build : Build} {server final : Server} {events : List Server.Event}
    (reachable : server.Reachable build) {clientId : Uuid} (ended : (server.clients clientId).Ended)
    (later : Runs (Server.Step build) server events final) :
    final.broker.session.byClientId.get clientId = some ⟨clientId⟩ ∧
      ¬ final.broker.session.Forgot clientId ∧ ¬ server.OnlyLive := by
  have live : (server.clients clientId).live = true := by
    apply reachable.begun
    rcases ended with done | ⟨error, failed⟩
    · rw [done]
      exact fun wrong => by cases wrong
    · rw [failed]
      exact fun wrong => by cases wrong
  have sender := ((reachable.later later).sound.clients clientId).sender (Server.live_later later live)
  refine ⟨sender, fun forgot => ?_, fun only => ?_⟩
  · cases sender.symm.trans forgot.sender
  · refine only clientId ?_ ended
    rw [(reachable.sound.clients clientId).sender live]
    exact fun wrong => by cases wrong

/-- The first read of a connection fails. -/
def broken : Server := (Server.new.accept ⟨0⟩).poll ⟨false⟩ ⟨0⟩ .failed true

private theorem broken_reachable : broken.Reachable ⟨false⟩ :=
  ((Server.Reachable.new _).step (.accept rfl)).poll rfl rfl _ _

private theorem broken_ended : (broken.clients ⟨0⟩).Ended := .inr ⟨.io, rfl⟩

theorem ended_registered_broken :
    broken.broker.session.byClientId.get ⟨0⟩ = some ⟨⟨0⟩⟩ ∧
      ¬ broken.broker.session.Forgot ⟨0⟩ ∧ ¬ broken.OnlyLive :=
  ended_registered broken_reachable broken_ended .nil

/-- It is registered still. -/
theorem broken_not_forgot :
    ¬ ∀ (server : Server) (clientId : Uuid), server.Reachable ⟨false⟩ →
      (server.clients clientId).Ended → server.broker.session.Forgot clientId := by
  intro claim
  have forgot := claim broken ⟨0⟩ broken_reachable broken_ended
  exact absurd forgot.sender (by decide)

end Aqua
