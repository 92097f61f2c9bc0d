import Aqua.Proofs.ServerRuns
import Mathlib.Tactic.IntervalCases

/-! # DISCONNECT and the registrations of other connections

The handler of a DISCONNECT unregisters the MQTT id of its connection without asking who it is registered
for now. A connection whose id was taken over by a later one unregisters the later one.
-/

namespace Aqua

open Wire Runtime

namespace SessionManager

variable {self : SessionManager} {mqttId : String} {clientId : Uuid}

/-- A packet sent to the MQTT id goes to the channel of the connection. -/
def Reaches (self : SessionManager) (mqttId : String) (clientId : Uuid) : Prop :=
  ∀ channels pkt, self.sendByMqttId channels mqttId pkt = Outbound.send ⟨clientId⟩ channels pkt

/-- A send into empty channels shows where it goes. -/
theorem send_new_accepted (outbound : Outbound) (pkt : ControlPacket) (clientId : Uuid) :
    ((outbound.send (fun _ => .new) pkt).2 clientId).accepted =
      if clientId = outbound.tx then [pkt] else [] := by
  have sent : (Channel.new : OutboundChannel).trySend pkt = .ok (Channel.new.push pkt (by decide)) := rfl
  simp only [Outbound.send, sent, Function.update_apply]
  split <;> rfl

/-- Where packets go is what is registered for the MQTT id. -/
theorem reaches_iff (connected : self.Connected) :
    self.Reaches mqttId clientId ↔ self.byMqttId.get mqttId = some clientId := by
  constructor
  · intro reaches
    have sent := congrArg (fun sent : Sent => (sent.2 clientId).accepted)
      (reaches (fun _ => .new) .undefined)
    simp only [send_new_accepted, if_true, sendByMqttId] at sent
    cases known : self.byMqttId.get mqttId with
    | none => simp [known] at sent
    | some other =>
      simp only [known, sendByClientId, connected _ _ known, send_new_accepted] at sent
      by_cases same : clientId = other
      · rw [same]
      · simp [same] at sent
  · intro known channels pkt
    simp only [sendByMqttId, known, sendByClientId, connected _ _ known]

end SessionManager

namespace Server

variable {build : Build} {server : Server} {clientId : Uuid}

/-- The MQTT id of the connection is registered for another one. -/
def TakenOver (server : Server) (clientId : Uuid) : Prop :=
  (server.clients clientId).mqttId ≠ "" ∧ ∃ other, other ≠ clientId ∧
    server.broker.session.byMqttId.get (server.clients clientId).mqttId = some other

/-- Every packet that reached another connection still does. -/
def KeepsOthers (server next : Server) (clientId : Uuid) : Prop :=
  ∀ mqttId other, other ≠ clientId → server.broker.session.Reaches mqttId other →
    next.broker.session.Reaches mqttId other

/-- What the poll that handles a DISCONNECT does to the session manager. -/
theorem poll_disconnect_session {packet : Disconnect}
    (handling : (server.clients clientId).session.connection.state =
      .processingService (.disconnect packet)) (read : SocketRead) :
    (server.poll build clientId read true).broker.session =
      if (server.clients clientId).mqttId ≠ "" then
        server.broker.session.unregisterMqttId (server.clients clientId).mqttId
      else server.broker.session := by
  simp only [poll, resolve, handling, Broker.handle, Broker.onDisconnect, Broker.onChannel]
  split <;> rfl

end Server

/-- In every run of the server, a step that handles the DISCONNECT of a connection leaves the
registration of every other connection as it is if and only if the MQTT id of the connection is not
registered for another one. -/
theorem disconnect_confined_iff {build : Build} {server next : Server}
    (reachable : server.Reachable build) {clientId : Uuid} {read : SocketRead}
    (step : server.Step build (.poll clientId read true) next) {packet : Disconnect}
    (handling : (server.clients clientId).session.connection.state =
      .processingService (.disconnect packet)) :
    server.KeepsOthers next clientId ↔ ¬ server.TakenOver clientId := by
  have before := reachable.sound.connected
  have after := (reachable.step step).sound.connected
  cases step
  simp only [Server.KeepsOthers, SessionManager.reaches_iff before, SessionManager.reaches_iff after]
  simp only [Server.poll_disconnect_session handling, Server.TakenOver]
  by_cases named : (server.clients clientId).mqttId ≠ ""
  · simp only [if_pos named, Broker.unregisterMqttId_byMqttId]
    constructor
    · rintro keeps ⟨_, other, ne, known⟩
      have gone := keeps _ other ne known
      rw [if_pos rfl] at gone
      cases gone
    · intro own mqttId other ne known
      split
      · next same => exact absurd ⟨named, other, ne, same ▸ known⟩ own
      · exact known
  · simp only [if_neg named]
    exact iff_of_true (fun _ _ _ known => known) fun taken => named taken.1

/-- A CONNECT of the client `a`. -/
def comingBytes : Bytes :=
  [0x10, 0x0d, 0x00, 0x04, 0x4d, 0x51, 0x54, 0x54, 0x04, 0x02, 0x00, 0x3c, 0x00, 0x01, 0x61]

/-- The same with a DISCONNECT behind it, and the beginning of another packet. -/
def leavingBytes : Bytes := comingBytes ++ [0xe0, 0x00, 0xc0]

/-- A connection is accepted and sends both; the handler of its DISCONNECT is about to run. -/
def leaving : Server :=
  (Server.resume ⟨false⟩ ⟨0⟩)^[6]
    ((Server.new.accept ⟨0⟩).poll ⟨false⟩ ⟨0⟩ (.ready leavingBytes) true)

/-- A second connection of the same client was registered meanwhile. -/
def overtakenBy : Server :=
  (Server.resume ⟨false⟩ ⟨1⟩)^[3]
    ((leaving.accept ⟨1⟩).poll ⟨false⟩ ⟨1⟩ (.ready comingBytes) true)

private theorem leaving_reachable : leaving.Reachable ⟨false⟩ := by
  have accepted : (Server.new.accept ⟨0⟩).Reachable ⟨false⟩ := (Server.Reachable.new _).step (.accept rfl)
  refine (accepted.poll rfl rfl _ _).resume 6 fun k lt => ?_
  interval_cases k <;> exact ⟨rfl, rfl⟩

private theorem overtakenBy_reachable : overtakenBy.Reachable ⟨false⟩ := by
  have accepted : (leaving.accept ⟨1⟩).Reachable ⟨false⟩ := leaving_reachable.step (.accept rfl)
  refine (accepted.poll rfl rfl _ _).resume 3 fun k lt => ?_
  interval_cases k <;> exact ⟨rfl, rfl⟩

private theorem leaving_handling :
    (leaving.clients ⟨0⟩).session.connection.state = .processingService (.disconnect {}) := rfl

/-- The step that handles the DISCONNECT. -/
theorem disconnects {server : Server} (live : (server.clients ⟨0⟩).live = true)
    (goesOn : (server.clients ⟨0⟩).session.result = .ok none) :
    server.Step ⟨false⟩ (.poll ⟨0⟩ .pending true) (server.poll ⟨false⟩ ⟨0⟩ .pending true) :=
  .poll live goesOn _ _

theorem disconnect_confined_iff_leaving :
    leaving.KeepsOthers (leaving.poll ⟨false⟩ ⟨0⟩ .pending true) ⟨0⟩ ↔ ¬ leaving.TakenOver ⟨0⟩ :=
  disconnect_confined_iff leaving_reachable (disconnects rfl rfl) leaving_handling

/-- The late DISCONNECT of the first connection unregisters the second one. -/
theorem overtakenBy_unregistered :
    ¬ ∀ (server next : Server) (clientId : Uuid) (packet : Disconnect), server.Reachable ⟨false⟩ →
      server.Step ⟨false⟩ (.poll clientId .pending true) next →
      (server.clients clientId).session.connection.state = .processingService (.disconnect packet) →
        server.KeepsOthers next clientId := by
  intro claim
  have step := @disconnects overtakenBy rfl rfl
  have keeps := claim overtakenBy _ ⟨0⟩ {} overtakenBy_reachable step rfl
  have before := overtakenBy_reachable.sound.connected
  have after := (overtakenBy_reachable.step step).sound.connected
  have reached : overtakenBy.broker.session.Reaches "a" ⟨1⟩ :=
    (SessionManager.reaches_iff before).mpr (by decide)
  have still := (SessionManager.reaches_iff after).mp (keeps "a" ⟨1⟩ (by decide) reached)
  exact absurd still (by decide)

end Aqua
