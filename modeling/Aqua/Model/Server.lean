import Aqua.Model.Connection
import Aqua.Runtime.Runs

/-! # The server

All connections, with the state they share. The future of a service is the request it was called with:
its handler runs in one step when the future is ready, and any number of polls before that find it
pending.
-/

namespace Aqua

open Wire Runtime

/-- A connection, whether it was accepted, and the MQTT id its connect service has stored. -/
structure Client where
  live : Bool := false
  mqttId : String := ""
  session : Session MqttError ControlPacket ControlPacket

structure Server where
  broker : Broker := .new
  clients : Uuid → Client := fun clientId => { session := .new clientId }

namespace Server

def new : Server := {}

/-- A future keeps its request. -/
def services : Services ControlPacket ControlPacket := ⟨id, id⟩

/-- `serve`: a connection under a new id, which registers its sender. -/
def accept (self : Server) (clientId : Uuid) : Server where
  broker := self.broker.accept clientId
  clients := Function.update self.clients clientId { live := true, session := .new clientId }

/-- What the future of a connection gives when it is polled: the result for the connection, the state
behind the handler, and the MQTT id. -/
def resolve (self : Server) (client : Client) (clientId : Uuid) (read : SocketRead) (ready : Bool) :
    PollInput MqttError × Broker × String :=
  match client.session.connection.state, ready with
  | .processingConnect req, true =>
      match self.broker.onConnect clientId client.mqttId req with
      | (.ok res, broker, mqttId) => ({ read, connect := .ok (some res) }, broker, mqttId)
      | (.error e, broker, mqttId) => ({ read, connect := .err e }, broker, mqttId)
  | .processingService req, true =>
      match self.broker.handle client.mqttId req with
      | (result, broker) => ({ read, service := some <$> result }, broker, client.mqttId)
  | _, _ => ({ read }, self.broker, client.mqttId)

/-- One poll of a connection that has not ended. -/
def poll (build : Build) (self : Server) (clientId : Uuid) (read : SocketRead) (ready : Bool) :
    Server :=
  let client := self.clients clientId
  let (input, broker, mqttId) := self.resolve client clientId read ready
  let found := (broker.channels clientId, input)
  let polled := client.session.connection.poll build services found.1 found.2
  { broker := broker.onChannel clientId fun _ => polled.channel
    clients := Function.update self.clients clientId
      { client with mqttId, session := client.session.poll build services found } }

/-- What happens besides the connections: tasks, writers, and the order of the tables. -/
def Background : Broker.Event → Prop
  | .task _ _ => True
  | .take _ => True
  | .close _ => True
  | .rehash _ _ => True
  | _ => False

inductive Event where
  | accept (clientId : Uuid)
  | poll (clientId : Uuid) (read : SocketRead) (ready : Bool)
  | background (event : Broker.Event)

inductive Step (build : Build) (self : Server) : Event → Server → Prop
  | accept {clientId : Uuid} (fresh : (self.clients clientId).live = false) :
      Step build self (.accept clientId) (self.accept clientId)
  | poll {clientId : Uuid} (live : (self.clients clientId).live = true)
      (goesOn : (self.clients clientId).session.result = .ok none) (read : SocketRead) (ready : Bool) :
      Step build self (.poll clientId read ready) (self.poll build clientId read ready)
  | background {event : Broker.Event} {broker : Broker} (background : Background event)
      (step : self.broker.Step event broker) :
      Step build self (.background event) { self with broker }

/-- The states of the server in some run. -/
def Reachable (build : Build) (server : Server) : Prop :=
  ∃ events, Runs (Step build) .new events server

end Server

end Aqua
