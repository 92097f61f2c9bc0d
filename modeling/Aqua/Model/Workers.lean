import Aqua.Model.Server

/-! # Spawned tasks at work

A spawned task runs beside the connections: it retains its message, looks its subscribers up and sends
to one after the other, and anything may happen in between. Here every one of these operations is a step
of its own. A worker is what is left of a task; workers stand in the order in which their tasks were
spawned.
-/

namespace Aqua

/-- The sends of a task, each with the MQTT id it goes to. -/
abbrev Sends := List (String × Publish)

inductive Worker where
  | spawned (task : Task)
  | retained (task : Task)
  | sending (sends : Sends)
deriving DecidableEq

namespace Broker

/-- What a task does first: only a QoS 0 or 1 message has not been retained by a handler. -/
def retainFor (self : Broker) : Task → Broker
  | .deliver pubpacket =>
      if pubpacket.retain.value then
        { self with retain := self.retain.updateRetain pubpacket.topicName.value pubpacket }
      else self
  | .release _ _ => self

/-- The loop over the subscribers of a topic, as the list of its sends. -/
def sendsTo (self : Broker) (topic : String) (msg : ℕ → SubscribeOption → Publish) : Sends :=
  (self.topics.subedId topic).zipIdx.map fun sub => (sub.1.1, msg sub.2 sub.1.2)

def sendsOf (self : Broker) (draws : Draws) : Task → Sends
  | .deliver pubpacket =>
      self.sendsTo pubpacket.topicName.value fun place option =>
        deliveryMsg pubpacket option (draws place)
  | .release publish packetId =>
      self.sendsTo publish.topicName.value fun _ option => releaseMsg publish packetId option

/-- The next operation of a worker. -/
def work (self : Broker) (draws : Draws) : Worker → Broker × Worker
  | .spawned task => (self.retainFor task, .retained task)
  | .retained task => (self, .sending (self.sendsOf draws task))
  | .sending [] => (self, .sending [])
  | .sending (send :: rest) => (self.sendTo send.1 send.2, .sending rest)

end Broker

/-- The broker with the workers of all tasks that were spawned. -/
structure Crew where
  broker : Broker
  workers : List Worker := []

namespace Crew

/-- Every task that was spawned becomes a worker. -/
def hire (self : Crew) : Crew where
  broker := { self.broker with tasks := [] }
  workers := self.workers ++ self.broker.tasks.map Worker.spawned

/-- One operation of the worker at a place. -/
def work (self : Crew) (place : ℕ) (draws : Broker.Draws) : Crew :=
  match self.workers[place]? with
  | some worker =>
      let (broker, worker) := self.broker.work draws worker
      { broker, workers := self.workers.set place worker }
  | none => self

/-- What the worker at a place sends next. -/
def next? (self : Crew) (place : ℕ) : Option (String × Publish) :=
  match self.workers[place]? with
  | some (.sending (send :: _)) => some send
  | _ => none

end Crew

/-- The server and the workers of its tasks. -/
structure Pool where
  server : Server
  workers : List Worker := []

namespace Pool

def new : Pool := ⟨.new, []⟩

def crew (self : Pool) : Crew := ⟨self.server.broker, self.workers⟩

def withCrew (self : Pool) (crew : Crew) : Pool :=
  ⟨{ self.server with broker := crew.broker }, crew.workers⟩

/-- The server is in a new state, and its tasks become workers. -/
def enter (self : Pool) (server : Server) : Pool :=
  let pool := { self with server }
  pool.withCrew pool.crew.hire

def work (self : Pool) (place : ℕ) (draws : Broker.Draws) : Pool :=
  self.withCrew (self.crew.work place draws)

inductive Event where
  | server (event : Server.Event)
  | work (place : ℕ) (draws : Broker.Draws)

/-- Whether a step of the server runs a whole task. -/
def isTask : Server.Event → Bool
  | .background (.task _ _) => true
  | _ => false

/-- A step of the server that runs no task, or an operation of a worker. -/
inductive Step (build : Build) (self : Pool) : Event → Pool → Prop
  | server {event : Server.Event} {next : Server} (noTask : isTask event = false)
      (step : self.server.Step build event next) : Step build self (.server event) (self.enter next)
  | work (place : ℕ) (draws : Broker.Draws) : Step build self (.work place draws) (self.work place draws)

end Pool

end Aqua
