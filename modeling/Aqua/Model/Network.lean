import Aqua.Model.Workers
import Aqua.Model.Writer

/-! # The server and its writers

Every connection that is accepted gets a writer of its own. The connections and the spawned tasks send to
the channels; the writers receive, and write to the sockets whenever these take bytes.
-/

namespace Aqua

open Wire Runtime

structure Network where
  pool : Pool := .new
  writers : Uuid → Writer := fun _ => .new

namespace Network

def new : Network := {}

/-- The channel of a connection and its writer. -/
def line (self : Network) (clientId : Uuid) : Line :=
  ⟨self.pool.server.broker.channels clientId, self.writers clientId⟩

/-- Only the channel of a connection and its writer change. -/
def withLine (self : Network) (clientId : Uuid) (line : Line) : Network where
  pool := self.pool.enter { self.pool.server with
    broker := self.pool.server.broker.onChannel clientId fun _ => line.channel }
  writers := Function.update self.writers clientId line.writer

/-- The connection is over and has dropped its sender, and no other sender for its channel is registered. -/
def Senderless (self : Network) (clientId : Uuid) : Prop :=
  (self.pool.server.clients clientId).session.result ≠ .ok none ∧
    ∀ key outbound, self.pool.server.broker.session.byClientId.get key = some outbound →
      outbound.tx ≠ clientId

/-- Whether a step of the pool stands for a writer. -/
def isWriter : Pool.Event → Bool
  | .server (.background (.take _)) => true
  | .server (.background (.close _)) => true
  | _ => false

/-- `Connection::new` spawns the writer. -/
def spawnWriter (self : Network) : Pool.Event → Uuid → Writer
  | .server (.accept clientId) => Function.update self.writers clientId .new
  | _ => self.writers

inductive Event where
  | pool (event : Pool.Event)
  | receive (clientId : Uuid)
  | write (clientId : Uuid) (result : SocketWrite)
  | shutdown (clientId : Uuid)

/-- The writers of accepted connections run beside everything else. -/
inductive Step (build : Build) (self : Network) : Event → Network → Prop
  | pool {event : Pool.Event} {pool : Pool} (other : isWriter event = false)
      (step : self.pool.Step build event pool) :
      Step build self (.pool event) ⟨pool, self.spawnWriter event⟩
  | receive {clientId : Uuid} (live : (self.pool.server.clients clientId).live = true)
      (waits : (self.writers clientId).Waits) (queued : (self.line clientId).channel.queue ≠ []) :
      Step build self (.receive clientId) (self.withLine clientId (self.line clientId).receive)
  | write {clientId : Uuid} (live : (self.pool.server.clients clientId).live = true)
      (writes : (self.writers clientId).Writes) (result : SocketWrite) :
      Step build self (.write clientId result) (self.withLine clientId ((self.line clientId).write result))
  | shutdown {clientId : Uuid} (live : (self.pool.server.clients clientId).live = true)
      (waits : (self.writers clientId).Waits) (empty : (self.line clientId).channel.queue = [])
      (senderless : self.Senderless clientId) :
      Step build self (.shutdown clientId) (self.withLine clientId (self.line clientId).shutdown)

/-- The states of the network in some run. -/
def Reachable (build : Build) (network : Network) : Prop := ∃ events, Runs (Step build) .new events network

end Network

end Aqua
