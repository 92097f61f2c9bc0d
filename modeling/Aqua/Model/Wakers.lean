import Aqua.Model.Connection
import Aqua.Runtime.Runs

/-! # Wakers

What the polls of a decoder and of a connection do with the waker of their task, and the task that is
polled when it was woken. A poll that returns `Poll::Pending` has woken the task itself, or left the waker
with the socket or with the future of a service.
-/

namespace Aqua

open Wire Runtime

/-- Whether `poll_decode` wakes the task. It does so in front of every `Poll::Pending` but the one for an
empty buffer, and in front of a packet only behind a payload. -/
def Decoder.wakes (build : Build) (self : Decoder) : Bool :=
  if self.buf = [] then false
  else match self.pollDecode build with
    | .ok (none, _) => true
    | .ok (some _, _) => self.state = .variableHeaderDecoded
    | _ => false

/-- Where a poll has left the waker: used at once, with the socket, with the future of a service. -/
structure Wakers where
  used : Bool := false
  socket : Bool := false
  future : Bool := false
deriving DecidableEq

namespace Connection

variable {F CF ε : Type}

/-- A read that is pending keeps the waker. -/
def readPacketWakers (build : Build) (self : Connection F CF) : SocketRead → Wakers
  | .ready [] => {}
  | .ready bytes => { used := (self.decoder.feed bytes).wakes build }
  | .failed => {}
  | .pending => { used := self.decoder.wakes build, socket := true }

/-- A future that is pending keeps the waker; a result leads to a new state. -/
def futureWakers {ε α : Type} : Outcome ε (Option α) → Wakers
  | .ok (some _) => { used := true }
  | .ok none => { future := true }
  | _ => {}

/-- Every poll that reaches its end, with a new state, wakes the task. -/
def pollWakers (build : Build) (self : Connection F CF) (channel : OutboundChannel)
    (input : PollInput ε) : Wakers :=
  match self.state with
  | .preConnection =>
      match (self.readPacket build input.read : Outcome (ConnectionError ε) (Option ControlPacket) × _).1 with
      | .ok (some (.connect _)) => { self.readPacketWakers build input.read with used := true }
      | _ => self.readPacketWakers build input.read
  | .processingConnect _ => futureWakers input.connect
  | .responseConnect res =>
      match channel.trySend (.connack res.toConnack) with
      | .ok _ => { used := true }
      | .error (.full _) => { used := true }
      | .error (.closed _) => {}
  | .readingPacket =>
      match (self.readPacket build input.read : Outcome (ConnectionError ε) (Option ControlPacket) × _).1 with
      | .ok (some _) => { self.readPacketWakers build input.read with used := true }
      | _ => self.readPacketWakers build input.read
  | .processingService _ => futureWakers input.service
  | .writingPacket res =>
      match (writePackets input.others 0 res.packets channel).1 with
      | .done => { used := true }
      | _ => {}

/-- The states in which a poll reads the socket. -/
def Reads (self : Connection F CF) : Prop := self.state = .preConnection ∨ self.state = .readingPacket

end Connection

/-- How a socket ends. -/
inductive SocketEnd where
  | closed
  | failed

/-- The bytes that have arrived and were not read, and whether anything comes behind them. -/
structure Socket where
  arrived : Bytes := []
  ended : Option SocketEnd := none

namespace Socket

/-- `poll_read_buf`: of what is there at least one byte is read. -/
def read (self : Socket) (more : ℕ) : SocketRead × Socket :=
  match self.arrived, self.ended with
  | first :: rest, _ => (.ready (first :: rest.take more), { self with arrived := rest.drop more })
  | [], some .closed => (.ready [], self)
  | [], some .failed => (.failed, self)
  | [], none => (.pending, self)

end Socket

/-- The task of a connection: whether it is scheduled, who keeps its waker, and what its polls find. The
results are those of the futures it has called, until a poll takes them. -/
structure Spawned (ε F CF : Type) where
  session : Session ε F CF
  scheduled : Bool := true
  atSocket : Bool := false
  atFuture : Bool := false
  socket : Socket := {}
  connect : Outcome ConnackError (Option ConnackResponse) := .ok none
  service : Outcome ε (Option Response) := .ok none

namespace Spawned

variable {ε F CF : Type}

/-- `tokio::spawn` schedules the task. -/
def new (clientId : Uuid) : Spawned ε F CF := { session := .new clientId }

/-- What happened at the socket uses a waker that was left there. -/
def wakeSocket (self : Spawned ε F CF) (socket : Socket) : Spawned ε F CF :=
  { self with socket, scheduled := self.scheduled || self.atSocket, atSocket := false }

def wakeFuture (self : Spawned ε F CF) : Spawned ε F CF :=
  { self with scheduled := self.scheduled || self.atFuture, atFuture := false }

/-- One poll of the task, which finds the channel, reads at most one byte and `more` from the socket, and is
interrupted by `others`. -/
def poll (build : Build) (services : Services F CF) (self : Spawned ε F CF) (channel : OutboundChannel)
    (more : ℕ) (others : ℕ → List ChannelOp) : Spawned ε F CF :=
  let connection := self.session.connection
  let found := self.socket.read more
  let input : PollInput ε := { read := found.1, connect := self.connect, service := self.service, others }
  let wakers := connection.pollWakers build channel input
  { session := self.session.poll build services (channel, input)
    scheduled := wakers.used
    atSocket := self.atSocket || wakers.socket
    atFuture := self.atFuture || wakers.future
    socket := match connection.state with
      | .preConnection => found.2
      | .readingPacket => found.2
      | _ => self.socket
    connect := match connection.state with
      | .processingConnect _ => .ok none
      | _ => self.connect
    service := match connection.state with
      | .processingService _ => .ok none
      | _ => self.service }

inductive Event (ε : Type) where
  | arrive (bytes : Bytes)
  | ends (how : SocketEnd)
  | connected (outcome : Outcome ConnackError ConnackResponse)
  | served (outcome : Outcome ε Response)
  | wake
  | poll (channel : OutboundChannel) (more : ℕ) (others : ℕ → List ChannelOp)

/-- A future is done once, behind its call. A task may be woken without need. -/
inductive Step (build : Build) (services : Services F CF) (self : Spawned ε F CF) :
    Event ε → Spawned ε F CF → Prop
  | arrive {bytes : Bytes} (some_byte : bytes ≠ []) (going : self.socket.ended = none) :
      Step build services self (.arrive bytes)
        (self.wakeSocket { self.socket with arrived := self.socket.arrived ++ bytes })
  | ends (how : SocketEnd) (going : self.socket.ended = none) :
      Step build services self (.ends how) (self.wakeSocket { self.socket with ended := some how })
  | connected {fut : CF} (called : self.session.connection.state = .processingConnect fut)
      (pending : self.connect = .ok none) (outcome : Outcome ConnackError ConnackResponse) :
      Step build services self (.connected outcome) { self.wakeFuture with connect := some <$> outcome }
  | served {fut : F} (called : self.session.connection.state = .processingService fut)
      (pending : self.service = .ok none) (outcome : Outcome ε Response) :
      Step build services self (.served outcome) { self.wakeFuture with service := some <$> outcome }
  | wake : Step build services self .wake { self with scheduled := true }
  | poll (goesOn : self.session.result = .ok none) (channel : OutboundChannel) (more : ℕ)
      (others : ℕ → List ChannelOp) :
      Step build services self (.poll channel more others) (self.poll build services channel more others)

/-- A poll needs a wake-up. -/
def Woken (self : Spawned ε F CF) : Event ε → Prop
  | .poll _ _ _ => self.scheduled = true
  | _ => True

/-- The steps of a runtime that polls a task when it was woken. -/
abbrev Driven (build : Build) (services : Services F CF) :
    Spawned ε F CF → Event ε → Spawned ε F CF → Prop :=
  Guarded (Step build services) Woken

end Spawned

end Aqua
