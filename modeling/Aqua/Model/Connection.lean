import Aqua.Model.Broker
import Aqua.Model.Decoder

/-! # The connection

The future that serves one connection: six states, moved out of the connection at every poll and put
back on every path that goes on. What a poll finds in its surroundings (the result of the socket read,
the futures of the two services, what happens to the channel meanwhile) is its input; what it does to
them is recorded as its actions.
-/

namespace Aqua

open Wire Runtime

/-- What `poll_read_buf` gives; no bytes are the end of the file. -/
inductive SocketRead where
  | ready (bytes : Bytes)
  | failed
  | pending

/-- The error of a connection; `ε` is the error of the service. -/
inductive ConnectionError (ε : Type) where
  | text (message : String)
  | io
  | mqtt (error : MqttError)
  | service (error : ε)
  | connect (error : ConnackError)

/-- The two services. A call only creates the future. -/
structure Services (F CF : Type) where
  call : ControlPacket → F
  connect : ControlPacket → CF

inductive ConnectionState (F CF : Type) where
  | preConnection
  | processingConnect (fut : CF)
  | responseConnect (res : ConnackResponse)
  | readingPacket
  | processingService (fut : F)
  | writingPacket (res : Response)

/-- What the writer and the other senders do to the channel of a connection. -/
inductive ChannelOp where
  | take
  | send (packet : ControlPacket)
  | close

def ChannelOp.apply (channel : OutboundChannel) : ChannelOp → OutboundChannel
  | .take => channel.take
  | .send packet => channel.offer packet
  | .close => channel.close

/-- What one poll finds. The futures are polled once and may be pending; `others k` happens to the
channel before the packet at place `k` of a response is offered. -/
structure PollInput (ε : Type) where
  read : SocketRead := .pending
  connect : Outcome ConnackError (Option ConnackResponse) := .ok none
  service : Outcome ε (Option Response) := .ok none
  others : ℕ → List ChannelOp := fun _ => []

/-- What a connection does: take a packet from its decoder, call a service with it, get the result of
the future, and offer a packet to its channel as it finds it. -/
inductive Action where
  | received (packet : ControlPacket)
  | connectCalled (packet : ControlPacket)
  | connectResolved (res : ConnackResponse)
  | called (packet : ControlPacket)
  | resolved (res : Response)
  | offered (packet : ControlPacket) (channel : OutboundChannel)

structure Connection (F CF : Type) where
  clientId : Uuid
  state : ConnectionState F CF := .preConnection
  decoder : Decoder := .new
  protocolVersion : Option ProtocolVersion := none

namespace Connection

variable {F CF ε : Type}

def new (clientId : Uuid) : Connection F CF := { clientId }

/-- What a poll returned (no value is `Poll::Pending`), and what it left behind. -/
structure Polled (ε F CF : Type) where
  result : Outcome (ConnectionError ε) (Option Unit)
  connection : Connection F CF
  channel : OutboundChannel
  actions : List Action := []

/-- `Poll::Ready(Ok(_))` with a packet, `Poll::Pending` without. -/
def readPacket (build : Build) (self : Connection F CF) (read : SocketRead) :
    Outcome (ConnectionError ε) (Option ControlPacket) × Connection F CF :=
  let decode (self : Connection F CF) :
      Outcome (ConnectionError ε) (Option ControlPacket) × Connection F CF :=
    match self.decoder.pollDecode build with
    | .ok (ready, decoder) => (.ok ready, { self with decoder })
    | .err e => (.err (.mqtt e), self)
    | .panic => (.panic, self)
    | .diverge => (.diverge, self)
  match read with
  | .ready [] => (.err (.text "Connection closed because poll_Read_buf is zero"), self)
  | .ready bytes => decode { self with decoder := self.decoder.feed bytes }
  | .failed => (.err .io, self)
  | .pending => decode self

/-- How the loop over the packets of a response ends. -/
inductive Written where
  | done
  | disconnect
  | closed

/-- The loop over the packets of a response, from the place `place` on. -/
def writePackets (others : ℕ → List ChannelOp) :
    ℕ → List ControlPacket → OutboundChannel → Written × OutboundChannel × List Action
  | _, [], channel => (.done, channel, [])
  | _, .disconnect _ :: _, channel => (.disconnect, channel, [])
  | place, .noOperation :: rest, channel => writePackets others (place + 1) rest channel
  | place, packet :: rest, channel =>
      let channel := (others place).foldl ChannelOp.apply channel
      match channel.trySend packet with
      | .ok next =>
          let (written, final, actions) := writePackets others (place + 1) rest next
          (written, final, .offered packet channel :: actions)
      -- the packet is dropped
      | .error (.full _) =>
          let (written, final, actions) := writePackets others (place + 1) rest channel
          (written, final, .offered packet channel :: actions)
      | .error (.closed _) => (.closed, channel, [.offered packet channel])

/-- One poll. The state is moved out first, which leaves the default. -/
def poll (build : Build) (services : Services F CF) (self : Connection F CF)
    (channel : OutboundChannel) (input : PollInput ε) : Polled ε F CF :=
  let taken := self.state
  let self := { self with state := .preConnection }
  match taken with
  | .preConnection =>
      match self.readPacket build input.read with
      | (.ok (some (.connect packet)), self) => {
          result := .ok none
          connection := { self with
            protocolVersion := some packet.protocolVer
            decoder := self.decoder.setProtocolVersion (some packet.protocolVer)
            state := .processingConnect (services.connect (.connect packet)) }
          channel
          actions := [.received (.connect packet), .connectCalled (.connect packet)] }
      | (.ok (some packet), self) =>
          { result := .err (.mqtt .unexpected), connection := self, channel,
            actions := [.received packet] }
      | (.ok none, self) =>
          { result := .ok none, connection := { self with state := .preConnection }, channel }
      | (.err e, self) => { result := .err e, connection := self, channel }
      | (.panic, self) => { result := .panic, connection := self, channel }
      | (.diverge, self) => { result := .diverge, connection := self, channel }
  | .processingConnect fut =>
      match input.connect with
      | .ok (some res) => {
          result := .ok none
          connection := { self with state := .responseConnect res }
          channel
          actions := [.connectResolved res] }
      | .ok none =>
          { result := .ok none, connection := { self with state := .processingConnect fut }, channel }
      | .err e => { result := .err (.connect e), connection := self, channel }
      | .panic => { result := .panic, connection := self, channel }
      | .diverge => { result := .diverge, connection := self, channel }
  | .responseConnect res =>
      let packet := ControlPacket.connack res.toConnack
      let actions := [Action.offered packet channel]
      match channel.trySend packet with
      | .ok next =>
          { result := .ok none, connection := { self with state := .readingPacket }, channel := next,
            actions }
      -- the packet is dropped
      | .error (.full _) =>
          { result := .ok none, connection := { self with state := .readingPacket }, channel, actions }
      | .error (.closed _) =>
          { result := .err (.text "Channel closed"), connection := self, channel, actions }
  | .readingPacket =>
      match self.readPacket build input.read with
      | (.ok (some packet), self) => {
          result := .ok none
          connection := { self with state := .processingService (services.call packet) }
          channel
          actions := [.received packet, .called packet] }
      | (.ok none, self) =>
          { result := .ok none, connection := { self with state := .readingPacket }, channel }
      | (.err e, self) => { result := .err e, connection := self, channel }
      | (.panic, self) => { result := .panic, connection := self, channel }
      | (.diverge, self) => { result := .diverge, connection := self, channel }
  | .processingService fut =>
      match input.service with
      | .ok (some res) => {
          result := .ok none
          connection := { self with state := .writingPacket res }
          channel
          actions := [.resolved res] }
      | .ok none =>
          { result := .ok none, connection := { self with state := .processingService fut }, channel }
      | .err e => { result := .err (.service e), connection := self, channel }
      | .panic => { result := .panic, connection := self, channel }
      | .diverge => { result := .diverge, connection := self, channel }
  | .writingPacket res =>
      match writePackets input.others 0 res.packets channel with
      | (.done, channel, actions) =>
          { result := .ok none, connection := { self with state := .readingPacket }, channel, actions }
      | (.disconnect, channel, actions) =>
          { result := .ok (some ()), connection := self, channel, actions }
      | (.closed, channel, actions) =>
          { result := .err (.text "Channel closed"), connection := self, channel, actions }

end Connection

/-- A connection, everything it has done, and what its last poll returned. -/
structure Session (ε F CF : Type) where
  connection : Connection F CF
  trace : List Action := []
  result : Outcome (ConnectionError ε) (Option Unit) := .ok none

namespace Session

variable {F CF ε : Type}

def new (clientId : Uuid) : Session ε F CF := { connection := .new clientId }

/-- One poll, on the channel as it is found then. A future that is ready is not polled again. -/
def poll (build : Build) (services : Services F CF) (self : Session ε F CF)
    (found : OutboundChannel × PollInput ε) : Session ε F CF :=
  match self.result with
  | .ok none =>
      let polled := self.connection.poll build services found.1 found.2
      { connection := polled.connection
        trace := self.trace ++ polled.actions
        result := polled.result }
  | _ => self

def run (build : Build) (services : Services F CF) (self : Session ε F CF)
    (polls : List (OutboundChannel × PollInput ε)) : Session ε F CF :=
  polls.foldl (poll build services) self

end Session

end Aqua
