import Aqua.Model.Encoder
import Aqua.Model.SessionManager

/-! # The writer of a connection

`spawn_writer` starts a task at the end of the outbound channel. It takes one packet at a time, encodes it,
and hands the bytes to the socket, which takes as many of them at a time as it likes. The task is over when a
packet cannot be encoded, when the socket fails or takes nothing, and, behind a shutdown, when the channel is
empty and has no sender left; it then drops the receiver of the channel.
-/

namespace Aqua

open Wire Runtime

/-- What `write_buf` gives. -/
inductive SocketWrite where
  | wrote (count : ℕ)
  | failed
deriving DecidableEq

/-- How a writer came to its end. -/
inductive WriterEnd where
  | encodeError
  | panicked
  | diverged
  | closedDuringWrite
  | writeError
  | shutdown
deriving DecidableEq

/-- The bytes still to be written, the bytes the socket has taken, and whether the task is over. -/
structure Writer where
  writeBuffer : Bytes := []
  written : Bytes := []
  ended : Option WriterEnd := none
deriving DecidableEq

namespace Writer

def new : Writer := {}

/-- The loop is in front of `rx.recv()`. -/
def Waits (self : Writer) : Prop := self.ended = none ∧ self.writeBuffer = []

/-- The loop is in front of `write_buf`. -/
def Writes (self : Writer) : Prop := self.ended = none ∧ self.writeBuffer ≠ []

/-- A packet was received. -/
def encode (self : Writer) (packet : ControlPacket) : Writer :=
  match Encoder.encodeAll packet with
  | .ok bytes => { self with writeBuffer := self.writeBuffer ++ bytes }
  | .err _ => { self with ended := some .encodeError }
  | .panic => { self with ended := some .panicked }
  | .diverge => { self with ended := some .diverged }

/-- The socket was given the buffer. -/
def write (self : Writer) : SocketWrite → Writer
  | .wrote 0 => { self with ended := some .closedDuringWrite }
  | .wrote count => {
      self with
      writeBuffer := self.writeBuffer.drop count
      written := self.written ++ self.writeBuffer.take count }
  | .failed => { self with ended := some .writeError }

/-- There was nothing to receive any more. -/
def shutdown (self : Writer) : Writer := { self with ended := some .shutdown }

end Writer

/-- The channel of a connection and the writer at its end. -/
structure Line where
  channel : OutboundChannel := .new
  writer : Writer := .new

namespace Line

def new : Line := {}

/-- A writer that is over drops its receiver. -/
def withWriter (self : Line) (writer : Writer) : Line where
  channel := if writer.ended = none then self.channel else self.channel.close
  writer := writer

def offer (self : Line) (packet : ControlPacket) : Line :=
  { self with channel := self.channel.offer packet }

def receive (self : Line) : Line :=
  match self.channel.queue with
  | packet :: _ => { self with channel := self.channel.take }.withWriter (self.writer.encode packet)
  | [] => self

def write (self : Line) (result : SocketWrite) : Line := self.withWriter (self.writer.write result)

def shutdown (self : Line) : Line := self.withWriter self.writer.shutdown

/-- What the writer does, and the sends in between. -/
inductive Event where
  | offer (packet : ControlPacket)
  | receive
  | write (result : SocketWrite)
  | shutdown

inductive Step (self : Line) : Event → Line → Prop
  | offer (packet : ControlPacket) : Step self (.offer packet) (self.offer packet)
  | receive (waits : self.writer.Waits) (queued : self.channel.queue ≠ []) :
      Step self .receive self.receive
  | write (writes : self.writer.Writes) (result : SocketWrite) :
      Step self (.write result) (self.write result)
  | shutdown (waits : self.writer.Waits) (empty : self.channel.queue = []) :
      Step self .shutdown self.shutdown

end Line

end Aqua
