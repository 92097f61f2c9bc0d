import Aqua.Model.Acknowledgement
import Aqua.Model.Response

/-! # The encoder

The dispatch over packet types, the one-shot `encode_all` and the state machine of `poll_encode`.
-/

namespace Aqua

open Wire

def ControlPacket.encodeHeader : ControlPacket → Result Bytes
  | .connack p => p.encodeHeader
  | .pingresp p => p.encodeHeader
  | .suback p => p.encodeHeader
  | .puback p => p.encodeHeader
  | .pubrec p => p.encodeHeader
  | .pubrel p => p.encodeHeader
  | .pubcomp p => p.encodeHeader
  | .unsuback p => p.encodeHeader
  | .publish p => p.encodeHeader
  | _ => .err .notImplemented

def ControlPacket.encodePayloadChunk : ControlPacket → Result (Option Bytes)
  | .connack p => p.encodePayloadChunk
  | .pingresp p => p.encodePayloadChunk
  | .suback p => p.encodePayloadChunk
  | .puback p => p.encodePayloadChunk
  | .pubrec p => p.encodePayloadChunk
  | .pubrel p => p.encodePayloadChunk
  | .pubcomp p => p.encodePayloadChunk
  | .unsuback p => p.encodePayloadChunk
  | .publish p => p.encodePayloadChunk
  | _ => .err .notImplemented

/-- The fixed header and the variable header are written together, the payload in chunks. -/
inductive EncodeState where
  | header
  | payload
  | done
deriving DecidableEq

structure Encoder where
  state : EncodeState := .header
deriving DecidableEq

namespace Encoder

def new : Encoder := {}

/-- The bytes `encode_all` appends to its buffer. -/
def encodeAll (packet : ControlPacket) : Result Bytes := do
  let fixedHeader ← packet.encodeHeader
  let payload ← packet.encodePayloadChunk
  pure (fixedHeader ++ payload.getD [])

/-- One poll: `some ()` is `Poll::Ready(Ok(Some(())))`, `none` is `Poll::Ready(Ok(None))`. Besides it the encoder
and the buffer. -/
def pollEncode (self : Encoder) (packet : ControlPacket) (buffer : Bytes) :
    Result (Option Unit × Encoder × Bytes) :=
  match self.state with
  | .header => do
      let fixedHeader ← packet.encodeHeader
      pure (some (), { self with state := .payload }, buffer ++ fixedHeader)
  | .payload => do
      match ← packet.encodePayloadChunk with
      | some chunk => pure (some (), self, buffer ++ chunk)
      -- a packet without a payload, such as CONNACK
      | none => pure (none, { self with state := .done }, buffer)
  | .done => .ok (none, self, buffer)

end Encoder

end Aqua
