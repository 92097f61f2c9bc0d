import Aqua.Proofs.Awaiting
import Aqua.Proofs.Layout
import Aqua.Soundness.FirstPacket

/-! # Packets in front of the end of the file

A poll reads before it decodes, and decodes one stage of one packet. A read that finds the end of the
file ends the connection at once, whatever is still in the buffer, so the packets of a stream reach the
service only if a read that is not the end is left for every one of their stages, and finds the bytes of
the stage complete.
-/

namespace Aqua

open Wire Runtime

/-- A frame that is decoded into `packet` from its own bytes, with nothing left. -/
def Frame.Exact (build : Build) (protocolVersion : Option ProtocolVersion) (frame : Frame)
    (packet : ControlPacket) : Prop :=
  ∃ start headed size, packetOfFirstByte frame.first = .ok start ∧
    start.decodeVariableHeader build frame.body.length protocolVersion frame.body 0 =
      .ok (headed, size) ∧
    (size = frame.body.length ∧ packet = headed ∨
      size ≠ frame.body.length ∧ headed.decodePayload (frame.body.drop size) = .ok (packet, []))

/-- A packet a client sends, in its frame. -/
structure Request (build : Build) (protocolVersion : Option ProtocolVersion) where
  frame : Frame
  packet : ControlPacket
  exact : frame.Exact build protocolVersion packet

/-- A part of a frame: how many bytes the decoder waits for, and how many it takes. -/
structure Stage where
  enough : ℕ
  size : ℕ

/-- The fixed header, the variable header and, unless that ends the frame, the payload. Where the
variable header ends is read off the length fields and flags. -/
def Frame.stages (protocolVersion : Option ProtocolVersion) (frame : Frame) : List Stage :=
  let header := do
    let start ← (packetOfFirstByte frame.first).value?
    (Layout.variableHeader start frame.body.length protocolVersion frame.body 0).value?
  match header with
  | some (_, size) =>
      ⟨2, 1 + frame.lengthField.length⟩ :: ⟨1, size⟩ ::
        if size = frame.body.length then [] else [⟨1, frame.body.length - size⟩]
  | none => []

/-- Each stage finds, at the first read that leaves it enough to look at, all of its bytes, and the reads
in front of the end of the file suffice for all stages. -/
def Paced : List Stage → Bytes → List SocketRead → Prop
  | [], _, _ => True
  | stage :: stages, buf, reads =>
      Connection.Awaits False stage.enough (fun buf left =>
        stage.size ≤ buf.length ∧ Paced stages (buf.drop stage.size) left) buf reads

namespace Decoder

variable {build : Build} {d next : Decoder} {ready : Option ControlPacket}
  {packets : List ControlPacket} {reads : List SocketRead}

/-- The packets that the polls along these reads take from the decoder. -/
def taken (build : Build) : Decoder → List SocketRead → List ControlPacket
  | _, [] => []
  | d, read :: rest =>
      match Connection.arrived read with
      | none => []
      | some bytes =>
          match (d.feed bytes).pollDecode build with
          | .ok (none, next) => next.taken build rest
          | .ok (some packet, next) => packet :: next.taken build rest
          | .err _ => []
          | .panic => []
          | .diverge => []

/-- What the first poll makes of the decoder, with the reads behind it. -/
def takenAt (build : Build) (d : Decoder) (left : List SocketRead) : List ControlPacket :=
  match d.pollDecode build with
  | .ok (none, next) => next.taken build left
  | .ok (some packet, next) => packet :: next.taken build left
  | .err _ => []
  | .panic => []
  | .diverge => []

private theorem takenAt_ok (polled : d.pollDecode build = .ok (ready, next)) (left : List SocketRead) :
    d.takenAt build left = ready.toList ++ next.taken build left := by
  rw [takenAt, polled]
  cases ready <;> rfl

private theorem takenAt_failed (failed : ∀ ready next, d.pollDecode build ≠ .ok (ready, next))
    (left : List SocketRead) : d.takenAt build left = [] := by
  rw [takenAt]
  cases polled : d.pollDecode build with
  | ok decoded => exact absurd polled (failed _ _)
  | err e => rfl
  | panic => rfl
  | diverge => rfl

private theorem taken_cons {read : SocketRead} {bytes : Bytes} {rest : List SocketRead}
    (arrives : Connection.arrived read = some bytes) :
    d.taken build (read :: rest) = (d.feed bytes).takenAt build rest := by
  rw [taken, arrives]
  rfl

private theorem taken_ends {read : SocketRead} {rest : List SocketRead}
    (ends : Connection.arrived read = none) : d.taken build (read :: rest) = [] := by
  rw [taken, ends]

/-- Packets are taken in front of a read that ends the connection. -/
private theorem taken_driven (some_packet : packets ≠ []) :
    Connection.Driven build (fun d reads => Connection.Closes reads ∧ d.taken build reads = packets)
      False (fun d left => Connection.Closes left ∧ d.takenAt build left = packets) where
  ends {d read rest} ends := by
    refine iff_of_false ?_ id
    rintro ⟨_, same⟩
    exact some_packet (same.symm.trans (taken_ends ends))
  reads {d read bytes rest} arrives := by
    have closes : Connection.Closes (read :: rest) ↔ Connection.Closes rest := by
      simp [Connection.Closes, arrives]
    rw [closes, taken_cons arrives]
  stalls stalled := by
    rw [takenAt, show pollDecode build _ = _ from stalled]
  idle _ := by
    rintro ⟨⟨_, member, _⟩, _⟩
    cases member
  last _ := by
    refine iff_of_false ?_ ?_ <;>
    · rintro ⟨⟨_, member, _⟩, _⟩
      cases member

/-- The next stage: by the poll of the whole stream, at the first read that leaves enough to look at. -/
private theorem taken_stage {whole : Bytes} {count : ℕ} (some_packet : packets ≠ [])
    (stream : d.buf ++ Connection.received reads = whole) (closes : Connection.Closes reads)
    (polled : ¬ (d.holding whole).Stalled build →
      (d.holding whole).pollDecode build = .ok (ready, next) ∧ count ≤ whole.length ∧
        next.buf = whole.drop count) :
    d.taken build reads = packets ↔ Connection.Awaits False d.enough (fun buf left =>
      count ≤ buf.length ∧ ready.toList ++ (next.holding (buf.drop count)).taken build left = packets)
        d.buf reads := by
  refine (and_iff_right closes).symm.trans (((taken_driven some_packet).iff_awaits d reads).trans ?_)
  refine Connection.Awaits.congr fun buf left later long => ?_
  rw [and_iff_right (later.closes closes)]
  have shorter : buf <+: whole := ⟨_, later.stream.trans stream⟩
  have enough : ¬ (d.holding buf).Stalled build := by
    rw [stalled_iff_enough]
    exact Nat.not_lt.mpr long
  have moves : ¬ (d.holding whole).Stalled build := by
    rw [stalled_iff_enough]
    exact Nat.not_lt.mpr (long.trans shorter.length_le)
  obtain ⟨polled, within, behind⟩ := polled moves
  by_cases inside : count ≤ buf.length
  · have polled' := pollDecode_prefix polled moves within behind shorter enough inside
    rw [and_iff_right inside]
    exact iff_of_eq (congrArg (· = packets) (takenAt_ok polled' left))
  · refine iff_of_false (fun same => ?_) fun found => inside found.1
    have failed : (d.holding buf).takenAt build left = [] := takenAt_failed
      (fun _ _ => pollDecode_prefix_cut polled moves within behind shorter enough (by omega)) left
    exact some_packet (same.symm.trans failed)

/-- What the stages behind this one are to show: they are paced if and only if the packets left are
taken from the bytes left. -/
def Settled (build : Build) (protocolVersion : Option ProtocolVersion) (after : Bytes)
    (packets : List ControlPacket) (stages : List Stage) : Prop :=
  ∀ (d : Decoder) (reads : List SocketRead), d.state = .done → d.protocolVersion = protocolVersion →
    d.buf ++ Connection.received reads = after → Connection.Closes reads →
      (d.taken build reads = packets ↔ Paced stages d.buf reads)

variable {after : Bytes} {stages : List Stage} {packet : ControlPacket}

/-- Behind a stage the bytes left start with those of the next stage. -/
private theorem later_stream {buf final part : Bytes} {left : List SocketRead}
    (later : Connection.Later buf reads final left)
    (stream : buf ++ Connection.received reads = part ++ after) (inside : part.length ≤ final.length) :
    final.drop part.length ++ Connection.received left = after := by
  rw [← List.drop_append_of_le_length inside, later.stream, stream, List.drop_left]

private theorem taken_payload (settled : Settled build d.protocolVersion after packets stages)
    (state : d.state = .variableHeaderDecoded) {payload : Bytes} (nonempty : payload ≠ [])
    (decoded : d.tmpPacket.decodePayload payload = .ok (packet, []))
    (stream : d.buf ++ Connection.received reads = payload ++ after)
    (closes : Connection.Closes reads) :
    d.taken build reads = packet :: packets ↔ Paced (⟨1, payload.length⟩ :: stages) d.buf reads := by
  have one : d.enough = 1 := by rw [enough, state, if_neg DecoderState.noConfusion]
  obtain ⟨count, left, takes⟩ := ControlPacket.decodePayload_takes decoded
  obtain rfl : count = payload.length :=
    Nat.le_antisymm takes.within (List.drop_eq_nil_iff.mp left.symm)
  have agree : (payload ++ after).take payload.length = payload.take payload.length := by
    rw [List.take_left, List.take_length]
  have whole := takes.decodes agree
  rw [List.drop_left] at whole
  have polled : (d.holding (payload ++ after)).pollDecode build =
      .ok (some packet, d.afterPacket d.remainLengthCounter after) := by
    have step : (d.holding (payload ++ after)).pollDecode build = _ :=
      pollDecode_variableHeaderDecoded (d := d.holding (payload ++ after)) state
        (List.append_ne_nil_of_left_ne_nil nonempty after)
    refine step.trans ?_
    change (d.tmpPacket.decodePayload (payload ++ after) >>= _) = _
    rw [whole]
    rfl
  have found := taken_stage (List.cons_ne_nil packet packets) stream closes fun _ =>
    ⟨polled, List.length_append ▸ Nat.le_add_right _ _, List.drop_left.symm⟩
  rw [one] at found
  refine found.trans (Connection.Awaits.congr fun buf left later _ => and_congr_right fun inside => ?_)
  rw [Option.toList_some, List.singleton_append, List.cons.injEq, and_iff_right rfl]
  exact settled _ left rfl rfl (later_stream later stream inside) (later.closes closes)

private theorem taken_variableHeader (settled : Settled build d.protocolVersion after packets stages)
    (state : d.state = .fixedHeaderDecoded) (fresh : d.remainLengthCounter = 0) {body : Bytes}
    {headed : ControlPacket} {size : ℕ} (announced : d.remainingLength = body.length)
    (header : d.tmpPacket.decodeVariableHeader build body.length d.protocolVersion body 0 =
      .ok (headed, size))
    (ends : size = body.length ∧ packet = headed ∨
      size ≠ body.length ∧ headed.decodePayload (body.drop size) = .ok (packet, []))
    (stream : d.buf ++ Connection.received reads = body ++ after)
    (closes : Connection.Closes reads) :
    d.taken build reads = packet :: packets ↔
      Paced (⟨1, size⟩ :: ((if size = body.length then [] else [⟨1, body.length - size⟩]) ++ stages))
        d.buf reads := by
  have one : d.enough = 1 := by rw [enough, state, if_neg DecoderState.noConfusion]
  have lawful := d.tmpPacket.decodeVariableHeader_lawful build body.length d.protocolVersion
  have within : size ≤ body.length := lawful.within header (Nat.zero_le _)
  have within' : size ≤ (body ++ after).length := by
    rw [List.length_append]
    omega
  have header' := lawful.stable header
    (show (body ++ after).take size = _ from List.take_append_of_le_length within)
  have polled (moves : ¬ (d.holding (body ++ after)).Stalled build) :
      (d.holding (body ++ after)).pollDecode build = .ok (if size = body.length then
        (some headed, d.afterPacket size ((body ++ after).drop size))
      else (none, d.afterVariableHeader headed size ((body ++ after).drop size))) := by
    have step : (d.holding (body ++ after)).pollDecode build = _ :=
      pollDecode_fixedHeaderDecoded (d := d.holding (body ++ after)) state fresh
        (not_stalled_iff.mp moves).1
    refine step.trans ?_
    change (d.tmpPacket.decodeVariableHeader build d.remainingLength d.protocolVersion (body ++ after) 0 >>=
      _) = _
    rw [announced, header']
    simp only [Outcome.ok_bind, holding_buf, show (d.holding (body ++ after)).remainingLength =
      body.length from announced]
    split <;> rfl
  rcases ends with ⟨rfl, rfl⟩ | ⟨partly, decoded⟩
  · have found := taken_stage (List.cons_ne_nil packet packets) stream closes fun moves =>
      ⟨(polled moves).trans (congrArg Outcome.ok (if_pos rfl)), within', rfl⟩
    rw [one] at found
    rw [if_pos rfl]
    refine found.trans (Connection.Awaits.congr fun buf left later _ => and_congr_right fun inside => ?_)
    rw [Option.toList_some, List.singleton_append, List.cons.injEq, and_iff_right rfl]
    exact settled _ left rfl rfl (later_stream later stream inside) (later.closes closes)
  · have found := taken_stage (List.cons_ne_nil packet packets) stream closes fun moves =>
      ⟨(polled moves).trans (congrArg Outcome.ok (if_neg partly)), within', rfl⟩
    rw [one] at found
    rw [if_neg partly]
    refine found.trans (Connection.Awaits.congr fun buf left later _ => and_congr_right fun inside => ?_)
    have nonempty : body.drop size ≠ [] := by
      rw [ne_eq, List.drop_eq_nil_iff]
      omega
    have behind : buf.drop size ++ Connection.received left = body.drop size ++ after := by
      rw [← List.drop_append_of_le_length inside, later.stream, stream,
        List.drop_append_of_le_length within]
    rw [Option.toList_none, List.nil_append, ← List.length_drop]
    exact taken_payload (d := (d.afterVariableHeader headed size _).holding (buf.drop size)) settled rfl
      nonempty decoded behind (later.closes closes)

private theorem taken_frame {frame : Frame} (settled : Settled build d.protocolVersion after packets stages)
    (exact_ : frame.Exact build d.protocolVersion packet) (done : d.state = .done)
    (stream : d.buf ++ Connection.received reads = frame.bytes ++ after)
    (closes : Connection.Closes reads) :
    d.taken build reads = packet :: packets ↔
      Paced (frame.stages d.protocolVersion ++ stages) d.buf reads := by
  obtain ⟨start, headed, size, kind, header, ends⟩ := exact_
  have two : d.enough = 2 := by rw [enough, if_pos done]
  obtain ⟨_, layout, _⟩ := start.decodeVariableHeader_spans build _ _ header
  have known : frame.stages d.protocolVersion = ⟨2, 1 + frame.lengthField.length⟩ :: ⟨1, size⟩ ::
      if size = frame.body.length then [] else [⟨1, frame.body.length - size⟩] := by
    simp only [Frame.stages, kind, layout, Outcome.value?_ok, Option.bind_eq_bind, Option.bind_some]
  have polled : (d.holding (frame.bytes ++ after)).pollDecode build = _ :=
    pollDecode_frame done frame after
  rw [kind, Outcome.ok_bind] at polled
  have within : 1 + frame.lengthField.length ≤ (frame.bytes ++ after).length := by
    simp only [Frame.bytes, List.length_cons, List.length_append]
    omega
  have found := taken_stage (List.cons_ne_nil packet packets) stream closes fun _ =>
    ⟨polled, within, (frame.drop_fixedHeader after).symm⟩
  rw [two] at found
  rw [known]
  refine found.trans (Connection.Awaits.congr fun buf left later _ => and_congr_right fun inside => ?_)
  have behind : buf.drop (1 + frame.lengthField.length) ++ Connection.received left =
      frame.body ++ after := by
    rw [← List.drop_append_of_le_length inside, later.stream, stream, frame.drop_fixedHeader]
  rw [Option.toList_none, List.nil_append]
  exact taken_variableHeader (d := (d.afterFixedHeader start frame.body.length _).holding _) settled rfl
    rfl rfl header ends behind (later.closes closes)

/-- Without bytes nothing is taken. -/
private theorem taken_nothing (empty : d.buf = []) (reads : List SocketRead)
    (nothing : Connection.received reads = []) : d.taken build reads = [] := by
  induction reads generalizing d with
  | nil => rfl
  | cons read rest ih =>
    unfold Connection.received at nothing
    cases arrives : Connection.arrived read with
    | none => exact taken_ends arrives
    | some bytes =>
      rw [arrives] at nothing
      obtain ⟨rfl, nothing⟩ := List.append_eq_nil_iff.mp nothing
      have still : (d.feed []).buf = [] := by simp only [feed, List.append_nil, empty]
      rw [taken_cons arrives, takenAt_ok (pollDecode_empty still)]
      exact ih still nothing

variable {protocolVersion : Option ProtocolVersion}

/-- A stream of requests, by induction over the requests. -/
theorem taken_requests (requests : List (Request build protocolVersion)) :
    Settled build protocolVersion (requests.flatMap fun request => request.frame.bytes)
      (requests.map Request.packet)
      (requests.flatMap fun request => request.frame.stages protocolVersion) := by
  induction requests with
  | nil =>
    intro d reads done version stream closes
    obtain ⟨empty, nothing⟩ := List.append_eq_nil_iff.mp stream
    exact iff_of_true (taken_nothing empty reads nothing) trivial
  | cons request requests ih =>
    intro d reads done version stream closes
    subst version
    exact taken_frame ih request.exact done stream closes

/-- The polls along these reads end with one that fails. -/
def Stops (build : Build) : Decoder → List SocketRead → Prop
  | _, [] => False
  | d, read :: rest =>
      match Connection.arrived read with
      | none => True
      | some bytes =>
          match (d.feed bytes).pollDecode build with
          | .ok (_, next) => next.Stops build rest
          | _ => True

/-- Reads behind the failure are not read. -/
private theorem taken_of_stops {d : Decoder} (stops : d.Stops build reads) (more : List SocketRead) :
    d.taken build (reads ++ more) = d.taken build reads := by
  induction reads generalizing d with
  | nil => exact absurd stops id
  | cons read rest ih =>
    rw [Stops] at stops
    rw [List.cons_append]
    cases arrives : Connection.arrived read with
    | none => rw [taken_ends arrives, taken_ends arrives]
    | some bytes =>
      rw [taken_cons arrives, taken_cons arrives]
      cases polled : (d.feed bytes).pollDecode build with
      | ok decoded =>
        simp only [arrives, polled] at stops
        rw [takenAt_ok polled, takenAt_ok polled, ih stops]
      | _ => simp only [takenAt, polled]

end Decoder

variable {F CF ε : Type} {build : Build} {services : Services F CF}

def Action.call : Action → Option ControlPacket
  | .called packet => some packet
  | _ => none

/-- The packets the service was called with. -/
def Session.calls (session : Session ε F CF) : List ControlPacket :=
  session.trace.filterMap Action.call

/-- The reads of the polls that read a packet. -/
def Session.reads (build : Build) (services : Services F CF) (session : Session ε F CF) :
    List (OutboundChannel × PollInput ε) → List SocketRead
  | [] => []
  | found :: rest =>
      let later := (session.poll build services found).reads build services rest
      match session.result, session.connection.state with
      | .ok none, .readingPacket => found.2.read :: later
      | _, _ => later

/-- A poll that finds the channel open, and the service pending or with a response that does not end
the connection. -/
structure PollInput.Serves (found : OutboundChannel × PollInput ε) : Prop where
  open_ : found.1.closed = false
  others : ∀ place, ChannelOp.close ∉ found.2.others place
  completes : ∃ ready, found.2.service = .ok ready ∧
    ∀ res ∈ ready, ∀ disconnect, ControlPacket.disconnect disconnect ∉ res.packets

/-- Nothing but closing it closes a channel. -/
private theorem open_of_others {channel : OutboundChannel} (open_ : channel.closed = false)
    {ops : List ChannelOp} (others : ChannelOp.close ∉ ops) :
    (ops.foldl ChannelOp.apply channel).closed = false := by
  refine List.foldlRecOn (motive := fun channel : OutboundChannel => channel.closed = false) ops _
    open_ fun channel open_ op member => ?_
  cases op with
  | take => exact open_
  | close => exact absurd member others
  | send packet =>
    cases sent : channel.trySend packet with
    | ok next =>
      obtain ⟨_, _, rfl⟩ := Channel.trySend_eq_ok_iff.mp sent
      rw [ChannelOp.apply, Channel.offer, sent]
      exact open_
    | error e =>
      rw [ChannelOp.apply, Channel.offer, sent]
      exact open_

/-- A response without DISCONNECT is written to an open channel to its end. -/
private theorem writePackets_done {others : ℕ → List ChannelOp} (quiet : ∀ place, .close ∉ others place)
    (place : ℕ) (packets : List ControlPacket) (channel : OutboundChannel)
    (continues : ∀ disconnect, ControlPacket.disconnect disconnect ∉ packets)
    (open_ : channel.closed = false) :
    ∃ final actions, Connection.writePackets others place packets channel = (.done, final, actions) ∧
      actions.filterMap Action.call = [] := by
  induction place, packets, channel using Connection.writePackets.induct others with
  | case1 place channel => exact ⟨channel, [], rfl, rfl⟩
  | case2 place p rest channel => exact absurd List.mem_cons_self (continues p)
  | case3 place rest channel ih =>
    exact ih (fun p member => continues p (List.mem_cons_of_mem _ member)) open_
  | case4 place packet rest channel not_disconnect not_noop found next sent ends final actions writes
      ih =>
    obtain ⟨_, _, rfl⟩ := Channel.trySend_eq_ok_iff.mp sent
    obtain ⟨_, _, whole, silent⟩ := ih (fun p member => continues p (List.mem_cons_of_mem _ member))
      (open_of_others open_ (quiet place))
    cases writes.symm.trans whole
    refine ⟨final, .offered packet found :: actions, ?_, silent⟩
    rw [Connection.writePackets.eq_4 _ _ _ _ _ not_disconnect not_noop, sent]
    simp only [writes]
    rfl
  | case5 place packet rest channel not_disconnect not_noop found message full ends final actions
      writes ih =>
    obtain ⟨_, _, whole, silent⟩ := ih (fun p member => continues p (List.mem_cons_of_mem _ member))
      (open_of_others open_ (quiet place))
    cases writes.symm.trans whole
    refine ⟨final, .offered packet found :: actions, ?_, silent⟩
    rw [Connection.writePackets.eq_4 _ _ _ _ _ not_disconnect not_noop, full]
    simp only [found, writes]
  | case6 place packet rest channel not_disconnect not_noop found message closed =>
    have gone := Channel.closed_of_trySend closed
    cases gone.symm.trans (open_of_others open_ (quiet place))

/-- Behind the CONNACK, and no DISCONNECT is about to be written. -/
def Connection.Serving (connection : Connection F CF) : Prop :=
  match connection.state with
  | .readingPacket => True
  | .processingService _ => True
  | .writingPacket res => ∀ disconnect, ControlPacket.disconnect disconnect ∉ res.packets
  | _ => False

private theorem Session.reads_of_ended {session : Session ε F CF} (ended : session.result ≠ .ok none)
    (polls : List (OutboundChannel × PollInput ε)) : session.reads build services polls = [] := by
  induction polls with
  | nil => rfl
  | cons found polls ih =>
    have same : session.poll build services found = session := run_of_ended ended [found]
    rw [reads, same, ih]
    split
    · next pending _ => exact absurd pending ended
    · rfl

/-- A read behind which the connection is over is the last one. -/
private theorem Session.calls_of_ended {next : Session ε F CF} (ended : next.result ≠ .ok none)
    {decoder : Decoder} {read : SocketRead} (nothing : decoder.taken build [read] = [])
    (stops : decoder.Stops build [read]) (polls : List (OutboundChannel × PollInput ε)) :
    let reads := read :: next.reads build services polls
    (next.run build services polls).calls = next.calls ++ decoder.taken build reads ∧
      ((next.run build services polls).result ≠ .ok none → decoder.Stops build reads) := by
  intro reads
  have only : reads = [read] := congrArg (read :: ·) (reads_of_ended ended polls)
  rw [only, nothing, run_of_ended ended, List.append_nil]
  exact ⟨rfl, fun _ => stops⟩

private theorem Session.calls_append (connection : Connection F CF) (trace actions : List Action)
    (result : Outcome (ConnectionError ε) (Option Unit)) :
    (⟨connection, trace ++ actions, result⟩ : Session ε F CF).calls =
      trace.filterMap Action.call ++ actions.filterMap Action.call :=
  List.filterMap_append

/-- What a run calls the service with is what the polls that read take from the decoder, and the run
ends only where those polls fail. -/
theorem Session.run_calls {session : Session ε F CF} (pending : session.result = .ok none)
    (serving : session.connection.Serving) (polls : List (OutboundChannel × PollInput ε))
    (serves : ∀ found ∈ polls, PollInput.Serves found) :
    let reads := session.reads build services polls
    let decoder := session.connection.decoder
    (session.run build services polls).calls = session.calls ++ decoder.taken build reads ∧
      ((session.run build services polls).result ≠ .ok none → decoder.Stops build reads) := by
  induction polls generalizing session with
  | nil => exact ⟨(List.append_nil _).symm, fun ended => absurd pending ended⟩
  | cons found polls ih =>
    have serves' := fun later member => serves later (List.mem_cons_of_mem found member)
    have now := serves found List.mem_cons_self
    obtain ⟨⟨clientId, state, decoder, version⟩, trace, result⟩ := session
    cases pending
    cases state with
    | preConnection => exact absurd serving id
    | processingConnect fut => exact absurd serving id
    | responseConnect res => exact absurd serving id
    | readingPacket =>
      let waiting : Connection F CF := ⟨clientId, .preConnection, decoder, version⟩
      simp only [run_cons, reads, poll, Connection.poll]
      cases arrives : Connection.arrived found.2.read with
      | none =>
        obtain ⟨error, ended⟩ := waiting.readPacket_ends (ε := ε) build arrives
        simp only [waiting] at ended
        simp only [ended, List.append_nil]
        exact calls_of_ended (by rintro ⟨⟩) (Decoder.taken_ends arrives)
          (by simp only [Decoder.Stops, arrives]) polls
      | some bytes =>
        have read : (waiting.readPacket build found.2.read :
          Outcome (ConnectionError ε) (Option ControlPacket) × _) = _ := waiting.readPacket_eq arrives
        simp only [waiting] at read
        simp only [read]
        cases polled : (decoder.feed bytes).pollDecode build with
        | ok decoded =>
          obtain ⟨ready, next⟩ := decoded
          rw [Decoder.taken_cons arrives, Decoder.takenAt_ok polled]
          simp only [Decoder.Stops, arrives, polled]
          cases ready with
          | none =>
            simp only [List.append_nil]
            exact ih rfl trivial serves'
          | some packet =>
            have later := @ih ⟨⟨clientId, .processingService (services.call packet), next, version⟩,
              trace ++ [.received packet, .called packet], .ok none⟩ rfl trivial serves'
            refine ⟨later.1.trans ?_, later.2⟩
            rw [calls_append, List.append_assoc]
            rfl
        | _ =>
          simp only [List.append_nil]
          exact calls_of_ended (by rintro ⟨⟩)
            (by rw [Decoder.taken_cons arrives, Decoder.takenAt, polled])
            (by simp only [Decoder.Stops, arrives, polled]) polls
    | processingService fut =>
      obtain ⟨ready, resolved, continues⟩ := now.completes
      simp only [run_cons, reads, poll, Connection.poll, resolved]
      cases ready with
      | none =>
        simp only [List.append_nil]
        exact ih rfl trivial serves'
      | some res =>
        have later := @ih ⟨⟨clientId, .writingPacket res, decoder, version⟩,
          trace ++ [.resolved res], .ok none⟩ rfl (continues res rfl) serves'
        refine ⟨later.1.trans ?_, later.2⟩
        rw [calls_append]
        exact congrArg (· ++ _) (List.append_nil _)
    | writingPacket res =>
      obtain ⟨final, actions, wrote, silent⟩ :=
        writePackets_done now.others 0 res.packets found.1 serving now.open_
      simp only [run_cons, reads, poll, Connection.poll, wrote]
      have later := @ih ⟨⟨clientId, .readingPacket, decoder, version⟩, trace ++ actions, .ok none⟩ rfl
        trivial serves'
      refine ⟨later.1.trans ?_, later.2⟩
      rw [calls_append, silent, List.append_nil]
      rfl

/-- For every established connection, every stream of complete requests, every way in which the stream
and the end behind it are read, and every run along these reads in which the services complete: when the
run is over, the service has been called with all requests in order if and only if the reads are paced. -/
theorem end_of_file_iff (build : Build) (services : Services F CF) (session : Session ε F CF)
    (pending : session.result = .ok none) (reading : session.connection.state = .readingPacket)
    (done : session.connection.decoder.state = .done)
    (requests : List (Request build session.connection.decoder.protocolVersion))
    (reads : List SocketRead) (closes : Connection.Closes reads)
    (stream : session.connection.decoder.buf ++ Connection.received reads =
      requests.flatMap fun request => request.frame.bytes)
    (polls : List (OutboundChannel × PollInput ε)) (serves : ∀ found ∈ polls, PollInput.Serves found)
    (follows : session.reads build services polls <+: reads)
    (ready : (session.run build services polls).result ≠ .ok none) :
    (session.run build services polls).calls = session.calls ++ requests.map Request.packet ↔
      Paced (requests.flatMap fun request => request.frame.stages session.connection.decoder.protocolVersion)
        session.connection.decoder.buf reads := by
  have serving : session.connection.Serving := by
    rw [Connection.Serving, reading]
    trivial
  obtain ⟨calls, stops⟩ := session.run_calls pending serving polls serves
  obtain ⟨rest, rfl⟩ := follows
  rw [calls, List.append_right_inj, ← Decoder.taken_of_stops (stops ready) rest]
  exact Decoder.taken_requests requests _ _ done rfl stream closes

/-- A CONNECT of version 4. -/
def greeting : Bytes :=
  [0x10, 0x0d, 0x00, 0x04, 0x4d, 0x51, 0x54, 0x54, 0x04, 0x02, 0x00, 0x3c, 0x00, 0x01, 0x61]

/-- A connection behind its CONNECT and CONNACK. -/
def established : Session Unit Unit Unit :=
  (Session.new ⟨0⟩).run ⟨true⟩ noServices
    [(.new, { read := .ready greeting }), PollInput.idle .new, PollInput.idle .new,
      (.new, { connect := .ok (some {}) }), PollInput.idle .new]

/-- A PUBACK of that client. -/
def acknowledged : Request ⟨true⟩ established.connection.decoder.protocolVersion where
  frame := { first := 0b01000000, lengthField := [2], body := [0, 1], announced := rfl }
  packet := .puback { packetId := ⟨1⟩, protocolVersion := ⟨4⟩ }
  exact := ⟨_, _, _, rfl, rfl, .inl ⟨rfl, rfl⟩⟩

/-- The reads of that PUBACK, one poll in front of the end of the file. -/
def patientReads : List SocketRead := [.ready acknowledged.frame.bytes, .pending, .ready []]

/-- They are read by the polls around one call of the service. -/
def patientPolls : List (OutboundChannel × PollInput Unit) :=
  [(.new, { read := .ready acknowledged.frame.bytes }), PollInput.idle .new,
    (.new, { service := .ok (some {}) }), PollInput.idle .new, (.new, { read := .ready [] })]

private theorem patientPolls_serve : ∀ found ∈ patientPolls, PollInput.Serves found := by
  have quiet : ∀ place : ℕ, ChannelOp.close ∉ (fun _ => [] : ℕ → List ChannelOp) place :=
    fun _ => List.not_mem_nil
  intro found member
  simp only [patientPolls, List.mem_cons, List.not_mem_nil, or_false] at member
  rcases member with rfl | rfl | rfl | rfl | rfl
  · exact ⟨rfl, quiet, none, rfl, by simp⟩
  · exact ⟨rfl, quiet, none, rfl, by simp⟩
  · exact ⟨rfl, quiet, some {}, rfl, by simp⟩
  · exact ⟨rfl, quiet, none, rfl, by simp⟩
  · exact ⟨rfl, quiet, none, rfl, by simp⟩

theorem end_of_file_iff_patient :
    (established.run ⟨true⟩ noServices patientPolls).calls =
      established.calls ++ [acknowledged.packet] :=
  (end_of_file_iff ⟨true⟩ noServices established rfl rfl rfl [acknowledged] patientReads
    ⟨.ready [], by simp [patientReads], rfl⟩ rfl patientPolls patientPolls_serve ⟨[], rfl⟩
    (by rintro ⟨⟩)).mpr ⟨by decide, by decide, trivial⟩

/-- With the end of the file at the next poll, the PUBACK is still in the buffer. -/
theorem acknowledged_lost :
    let polls : List (OutboundChannel × PollInput Unit) :=
      [(.new, { read := .ready acknowledged.frame.bytes }), (.new, { read := .ready [] })]
    let session := established.run ⟨true⟩ noServices polls
    established.reads ⟨true⟩ noServices polls = [.ready acknowledged.frame.bytes, .ready []] ∧
      session.result ≠ .ok none ∧ session.connection.decoder.buf = acknowledged.frame.body ∧
      session.calls ≠ established.calls ++ [acknowledged.packet] := by
  refine ⟨rfl, (by rintro ⟨⟩), rfl, ?_⟩
  have none : (established.run ⟨true⟩ noServices [(.new, { read := .ready acknowledged.frame.bytes }),
    (.new, { read := .ready [] })]).calls = [] := rfl
  have nothing : established.calls = [] := rfl
  rw [none, nothing]
  exact (List.cons_ne_nil _ _).symm

end Aqua
