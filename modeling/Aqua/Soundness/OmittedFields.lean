import Aqua.Proofs.Frame
import Aqua.Proofs.ReasonAndUser
import Aqua.Spec.OmittedFields

/-! # Omitted fields

The decoders of PUBREL and DISCONNECT ask whether the reason code is there, and never whether the property
block is: behind a reason code they read a property length. A packet that ends in its reason code is
therefore read on into the next one.
-/

namespace Aqua

open Wire Wire.Reader

/-- The field of the property is not set; a user property has none. -/
def Closing.Lacks (self : Closing) : ClosingProperty → Prop
  | .sessionExpiryInterval _ => self.sessionExpiryInterval = none
  | .reasonString _ => self.reasonString = none
  | .userProperty _ => True
  | .serverReference _ => self.serverReference = none

private theorem Closing.lacks_empty (property : ClosingProperty) : Closing.Lacks {} property := by
  cases property <;> first | exact rfl | exact trivial

private theorem Closing.Lacks.store {self : Closing} {a b : ClosingProperty} (lacks : self.Lacks b)
    (compatible : a.Compatible b) : (self.store a).Lacks b := by
  cases a <;> cases b <;> first | exact lacks | exact absurd (compatible rfl) (by simp [ClosingProperty.id])

/-- A loop that reads one property into a set that lacks it reads every list that repeats none. -/
private theorem closing_items {σ : Type} {item : σ → FieldReader σ} {closing : σ → Closing}
    {known : ClosingProperty → Prop}
    (reads : ∀ set property, known property → (closing set).Lacks property →
      ∃ next, Reads (item set) property.wire next ∧ closing next = (closing set).store property)
    {properties : List ClosingProperty} (all : ∀ property ∈ properties, known property)
    (once : properties.Pairwise ClosingProperty.Compatible) (set : σ)
    (lacks : ∀ property ∈ properties, (closing set).Lacks property) :
    ∃ next, Items item set (properties.flatMap ClosingProperty.wire) next ∧
      closing next = properties.foldl Closing.store (closing set) := by
  induction properties generalizing set with
  | nil => exact ⟨set, .nil set, rfl⟩
  | cons property rest ih =>
    obtain ⟨own, others⟩ := List.forall_mem_cons.mp all
    obtain ⟨apart, once⟩ := List.pairwise_cons.mp once
    obtain ⟨absent, lacks⟩ := List.forall_mem_cons.mp lacks
    obtain ⟨mid, read, stored⟩ := reads set property own absent
    obtain ⟨next, items, collected⟩ := ih others once mid fun other member => by
      rw [stored]
      exact (lacks other member).store (apart other member)
    refine ⟨next, .cons read (List.cons_ne_nil _ _) items, ?_⟩
    rw [collected, stored, List.foldl_cons]

private theorem pubrel_property_reads (set : Option PubrelProperties) {property : ClosingProperty}
    (fits : property.Fits) (known : property.id = 0x1f ∨ property.id = 0x26) :
    ∃ next, Reads (propertyItem PubrelProperties.readProperty set) property.wire next ∧
      PubrelProperties.closing next = (PubrelProperties.closing set).store property := by
  cases property with
  | reasonString value =>
    exact ⟨_, (propertyItem_reads (PubrelProperties.readReasonString_reads set fits)).1, rfl⟩
  | userProperty value =>
    exact ⟨_, (propertyItem_reads (PubrelProperties.readUserProperty_reads set fits)).1, rfl⟩
  | sessionExpiryInterval value => simp [ClosingProperty.id] at known
  | serverReference value => simp [ClosingProperty.id] at known

private theorem disconnect_property_reads (set : DisconnectProperties) {property : ClosingProperty}
    (fits : property.Fits) (lacks : (DisconnectProperties.closing (some set)).Lacks property) :
    ∃ next, Reads (propertyItem DisconnectProperties.readProperty set) property.wire next ∧
      DisconnectProperties.closing (some next) =
        (DisconnectProperties.closing (some set)).store property := by
  cases property with
  | sessionExpiryInterval value =>
    have fresh : ¬ set.sessionExpiryInterval.isSome = true := by
      rw [show set.sessionExpiryInterval = none from lacks]
      exact Bool.false_ne_true
    have absent : set.readProperty 0x11 = SessionExpiryInterval.tryFrom >>= fun result =>
        pure { set with sessionExpiryInterval := some result } :=
      if_neg fresh
    have read : Reads (set.readProperty 0x11) (be32Bytes value.value)
        { set with sessionExpiryInterval := some value } := by
      rw [absent]
      exact (u32Field_reads SessionExpiryInterval.mk value.value).bind_nil (Reads.pure _)
    exact ⟨_, (propertyItem_reads read).1, rfl⟩
  | reasonString value =>
    have fresh : ¬ set.reasonString.isSome = true := by
      rw [show set.reasonString = none from lacks]
      exact Bool.false_ne_true
    have absent : set.readProperty 0x1f = ReasonString.tryFrom >>= fun result =>
        pure { set with reasonString := some result } :=
      if_neg fresh
    have read : Reads (set.readProperty 0x1f) (putTruncated (stringBytes value.value))
        { set with reasonString := some value } := by
      rw [absent]
      exact (stringField_reads ReasonString.mk fits).bind_nil (Reads.pure _)
    exact ⟨_, (propertyItem_reads read).1, rfl⟩
  | userProperty value =>
    have read : Reads (set.readProperty 0x26)
        (putTruncated (stringBytes value.key) ++ putTruncated (stringBytes value.value))
        { set with userProperties := pushProperty set.userProperties value } :=
      (UserProperty.tryFrom_reads fits.1 fits.2).bind_nil (Reads.pure _)
    exact ⟨_, (propertyItem_reads read).1, rfl⟩
  | serverReference value =>
    have read : Reads (set.readProperty 0x1c) (putTruncated (stringBytes value.value))
        { set with serverReference := some value } :=
      (stringField_reads ServerReference.mk fits).bind_nil (Reads.pure _)
    exact ⟨_, (propertyItem_reads read).1, rfl⟩

private theorem PubrelReasonCode.tryFrom_reads (code : PubrelReasonCode) :
    Reads PubrelReasonCode.tryFrom [code.toByte] code := by
  have first : Reads (indexOr MqttError.invalidFormat) [code.toByte] code.toByte := by
    intro before after
    exact indexOr_eq_ok_iff.mpr ⟨by simp, rfl⟩
  apply first.bind_nil
  cases code <;> exact Reads.pure _

/-- A PUBREL that is longer than its identifier is read to the end of its property block. -/
theorem Pubrel.decodeVariableHeader_reads (id : PacketId) (code : PubrelReasonCode) {block : Bytes}
    {set : Option PubrelProperties} {remainingLength : ℕ}
    (properties : Reads (propertyBlock PubrelProperties.readProperty none) block set)
    (long : remainingLength ≠ 2) :
    Reads (Pubrel.decodeVariableHeader {} remainingLength (some ⟨5⟩)) (be16Bytes id.value ++ code.toByte :: block)
      { packetId := id, reasonCode := some code, pubrelProperties := set } := by
  apply (PacketId.tryFrom_reads id).bind
  rw [if_neg long]
  apply (PubrelReasonCode.tryFrom_reads code).bind
  exact (Reads.pure (⟨5⟩ : ProtocolVersion)).bind (properties.bind_nil (Reads.pure _))

private theorem DisconnectReasonCode.convert_reads (code : DisconnectReasonCode) :
    Reads DisconnectReasonCode.convert [code.byte] code := by
  have first : Reads (indexOr MqttError.invalidFormat) [code.byte] code.byte := by
    intro before after
    exact indexOr_eq_ok_iff.mpr ⟨by simp, rfl⟩
  apply first.bind_nil
  have known : DisconnectReasonCode.ofByte? code.byte = some code := by cases code <;> rfl
  rw [known]
  exact Reads.pure code

namespace ClosingPacket

variable {build : Build} {d next : Decoder} {s : Bytes}

/-- A frame of the packet. -/
structure FrameOf (q : ClosingPacket) (frame : Frame) : Prop where
  first : frame.first = q.firstByte
  body : frame.body = q.body

/-- The packet its first byte starts. -/
def start : ClosingPacket → ControlPacket
  | pubrel _ _ => .pubrel {}
  | disconnect _ => .disconnect {}

private theorem packetOfFirstByte_firstByte (q : ClosingPacket) : packetOfFirstByte q.firstByte = .ok q.start := by
  cases q with
  | pubrel id tail =>
    have known : packetOfFirstByte 0x62 = .ok (.pubrel {}) := by decide
    exact known
  | disconnect tail =>
    have known : packetOfFirstByte 0xe0 = .ok (.disconnect {}) := by decide
    exact known

/-- A PUBREL that ends in its identifier or in its properties. -/
private theorem pubrel_reads {id : PacketId} {tail : Tail PubrelReasonCode} (legal : (pubrel id tail).Legal)
    (whole : ¬ tail.IsReason) :
    ∃ packet, Reads (Pubrel.decodeVariableHeader {} (body (pubrel id tail)).length (some ⟨5⟩))
      (body (pubrel id tail)) packet ∧ (pubrel id tail).Tells (.pubrel packet) := by
  cases tail with
  | omitted =>
    exact ⟨{ packetId := id }, (PacketId.tryFrom_reads id).bind (Reads.pure _), rfl, rfl, rfl⟩
  | reason code => exact absurd trivial whole
  | full code properties =>
    obtain ⟨set, items, told⟩ := closing_items
      (fun set property (known : property.Fits ∧ (property.id = 0x1f ∨ property.id = 0x26)) _ =>
        pubrel_property_reads set known.1 known.2)
      (fun property member => ⟨legal.fits property member, legal.known id _ rfl property member⟩)
      legal.once none fun property _ => Closing.lacks_empty property
    have length : (properties.flatMap ClosingProperty.wire).length < 2 ^ 28 := by
      have := legal.body
      simp only [body, Tail.wire, Tail.block, Tail.properties, List.length_append, List.length_cons] at this
      omega
    have long : (body (pubrel id (.full code properties))).length ≠ 2 := by
      simp only [body, Tail.wire, List.length_append, List.length_cons, be16Bytes_length]
      omega
    exact ⟨_, Pubrel.decodeVariableHeader_reads id code (propertyBlock_reads length items) long, rfl, rfl, told⟩

/-- A DISCONNECT without a body or with properties. -/
private theorem disconnect_reads {tail : Tail DisconnectReasonCode} (legal : (disconnect tail).Legal)
    (whole : ¬ tail.IsReason) :
    ∃ packet, Reads (Disconnect.decodeVariableHeader {} (body (disconnect tail)).length (some ⟨5⟩))
      (body (disconnect tail)) packet ∧ (disconnect tail).Tells (.disconnect packet) := by
  cases tail with
  | omitted => exact ⟨{}, Reads.pure _, rfl, rfl⟩
  | reason code => exact absurd trivial whole
  | full code properties =>
    obtain ⟨set, items, told⟩ := closing_items
      (fun set property (known : property.Fits) lacks => disconnect_property_reads set known lacks)
      legal.fits legal.once {} fun property _ => Closing.lacks_empty property
    have length : (properties.flatMap ClosingProperty.wire).length < 2 ^ 28 := by
      have := legal.body
      simp only [body, Tail.wire, Tail.block, Tail.properties, List.length_append, List.length_cons] at this
      omega
    refine ⟨{ reasonCode := code, disconnectProperties := some set }, ?_, rfl, told⟩
    rw [Disconnect.decodeVariableHeader, if_neg (by simp [body, Tail.wire])]
    apply (DisconnectReasonCode.convert_reads code).bind
    have block : Reads (Disconnect.readProperties ⟨5⟩ none) _ (some set) :=
      (propertyBlock_reads length items).bind_nil (Reads.pure _)
    exact (Reads.pure (⟨5⟩ : ProtocolVersion)).bind (block.bind_nil (Reads.pure _))

/-- What the decoder makes of the body: a packet that tells what was sent. -/
theorem start_reads (q : ClosingPacket) (legal : q.Legal) (whole : ¬ q.IsReason) :
    ∃ packet, Reads (q.start.decodeVariableHeader build q.body.length (some ⟨5⟩)) q.body packet ∧
      q.Tells packet := by
  cases q with
  | pubrel id tail =>
    obtain ⟨packet, read, tells⟩ := pubrel_reads legal whole
    exact ⟨.pubrel packet, read.map, tells⟩
  | disconnect tail =>
    obtain ⟨packet, read, tells⟩ := disconnect_reads legal whole
    exact ⟨.disconnect packet, read.map, tells⟩

private theorem PubrelReasonCode.tryFrom_progresses : Progresses PubrelReasonCode.tryFrom :=
  (indexOr_progresses _).bind fun _ => .ite (.pure _) (.ite (.pure _) (.fail _))

private theorem DisconnectReasonCode.convert_progresses : Progresses DisconnectReasonCode.convert := by
  refine (indexOr_progresses _).bind fun _ => ?_
  split
  · exact .pure _
  · exact .fail _

/-- A PUBREL of three bytes is read past its reason code. -/
private theorem pubrel_reads_on {buf : Bytes} {packet : Pubrel} {size : ℕ}
    (read : Pubrel.decodeVariableHeader {} 3 (some ⟨5⟩) buf 0 = .ok (packet, size)) : 3 < size := by
  obtain ⟨id, mid, identifier, read⟩ := bind_eq_ok_iff.mp read
  obtain ⟨_, identifier, _⟩ := map_eq_ok_iff.mp identifier
  obtain rfl := u16_end identifier
  rw [if_neg (by decide)] at read
  obtain ⟨code, mid, reason, read⟩ := bind_eq_ok_iff.mp read
  have first := (PubrelReasonCode.tryFrom_progresses reason).1
  obtain ⟨version, _, here, read⟩ := bind_eq_ok_iff.mp read
  cases here
  obtain ⟨set, last, block, here⟩ := bind_eq_ok_iff.mp read
  cases here
  have moved := (propertyBlock_progresses PubrelProperties.readProperty_lawful none block).1
  omega

/-- A DISCONNECT of one byte is read past it. -/
private theorem disconnect_reads_on {buf : Bytes} {packet : Disconnect} {size : ℕ}
    (read : Disconnect.decodeVariableHeader {} 1 (some ⟨5⟩) buf 0 = .ok (packet, size)) : 1 < size := by
  rw [Disconnect.decodeVariableHeader, if_neg (by decide)] at read
  obtain ⟨code, mid, reason, read⟩ := bind_eq_ok_iff.mp read
  have first := (DisconnectReasonCode.convert_progresses reason).1
  obtain ⟨version, _, here, read⟩ := bind_eq_ok_iff.mp read
  cases here
  obtain ⟨set, last, block, here⟩ := bind_eq_ok_iff.mp read
  cases here
  obtain ⟨set, last, block, here⟩ := bind_eq_ok_iff.mp block
  cases here
  have moved := (propertyBlock_progresses DisconnectProperties.readProperty_lawful {} block).1
  omega

private theorem Tail.exists_reason {R : Type} {tail : Tail R} (short : tail.IsReason) :
    ∃ code, tail = .reason code := by
  cases tail with
  | reason code => exact ⟨code, rfl⟩
  | _ => exact short.elim

/-- Behind a reason code at least one more byte is read, and what is left of the buffer stays. -/
theorem reads_on {q : ClosingPacket} (short : q.IsReason) {buf : Bytes} {packet : ControlPacket} {size : ℕ}
    (read : q.start.decodeVariableHeader build q.body.length (some ⟨5⟩) buf 0 = .ok (packet, size)) :
    q.body.length < size ∧
      ∀ rest decoded left, packet.decodePayload rest = .ok (decoded, left) → left = rest := by
  cases q with
  | pubrel id tail =>
    obtain ⟨code, rfl⟩ := Tail.exists_reason short
    obtain ⟨p, inner, rfl⟩ := map_eq_ok_iff.mp read
    refine ⟨pubrel_reads_on inner, fun rest decoded left same => ?_⟩
    cases same
    rfl
  | disconnect tail =>
    obtain ⟨code, rfl⟩ := Tail.exists_reason short
    obtain ⟨p, inner, rfl⟩ := map_eq_ok_iff.mp read
    refine ⟨disconnect_reads_on inner, fun rest decoded left same => ?_⟩
    cases same
    rfl

end ClosingPacket

/-- For every PUBREL and DISCONNECT frame of version 5 with legal contents and every suffix that is not
empty, the decoder emits what was sent and leaves the suffix if and only if the packet does not end in its
reason code. -/
theorem omitted_fields_iff (build : Build) {d : Decoder} (done : d.state = .done)
    (version : d.protocolVersion = some ⟨5⟩) {q : ClosingPacket} (legal : q.Legal) {frame : Frame}
    (sent : q.FrameOf frame) {s : Bytes} (suffix : s ≠ []) :
    (∃ packet next, (d.holding (frame.bytes ++ s)).Emits build packet next ∧ q.Tells packet ∧
      next.buf = s) ↔ ¬ q.IsReason := by
  have first : packetOfFirstByte frame.first = .ok q.start := by
    rw [sent.first, q.packetOfFirstByte_firstByte]
  constructor
  · rintro ⟨packet, next, emits, _, left⟩ short
    obtain ⟨start, starts, outcome⟩ := (Decoder.emits_frame_iff done frame s).mp emits
    cases first.symm.trans starts
    obtain ⟨_, headed, size, read, ends⟩ := Decoder.bodyOutcome_eq_some_iff.mp outcome
    simp only [Decoder.afterFixedHeader, version, sent.body] at read ends
    obtain ⟨more, payload⟩ := ClosingPacket.reads_on short read
    have behind : next.buf = (q.body ++ s).drop size := by
      rcases ends with ⟨_, _, rfl⟩ | ⟨_, _, rest, decoded, rfl⟩
      · rfl
      · exact payload _ _ _ decoded
    have lengths := congrArg List.length (behind.symm.trans left)
    have := List.length_pos_iff.mpr suffix
    rw [List.length_drop, List.length_append] at lengths
    omega
  · intro whole
    obtain ⟨packet, read, tells⟩ := q.start_reads legal whole
    rw [← version, ← sent.body] at read
    have body : frame.body = frame.body ++ [] := (List.append_nil _).symm
    have nonempty : frame.body ++ s ≠ [] := List.append_ne_nil_of_right_ne_nil _ suffix
    have emitted := Decoder.frame_emitted done first body read nonempty (.inl ⟨rfl, rfl⟩)
    exact ⟨packet, _, ⟨3, emitted⟩, tells, rfl⟩

/-- A DISCONNECT that asks for the will, and nothing else. -/
def leavingWithWill : ClosingPacket := .disconnect (.reason .disconnectWithWillMessage)

/-- The same with an empty property block. -/
def leavingInFull : ClosingPacket := .disconnect (.full .disconnectWithWillMessage [])

private theorem leavingWithWill_announced : decodeVariableLength [0x01] 0 = .ok (1, 1) := rfl

private theorem leavingInFull_announced : decodeVariableLength [0x02] 0 = .ok (2, 1) := rfl

def leavingWithWillFrame : Frame := ⟨0xe0, [0x01], [0x04], leavingWithWill_announced⟩

def leavingInFullFrame : Frame := ⟨0xe0, [0x02], [0x04, 0x00], leavingInFull_announced⟩

private theorem leaving_legal {q : ClosingPacket} (short : q.body.length < 2 ^ 28) (empty : q.properties = [])
    (other : ∀ id tail, q ≠ .pubrel id tail) : q.Legal where
  body := short
  fits := by rw [empty]; exact List.forall_mem_nil _
  once := by rw [empty]; exact .nil
  known := fun id tail same => absurd same (other id tail)

theorem omitted_fields_iff_leavingInFull :
    (∃ packet next, (({ protocolVersion := some ⟨5⟩ } : Decoder).holding
        (leavingInFullFrame.bytes ++ [0xc0])).Emits ⟨true⟩ packet next ∧ leavingInFull.Tells packet ∧
          next.buf = [0xc0]) ↔ ¬ leavingInFull.IsReason :=
  omitted_fields_iff ⟨true⟩ rfl rfl (leaving_legal (by decide) rfl (by rintro _ _ ⟨⟩)) ⟨rfl, rfl⟩
    (List.cons_ne_nil _ _)

/-- The first byte of the next packet, a PINGREQ, is taken for a property length. -/
theorem leavingWithWill_reads_on :
    ¬ ∀ (q : ClosingPacket) (frame : Frame) (s : Bytes), q.Legal → q.FrameOf frame → s ≠ [] →
      ∃ packet next, (({ protocolVersion := some ⟨5⟩ } : Decoder).holding
        (frame.bytes ++ s)).Emits ⟨true⟩ packet next ∧ q.Tells packet ∧ next.buf = s := by
  intro claim
  have legal : leavingWithWill.Legal := leaving_legal (by decide) rfl (by rintro _ _ ⟨⟩)
  obtain ⟨packet, next, emits, _⟩ :=
    claim leavingWithWill leavingWithWillFrame [0xc0, 0x00] legal ⟨rfl, rfl⟩ (List.cons_ne_nil _ _)
  obtain ⟨start, starts, outcome⟩ := (Decoder.emits_frame_iff rfl leavingWithWillFrame _).mp emits
  cases starts
  cases outcome

end Aqua
