import Aqua.Proofs.WillProperties

/-! # The variable header of a CONNECT

Which bytes the header decoder accepts, and the packet each of them stands for: protocol name, level, flags
and keep-alive, and behind level 5 a property block.
-/

namespace Aqua

open Wire Wire.Reader

/-- What is decided without the buffer is decided the same everywhere. -/
theorem lift_sound {α : Type} {x : Result α} {a : α} {buf : Bytes} {pos next : ℕ}
    (read : lift x buf pos = .ok (a, next)) : next = pos ∧ Reads (lift x) [] a := by
  obtain ⟨value, known, same⟩ := Outcome.bind_eq_ok_iff.mp read
  cases same
  exact ⟨rfl, fun _ _ => Outcome.bind_eq_ok_iff.mpr ⟨_, known, rfl⟩⟩

theorem ConnectFlags.tryFrom_spells : Spells ConnectFlags.tryFrom fun flags bytes =>
    ∃ byte, bytes = [byte] ∧ Reads ConnectFlags.tryFrom [byte] flags where
  reads related := by
    obtain ⟨byte, rfl, reads⟩ := related
    exact reads
  sound read inside := by
    obtain ⟨byte, mid, first, read⟩ := bind_eq_ok_iff.mp read
    obtain ⟨_, rfl, stands⟩ := Spells.index.sound first inside
    split at read
    · cases read
    · next reserved =>
      obtain ⟨qos, after, decided, read⟩ := bind_eq_ok_iff.mp read
      cases read
      obtain ⟨rfl, level⟩ := lift_sound decided
      refine ⟨_, ⟨byte, rfl, (Reads.index byte).bind_nil ?_⟩, stands⟩
      rw [if_neg reserved]
      exact level.bind_nil (Reads.pure _)

theorem be16Bytes_injective {value value' : UInt16} (same : be16Bytes value = be16Bytes value') :
    value = value' := by
  rw [be16Bytes, be16Bytes, List.cons.injEq, List.cons.injEq] at same
  rw [← be16_be16Bytes value, same.left, same.right.left, be16_be16Bytes]

/-- The front of a header can be told from what follows. -/
theorem connectFront_injective {name name' : ProtocolName} {level level' flags flags' : UInt8}
    {keepAlive keepAlive' : KeepAlive} {rest rest' : Bytes} (short : (stringBytes name.value).length < 2 ^ 16)
    (short' : (stringBytes name'.value).length < 2 ^ 16)
    (same : connectFront name level flags keepAlive ++ rest =
      connectFront name' level' flags' keepAlive' ++ rest') :
    name = name' ∧ level = level' ∧ flags = flags' ∧ keepAlive = keepAlive' ∧ rest = rest' := by
  simp only [connectFront, List.append_assoc] at same
  obtain ⟨_, behind, names⟩ :=
    (ProtocolName.tryFrom_reads short).unique (ProtocolName.tryFrom_reads short') same
  simp only [List.cons_append, List.nil_append, List.cons.injEq] at behind
  obtain ⟨levels, flags_, behind⟩ := behind
  obtain ⟨keep, rests⟩ := List.append_inj behind rfl
  exact ⟨names, levels, flags_, congrArg KeepAlive.mk (be16Bytes_injective keep), rests⟩

/-- What follows the keep-alive, and the properties it stands for. -/
def HeaderEnd (level : ProtocolVersion) (set : ConnectProperties) (bytes : Bytes) : Prop :=
  if level.value = 0x05 then ∃ properties, ConnectProperty.Acceptable properties ∧
    set = ConnectProperty.collect properties ∧ BlockOf ConnectProperty.wire properties bytes
  else set = {} ∧ bytes = []

/-- A header and the packet that the decoder makes of it. -/
def Connect.Headed (c : Connect) (bytes : Bytes) : Prop :=
  ∃ flags rest, (stringBytes c.protocolName.value).length < 2 ^ 16 ∧
    Reads ConnectFlags.tryFrom [flags] c.connectFlags ∧ HeaderEnd c.protocolVer c.properties rest ∧
    c = { protocolName := c.protocolName, protocolVer := c.protocolVer, connectFlags := c.connectFlags
          keepalive := c.keepalive, properties := c.properties } ∧
    bytes = connectFront c.protocolName c.protocolVer.value flags c.keepalive ++ rest

/-- The properties of the packets that have them. -/
theorem headerEnd_spells (level : ProtocolVersion) (self : Connect) (blank : self.properties = {}) :
    Spells (if level.value ≠ 0b00000101 then pure self
      else propertyBlock ConnectProperties.readProperty self.properties >>= fun properties =>
        pure { self with properties })
      fun c bytes => ∃ set, HeaderEnd level set bytes ∧ c = { self with properties := set } := by
  by_cases five : level.value = 0x05
  · rw [if_neg (not_not.mpr five)]
    rw [blank]
    refine (ConnectProperties.block_spells.bind fun _ => .pure _).congr fun c bytes => ?_
    simp only [HeaderEnd, if_pos five]
    constructor
    · rintro ⟨set, _, _, block, ⟨rfl, rfl⟩, rfl⟩
      exact ⟨set, by rw [List.append_nil]; exact block, rfl⟩
    · rintro ⟨set, block, rfl⟩
      exact ⟨set, bytes, [], block, ⟨rfl, rfl⟩, (List.append_nil _).symm⟩
  · rw [if_pos five]
    refine (Spells.pure _).congr fun c bytes => ?_
    simp only [HeaderEnd, if_neg five]
    constructor
    · rintro ⟨rfl, rfl⟩
      exact ⟨{}, ⟨rfl, rfl⟩, by rw [← blank]⟩
    · rintro ⟨_, ⟨rfl, rfl⟩, rfl⟩
      exact ⟨by rw [← blank], rfl⟩

theorem Connect.decodeVariableHeader_spells :
    Spells (Connect.decodeVariableHeader {}) Connect.Headed := by
  refine (ProtocolName.tryFrom_spells.bind fun _ => (Spells.index.map).bind fun _ =>
    ConnectFlags.tryFrom_spells.bind fun _ => (u16Field_spells KeepAlive.mk).bind fun _ =>
      headerEnd_spells _ _ rfl).congr fun c bytes => ?_
  constructor
  · rintro ⟨name, _, _, ⟨short, rfl⟩, ⟨_, _, _, ⟨level, rfl, rfl⟩, ⟨cf, _, _, ⟨flags, rfl, reads⟩,
      ⟨_, _, rest, ⟨keepAlive, rfl, rfl⟩, ⟨set, ends, rfl⟩, rfl⟩, rfl⟩, rfl⟩, rfl⟩
    refine ⟨flags, rest, short, reads, ends, rfl, ?_⟩
    simp only [connectFront, List.append_assoc, List.cons_append, List.nil_append]
  · rintro ⟨flags, rest, short, reads, ends, whole, rfl⟩
    refine ⟨c.protocolName, _, _, ⟨short, rfl⟩, ⟨c.protocolVer, _, _, ⟨_, rfl, rfl⟩,
      ⟨c.connectFlags, _, _, ⟨flags, rfl, reads⟩, ⟨c.keepalive, _, rest, ⟨_, rfl, rfl⟩,
        ⟨c.properties, ends, whole⟩, rfl⟩, rfl⟩, rfl⟩, ?_⟩
    simp only [connectFront, List.append_assoc, List.cons_append, List.nil_append]

/-- A block with given properties is the block of no other list. -/
theorem blockOf_iff {field : Bytes} {properties properties' : List ConnectProperty}
    (announced : Reads decodeVariableLength field (properties.flatMap ConnectProperty.wire).length)
    (fits : ∀ p ∈ properties, p.Fits) (fits' : ∀ p ∈ properties', p.Fits) :
    BlockOf ConnectProperty.wire properties' (field ++ properties.flatMap ConnectProperty.wire) ↔
      properties' = properties := by
  constructor
  · rintro ⟨field', announced', same⟩
    obtain ⟨_, same, _⟩ := announced'.unique announced same.symm
    exact flatMap_injective ConnectProperty.wire_ne_nil
      (fun p member => ConnectProperty.read_spells.reads ⟨fits' p member, rfl⟩)
      (fun p member => ConnectProperty.read_spells.reads ⟨fits p member, rfl⟩) same
  · rintro rfl
    exact ⟨field, announced, rfl⟩

/-- The packet behind a header of level 5. -/
def Connect.headedWith (name : ProtocolName) (flags : ConnectFlags) (keepAlive : KeepAlive)
    (properties : List ConnectProperty) : Connect where
  protocolName := name
  protocolVer := ⟨5⟩
  connectFlags := flags
  keepalive := keepAlive
  properties := ConnectProperty.collect properties

/-- A header of level 5 with given properties is accepted if the flags and the properties are. -/
theorem Connect.headed_iff {name : ProtocolName} {flags : UInt8} {keepAlive : KeepAlive} {field : Bytes}
    {properties : List ConnectProperty} {c : Connect} (short : (stringBytes name.value).length < 2 ^ 16)
    (announced : Reads decodeVariableLength field (properties.flatMap ConnectProperty.wire).length)
    (fits : ∀ p ∈ properties, p.Fits) :
    c.Headed (connectFront name 0x05 flags keepAlive ++ (field ++ properties.flatMap ConnectProperty.wire)) ↔
      ∃ bits, Reads ConnectFlags.tryFrom [flags] bits ∧ ConnectProperty.Acceptable properties ∧
        c = Connect.headedWith name bits keepAlive properties := by
  constructor
  · rintro ⟨flags', rest, short', reads, ends, whole, same⟩
    obtain ⟨names, level, rfl, keep, rfl⟩ := connectFront_injective short short' same
    rw [HeaderEnd, if_pos level.symm] at ends
    obtain ⟨properties', acceptable, set, block⟩ := ends
    obtain rfl := (blockOf_iff announced fits fun p member => (acceptable.each p member).left).mp block
    refine ⟨c.connectFlags, reads, acceptable, whole.trans ?_⟩
    rw [Connect.headedWith, names, keep, set, ← congrArg ProtocolVersion.mk level.symm]
  · rintro ⟨bits, reads, acceptable, rfl⟩
    exact ⟨flags, _, short, reads, ⟨properties, acceptable, rfl, field, announced, rfl⟩, rfl, rfl⟩

end Aqua
