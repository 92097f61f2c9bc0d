import Aqua.Proofs.ConnectHeader
import Aqua.Proofs.Payload

/-! # The property lists of an accepted CONNECT

An accepted header announces exactly the bytes of a list of properties, and the set it ends with holds what
the list says; the same goes for the properties of a will. The order of the list matters in one place: the
test for authentication data without a method is made after every property, so the method has to come first.
-/

namespace Aqua

open Wire Wire.Reader

/-- A property length, and properties that stand from behind it up to `next`. -/
def BlockStands {π : Type} (wire : π → Bytes) (buf : Bytes) (lengthAt : ℕ) (properties : List π)
    (next : ℕ) : Prop :=
  ∃ length start, decodeVariableLength buf lengthAt = .ok (length, start) ∧ next = start + length ∧
    Stands buf start (properties.flatMap wire) next

private theorem BlockOf.stands {π : Type} {wire : π → Bytes} {properties : List π} {buf bytes : Bytes} {pos next : ℕ}
    (block : BlockOf wire properties bytes) (stands : Stands buf pos bytes next) :
    BlockStands wire buf pos properties next := by
  obtain ⟨field, announced, rfl⟩ := block
  obtain ⟨front, behind⟩ := stands.split
  exact ⟨_, _, announced.stands front, behind.length, behind⟩

/-- The values of a CONNECT property set that make sense. -/
structure ConnectProperties.Legal (s : ConnectProperties) : Prop where
  receiveMaximum : s.receiveMaximum ≠ some ⟨0⟩
  maximumPacketSize : s.maximumPacketSize ≠ some ⟨0⟩
  topicAliasMaximum : s.topicAliasMaximum ≠ some ⟨0⟩
  authenticated : s.authenticationData ≠ none → s.authenticationMethod ≠ none

/-- What is found in a list is in the list. -/
theorem findSome?_ne {π α : Type} {value : π → Option α} {properties : List π} {a : α}
    (absent : ∀ p ∈ properties, value p ≠ some a) : properties.findSome? value ≠ some a := by
  intro found
  obtain ⟨p, member, is⟩ := List.exists_of_findSome?_eq_some found
  exact absent p member is

private theorem ConnectProperty.Acceptable.legal {properties : List ConnectProperty}
    (acceptable : ConnectProperty.Acceptable properties) : (ConnectProperty.collect properties).Legal where
  receiveMaximum := by
    refine findSome?_ne fun p member wrong => ?_
    cases p <;> cases wrong
    exact (acceptable.each _ member).right.left rfl
  maximumPacketSize := by
    refine findSome?_ne fun p member wrong => ?_
    cases p <;> cases wrong
    exact (acceptable.each _ member).right.left rfl
  topicAliasMaximum := by
    refine findSome?_ne fun p member wrong => ?_
    cases p <;> cases wrong
    exact (acceptable.each _ member).right.right rfl
  authenticated data := by
    obtain ⟨found, known⟩ := Option.ne_none_iff_exists'.mp data
    obtain ⟨p, member, is⟩ := List.exists_of_findSome?_eq_some known
    obtain ⟨front, rest, rfl⟩ := List.append_of_mem member
    cases p <;> cases is
    obtain ⟨method, before⟩ := acceptable.method front _ rest rfl
    intro missing
    have absent := List.findSome?_eq_none_iff.mp missing _ (List.mem_append_left _ before)
    cases absent

private theorem Connect.decodeVariableHeader_sound {buf : Bytes} {pos next : ℕ} {c : Connect}
    (read : Connect.decodeVariableHeader {} buf pos = .ok (c, next)) (five : c.protocolVer.value = 0x05) :
    ∃ flags lengthAt properties,
      Stands buf pos (connectFront c.protocolName 0x05 flags c.keepalive) lengthAt ∧
      BlockStands ConnectProperty.wire buf lengthAt properties next ∧
      ConnectProperty.Acceptable properties ∧ c.properties = ConnectProperty.collect properties := by
  have inside : pos ≤ buf.length := by
    obtain ⟨moved, within⟩ := Connect.decodeVariableHeader_progresses {} read
    exact moved.le.trans within
  obtain ⟨bytes, ⟨flags, rest, _, _, ends, _, rfl⟩, stands⟩ :=
    Connect.decodeVariableHeader_spells.sound read inside
  rw [HeaderEnd, if_pos five] at ends
  obtain ⟨properties, acceptable, set, block⟩ := ends
  rw [five] at stands
  obtain ⟨front, behind⟩ := stands.split
  exact ⟨flags, _, properties, front, block.stands behind, acceptable, set⟩

private theorem Connect.decodePayload_will_sound {self c : Connect} {buf rest : Bytes}
    (flag : self.connectFlags.willFlag = true) (blank : self.Blank) (fresh : self.willProperties = {})
    (decoded : self.decodePayload buf = .ok (c, rest)) : ∃ lengthAt properties next,
      Stands buf 0 (putTruncated (stringBytes c.clientId.value)) lengthAt ∧
      BlockStands WillProperty.wire buf lengthAt properties next ∧
      WillProperty.Acceptable properties ∧ c.willProperties = WillProperty.collect properties := by
  obtain ⟨last, read, _⟩ := Connect.decodePayload_eq_ok_iff.mp decoded
  obtain ⟨_, clientId, lengthAt, willed, afterWill, name, will, sameId, sameWill⟩ :=
    Connect.readPayload_fills blank read
  obtain ⟨_, ⟨s, rfl, _, rfl⟩, front⟩ := (stringField_spells _).sound name (Nat.zero_le _)
  rw [Connect.readWill, if_pos flag] at will
  obtain ⟨set, next, block, will⟩ := bind_eq_ok_iff.mp will
  change propertyBlock WillProperties.readProperty self.willProperties buf lengthAt = _ at block
  rw [fresh] at block
  obtain ⟨bytes, ⟨properties, acceptable, rfl, spelled⟩, stands⟩ :=
    WillProperties.block_spells.sound block front.within
  obtain ⟨topic, _, _, will⟩ := bind_eq_ok_iff.mp will
  obtain ⟨message, _, _, stored⟩ := bind_eq_ok_iff.mp will
  cases stored
  rw [sameId]
  exact ⟨lengthAt, properties, next, front, spelled.stands stands, acceptable, sameWill⟩

/-- Every accepted header of level 5 announces a list of properties with values that fit their fields, all but the
user properties single, and holds what they say; so does every accepted payload with a will. -/
theorem accepted_properties_sound :
    (∀ buf pos c next, Connect.decodeVariableHeader {} buf pos = .ok (c, next) → c.protocolVer.value = 0x05 →
      ∃ flags lengthAt properties,
        Stands buf pos (connectFront c.protocolName 0x05 flags c.keepalive) lengthAt ∧
        BlockStands ConnectProperty.wire buf lengthAt properties next ∧
        (∀ p ∈ properties, p.Fits) ∧ properties.Pairwise ConnectProperty.Compatible ∧
        c.properties = ConnectProperty.collect properties ∧ c.properties.Legal) ∧
    (∀ (self : Connect) buf c rest, self.connectFlags.willFlag = true → self.Blank →
      self.willProperties = {} → self.decodePayload buf = .ok (c, rest) → ∃ lengthAt properties next,
        Stands buf 0 (putTruncated (stringBytes c.clientId.value)) lengthAt ∧
        BlockStands WillProperty.wire buf lengthAt properties next ∧
        (∀ p ∈ properties, p.Fits) ∧ properties.Pairwise WillProperty.Compatible ∧
        c.willProperties = WillProperty.collect properties) := by
  constructor
  · intro buf pos c next read five
    obtain ⟨flags, lengthAt, properties, front, stands, acceptable, set⟩ :=
      Connect.decodeVariableHeader_sound read five
    refine ⟨flags, lengthAt, properties, front, stands, ?_, acceptable.single, set, set ▸ acceptable.legal⟩
    exact fun p member => (acceptable.each p member).left
  · intro self buf c rest flag blank fresh decoded
    obtain ⟨lengthAt, properties, next, front, stands, acceptable, set⟩ :=
      Connect.decodePayload_will_sound flag blank fresh decoded
    exact ⟨lengthAt, properties, next, front, stands, acceptable.each, acceptable.single, set⟩

/-- Authentication data behind their method. -/
def methodFirst : List ConnectProperty := [.authenticationMethod ⟨"m"⟩, .authenticationData ⟨[0x01]⟩]

/-- A header of level 5, up to the end of the properties. -/
def headerWith (name : ProtocolName) (flags : UInt8) (keepAlive : KeepAlive) (lengthField : Bytes)
    (properties : List ConnectProperty) : Bytes :=
  connectFront name 0x05 flags keepAlive ++ (lengthField ++ properties.flatMap ConnectProperty.wire)

/-- The header with these properties, and what it is decoded to. -/
def methodFirstHeader : Bytes := headerWith ⟨"MQTT"⟩ 0x02 ⟨60⟩ [0x08] methodFirst

def methodFirstHeaded : Connect := Connect.headedWith ⟨"MQTT"⟩ { cleanStart := true } ⟨60⟩ methodFirst

private theorem methodFirst_decoded : Connect.decodeVariableHeader {} ([] ++ (methodFirstHeader ++ [0x00])) 0 =
    .ok (methodFirstHeaded, 0 + methodFirstHeader.length) := by decide

/-- A client identifier and a will with a delay, and what they are decoded to. -/
def delayedWill : Bytes :=
  [0x00, 0x01, 0x61, 0x05, 0x18, 0x00, 0x00, 0x00, 0x05, 0x00, 0x01, 0x74, 0x00, 0x01, 0x78]

def willFlagged : Connect where
  connectFlags := { willFlag := true }

def delayedWillDecoded : Connect := { willFlagged with
  clientId := ⟨"a"⟩
  willProperties := { willDelayInterval := some ⟨5⟩ }
  willTopic := some ⟨"t"⟩
  willPayload := some ⟨[0x78]⟩ }

private theorem delayedWill_decoded : willFlagged.decodePayload delayedWill = .ok (delayedWillDecoded, []) := by
  decide

theorem accepted_properties_sound_sample :
    (∃ flags lengthAt properties,
      Stands ([] ++ (methodFirstHeader ++ [0x00])) 0
        (connectFront methodFirstHeaded.protocolName 0x05 flags methodFirstHeaded.keepalive) lengthAt ∧
      BlockStands ConnectProperty.wire ([] ++ (methodFirstHeader ++ [0x00])) lengthAt properties
        (0 + methodFirstHeader.length) ∧
      (∀ p ∈ properties, p.Fits) ∧ properties.Pairwise ConnectProperty.Compatible ∧
      methodFirstHeaded.properties = ConnectProperty.collect properties ∧ methodFirstHeaded.properties.Legal) ∧
    (∃ lengthAt properties next,
      Stands delayedWill 0 (putTruncated (stringBytes delayedWillDecoded.clientId.value)) lengthAt ∧
      BlockStands WillProperty.wire delayedWill lengthAt properties next ∧
      (∀ p ∈ properties, p.Fits) ∧ properties.Pairwise WillProperty.Compatible ∧
      delayedWillDecoded.willProperties = WillProperty.collect properties) :=
  ⟨accepted_properties_sound.left _ _ _ _ methodFirst_decoded rfl,
    accepted_properties_sound.right _ _ _ _ rfl ⟨rfl, rfl, rfl, rfl⟩ rfl delayedWill_decoded⟩

namespace ConnectProperty

private theorem compatible_symm {p q : ConnectProperty} (compatible : p.Compatible q) : q.Compatible p :=
  fun same => same.trans (compatible same.symm)

/-- The set a list stands for depends on the order of the user properties only. -/
theorem collect_perm {properties properties' : List ConnectProperty} (perm : properties.Perm properties')
    (single : properties.Pairwise Compatible)
    (user : properties.filterMap userProperty? = properties'.filterMap userProperty?) :
    collect properties = collect properties' := by
  have found {α : Type} {value : ConnectProperty → Option α} (kind : SingleKind id value) :
      properties.findSome? value = properties'.findSome? value :=
    findSome?_perm perm (kind.pairwise single)
  rw [collect, collect, found sessionExpiryInterval?_single, found receiveMaximum?_single,
    found maximumPacketSize?_single, found topicAliasMaximum?_single, found requestResponseInformation?_single,
    found requestProblemInformation?_single, found authenticationMethod?_single,
    found authenticationData?_single, user]

private theorem Acceptable.perm {properties properties' : List ConnectProperty} (acceptable : Acceptable properties)
    (perm : properties.Perm properties') (method : MethodFirst properties') : Acceptable properties' where
  each p member := acceptable.each p (perm.mem_iff.mpr member)
  single := (perm.pairwise_iff compatible_symm).mp acceptable.single
  method := method

end ConnectProperty

/-- A list of properties is accepted in another order, with the same set and the same end, if and only if
authentication data still stand behind the method. -/
theorem permuted_properties_iff {before after lengthField : Bytes} {name : ProtocolName} {flags : UInt8}
    {keepAlive : KeepAlive} {properties permuted : List ConnectProperty} {c : Connect}
    (short : (stringBytes name.value).length < 2 ^ 16)
    (announced : decodeVariableLength lengthField 0 =
      .ok ((properties.flatMap ConnectProperty.wire).length, lengthField.length))
    (fits : ∀ p ∈ properties, p.Fits)
    (accepted : Connect.decodeVariableHeader {}
        (before ++ (headerWith name flags keepAlive lengthField properties ++ after)) before.length =
      .ok (c, before.length + (headerWith name flags keepAlive lengthField properties).length))
    (perm : permuted.Perm properties)
    (user : permuted.filterMap ConnectProperty.userProperty? =
      properties.filterMap ConnectProperty.userProperty?) :
    (∃ c', Connect.decodeVariableHeader {}
        (before ++ (headerWith name flags keepAlive lengthField permuted ++ after)) before.length =
      .ok (c', before.length + (headerWith name flags keepAlive lengthField properties).length) ∧
      c'.properties = c.properties) ↔ ConnectProperty.MethodFirst permuted := by
  have announced := decodeVariableLength_reads announced
  have length : (permuted.flatMap ConnectProperty.wire).length =
      (properties.flatMap ConnectProperty.wire).length := (perm.flatMap_right _).length_eq
  have fits' : ∀ p ∈ permuted, p.Fits := fun p member => fits p (perm.mem_iff.mp member)
  have announced' : Reads decodeVariableLength lengthField (permuted.flatMap ConnectProperty.wire).length :=
    length.symm ▸ announced
  have ends : (headerWith name flags keepAlive lengthField properties).length =
      (headerWith name flags keepAlive lengthField permuted).length := by
    simp only [headerWith, List.length_append, length]
  -- a header that stands between the two positions is accepted as that header
  have decode {header : Bytes} {c : Connect} : Connect.decodeVariableHeader {} (before ++ (header ++ after))
      before.length = .ok (c, before.length + header.length) ↔ c.Headed header := by
    have stands : Stands (before ++ (header ++ after)) before.length header (before.length + header.length) :=
      ⟨before, after, rfl, rfl, rfl⟩
    rw [Connect.decodeVariableHeader_spells.eq_ok_iff (by rw [List.length_append]; omega)]
    constructor
    · rintro ⟨bytes, headed, stands'⟩
      rw [stands.unique stands']
      exact headed
    · intro headed
      exact ⟨header, headed, stands⟩
  rw [decode] at accepted
  obtain ⟨bits, reads, acceptable, rfl⟩ := (Connect.headed_iff short announced fits).mp accepted
  rw [ends]
  simp only [decode]
  constructor
  · rintro ⟨c', headed, _⟩
    obtain ⟨_, _, acceptable', _⟩ := (Connect.headed_iff short announced' fits').mp headed
    exact acceptable'.method
  · intro method
    have acceptable' := acceptable.perm perm.symm method
    refine ⟨_, (Connect.headed_iff short announced' fits').mpr ⟨bits, reads, acceptable', rfl⟩, ?_⟩
    exact ConnectProperty.collect_perm perm acceptable'.single user

/-- The same data in front of the method. -/
def dataFirst : List ConnectProperty := [.authenticationData ⟨[0x01]⟩, .authenticationMethod ⟨"m"⟩]

theorem permuted_properties_iff_self :
    (∃ c, Connect.decodeVariableHeader {} ([] ++ (methodFirstHeader ++ [0x00])) 0 =
      .ok (c, 0 + methodFirstHeader.length) ∧ c.properties = methodFirstHeaded.properties) ↔
      ConnectProperty.MethodFirst methodFirst :=
  permuted_properties_iff (by decide) (by decide) (by decide) methodFirst_decoded (.refl _) rfl

/-- An accepted list, and a permutation of it that is rejected. -/
theorem dataFirst_rejected :
    Connect.decodeVariableHeader {} ([] ++ (methodFirstHeader ++ [0x00])) 0 =
      .ok (methodFirstHeaded, 0 + methodFirstHeader.length) ∧
    dataFirst.Perm methodFirst ∧
    dataFirst.filterMap ConnectProperty.userProperty? = methodFirst.filterMap ConnectProperty.userProperty? ∧
    Connect.decodeVariableHeader {} ([] ++ (headerWith ⟨"MQTT"⟩ 0x02 ⟨60⟩ [0x08] dataFirst ++ [0x00])) 0 =
      .err .invalidFormat :=
  ⟨methodFirst_decoded, .swap _ _ _, rfl, by decide⟩

end Aqua
