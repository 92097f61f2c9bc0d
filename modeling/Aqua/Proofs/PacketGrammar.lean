import Aqua.Proofs.PropertyGrammar

/-! # Packets obey the grammar

The variable header of each packet a broker receives meets its format, and what it decodes to has a
payload decoder that meets the format the grammar derives from it.
-/

namespace Aqua

open Wire Wire.Reader

theorem KeepAlive.tryFrom_meets : Meets KeepAlive.tryFrom Format.u16.ignore :=
  Describes.u16.ignore.map fun _ _ => id

/-- The conversions of two bits: three values are legal. -/
theorem twoBits_meets {α : Type} (value : UInt8) (zero one two : α) :
    Meets (lift (if value = 0 then .ok zero else if value = 1 then .ok one
      else if value = 2 then .ok two else .err .invalidFormat)) (Format.guard (Grammar.TwoBits value)) := by
  unfold Grammar.TwoBits
  split
  · next is_zero => exact .pure_guard (.inl is_zero) trivial
  split
  · next is_one => exact .pure_guard (.inr (.inl is_one)) trivial
  split
  · next is_two => exact .pure_guard (.inr (.inr is_two)) trivial
  · next zero one two => exact .fail_guard (by rintro (h | h | h) <;> contradiction)

theorem SubscribeOption.tryFrom_meets : Meets SubscribeOption.tryFrom Grammar.subscribeOption := by
  apply Describes.index.bind
  rintro options _ rfl
  refine (twoBits_meets _ _ _ _).bind fun qos _ _ => ?_
  exact (twoBits_meets _ _ _ _).bind_pure fun _ _ => id

/-- The flags the payload of a CONNECT depends on. -/
def ConnectFlags.Read (flags : ConnectFlags) (byte : UInt8) : Prop :=
  (flags.willFlag ↔ byte &&& 0b00000100 ≠ 0) ∧ (flags.userNameFlag ↔ byte &&& 0b10000000 ≠ 0) ∧
    (flags.passwordFlag ↔ byte &&& 0b01000000 ≠ 0)

theorem ConnectFlags.tryFrom_describes :
    Describes ConnectFlags.tryFrom Grammar.connectFlags ConnectFlags.Read := by
  apply Describes.index.bind
  rintro byte _ rfl
  refine .guard_bind Iff.rfl fun _ => Describes.value ?_
  refine (twoBits_meets _ _ _ _).bind_pure fun _ _ _ => ?_
  simp [ConnectFlags.Read]

theorem PubrelReasonCode.tryFrom_meets : Meets PubrelReasonCode.tryFrom Grammar.pubrelReason := by
  refine (Describes.indexOr _).bind ?_
  rintro byte _ rfl
  by_cases success : byte = 0x00
  · rw [if_pos success]
    exact .pure_guard (.inl success) trivial
  · rw [if_neg success]
    exact .ite_guard (or_iff_right success).symm trivial

theorem DisconnectReasonCode.convert_meets :
    Meets DisconnectReasonCode.convert Grammar.disconnectReason := by
  refine (Describes.indexOr _).bind ?_
  rintro byte _ rfl
  cases known : DisconnectReasonCode.ofByte? byte with
  | none => exact .fail_guard (not_not.mpr rfl)
  | some code => exact .pure_guard (Option.some_ne_none code) trivial

theorem Publish.readPacketId_meets (qos : QoS) (packetId : Option PacketId) :
    Meets (Publish.readPacketId qos packetId)
      (Grammar.publishIdentifier.part (qos = .qos1 ∨ qos = .qos2)) := by
  refine .part Iff.rfl (fun _ => ?_) (fun _ => .pure trivial)
  exact Describes.require _ 1 (PacketId.tryFrom_meets.bind_pure fun _ _ => id)

theorem Build.sub_eq_panic_iff {build : Build} {x y : ℕ} :
    build.sub x y = .panic ↔ x < y ∧ build.overflowChecks = true := by
  unfold Build.sub
  by_cases le : y ≤ x
  · rw [if_pos le]
    exact iff_of_false (fun wrong => by cases wrong) (by omega)
  rw [if_neg le]
  cases build.overflowChecks with
  | true => exact iff_of_true rfl ⟨by omega, rfl⟩
  | false => exact iff_of_false (fun wrong => by cases wrong) fun ⟨_, wrong⟩ => by cases wrong

theorem left_describes (build : Build) (remainingLength used : ℕ) :
    Describes (lift (build.sub remainingLength used)) (Grammar.left build remainingLength used) Eq where
  sound read := by
    obtain ⟨difference, rfl⟩ := lift_eq_ok_iff.mp read
    exact ⟨_, ⟨rfl, Build.sub_eq_ok_iff.mp difference⟩, rfl⟩
  complete spans := by
    obtain ⟨rfl, difference⟩ := spans
    exact ⟨_, lift_eq_ok_iff.mpr ⟨Build.sub_eq_ok_iff.mpr difference, rfl⟩, rfl⟩
  cut {buf pos} := by
    rw [lift, Outcome.bind_eq_panic_iff, Build.sub_eq_panic_iff]
    apply or_iff_left
    rintro ⟨_, _, wrong⟩
    cases wrong

theorem Publish.readProperties_meets (version : ProtocolVersion)
    (properties : Option PublishProperties) :
    Meets (Publish.readProperties version properties)
      (Grammar.versioned version Grammar.publishTable) := by
  refine .part Iff.rfl (fun _ => ?_) (fun _ => .pure trivial)
  exact Describes.bind_pure (propertyBlock_meets_any PublishProperties.readProperty_lawful
    PublishProperties.readProperty_describes (Tracks.fresh rfl)) fun _ _ => id

theorem Subscribe.readProperties_meets (version : ProtocolVersion) (properties : SubscribeProperties) :
    Meets (Subscribe.readProperties version properties)
      (Grammar.versioned version Grammar.subscribeTable) := by
  refine .part Iff.rfl (fun _ => ?_) (fun _ => .pure trivial)
  exact propertyBlock_meets_any SubscribeProperties.readProperty_lawful
    SubscribeProperties.readProperty_describes (Tracks.fresh rfl)

theorem Unsubscribe.readProperties_meets (version : ProtocolVersion)
    (properties : Option UnsubscribeProperties) :
    Meets (Unsubscribe.readProperties version properties)
      (Grammar.versioned version Grammar.unsubscribeTable) := by
  refine .part Iff.rfl (fun _ => ?_) (fun _ => .pure trivial)
  exact propertyBlock_meets_any UnsubscribeProperties.readProperty_lawful
    UnsubscribeProperties.readProperty_describes (Tracks.fresh rfl)

theorem Pubrel.readProperties_meets (version : ProtocolVersion) (properties : Option PubrelProperties) :
    Meets (Pubrel.readProperties version properties)
      (Grammar.versioned version Grammar.pubrelTable) := by
  refine .part Iff.rfl (fun _ => ?_) (fun _ => .pure trivial)
  exact propertyBlock_meets_any PubrelProperties.readProperty_lawful
    PubrelProperties.readProperty_describes (Tracks.fresh rfl)

theorem Disconnect.readProperties_meets (version : ProtocolVersion)
    (properties : Option DisconnectProperties) :
    Meets (Disconnect.readProperties version properties)
      (Grammar.versioned version Grammar.disconnectTable) := by
  refine .part Iff.rfl (fun _ => ?_) (fun _ => .pure trivial)
  exact Describes.bind_pure (propertyBlock_meets_any DisconnectProperties.readProperty_lawful
    DisconnectProperties.readProperty_describes (Tracks.fresh rfl)) fun _ _ => id

theorem connectProperties_meets : Meets (propertyBlock ConnectProperties.readProperty {})
    (Grammar.connectTable.block Grammar.authenticated) :=
  propertyBlock_meets ConnectProperties.readProperty_lawful ConnectProperties.readProperty_describes
    (Tracks.fresh rfl)

theorem willProperties_meets : Meets (propertyBlock WillProperties.readProperty {})
    (Grammar.willTable.block Grammar.anySet) :=
  propertyBlock_meets_any WillProperties.readProperty_lawful WillProperties.readProperty_describes
    (Tracks.fresh rfl)

/-- What a variable header decoded to has a payload decoder that removes from the front of a buffer
what the format spans there, and aborts where the format is cut. -/
structure ControlPacket.PayloadMeets (headed : ControlPacket) (F : Format Unit) : Prop where
  spans_iff : ∀ {buf : Bytes} {count : ℕ}, F.Spans buf 0 () count ↔
    count ≤ buf.length ∧ ∃ packet, headed.decodePayload buf = .ok (packet, buf.drop count)
  cut : ∀ {buf : Bytes}, headed.decodePayload buf = .panic ↔ F.Cut buf 0
  halts : ∀ buf : Bytes, headed.decodePayload buf ≠ .diverge

/-- A payload that is read from the start of the buffer and then removed. -/
theorem ControlPacket.PayloadMeets.of_reader {α : Type} {headed : ControlPacket} {F : Format Unit}
    {r : FieldReader α} (packet : α → ControlPacket) (lawful : Lawful r) (meets : Meets r F)
    (reads : ∀ buf, headed.decodePayload buf =
      r buf 0 >>= fun read => advance buf read.2 >>= fun rest => .ok (packet read.1, rest)) :
    headed.PayloadMeets F where
  spans_iff {buf count} := by
    rw [reads]
    constructor
    · intro spans
      obtain ⟨a, read, _⟩ := meets.complete spans
      have within := lawful.within read (Nat.zero_le _)
      exact ⟨within, packet a, by rw [read, Outcome.ok_bind, advance_of_le within, Outcome.ok_bind]⟩
    · rintro ⟨le, p, decoded⟩
      obtain ⟨⟨a, next⟩, read, decoded⟩ := Outcome.bind_eq_ok_iff.mp decoded
      obtain ⟨rest, removed, decoded⟩ := Outcome.bind_eq_ok_iff.mp decoded
      obtain ⟨within, rfl⟩ := advance_eq_ok_iff.mp removed
      have left := congrArg List.length (congrArg Prod.snd (Outcome.ok.inj decoded))
      simp only [List.length_drop] at left within
      obtain rfl : next = count := by omega
      obtain ⟨_, spans, _⟩ := meets.sound read
      exact spans
  cut {buf} := by
    rw [reads, Outcome.bind_eq_panic_iff, meets.cut]
    apply or_iff_left
    rintro ⟨⟨a, next⟩, read, wrong⟩
    rw [advance_of_le (lawful.within read (Nat.zero_le _))] at wrong
    cases wrong
  halts buf := by
    rw [reads, ne_eq, Outcome.bind_eq_diverge_iff]
    rintro (stuck | ⟨⟨a, next⟩, read, wrong⟩)
    · exact lawful.halts _ _ stuck
    · rw [advance_of_le (lawful.within read (Nat.zero_le _))] at wrong
      cases wrong

/-- A packet without a payload. -/
theorem ControlPacket.PayloadMeets.none {headed : ControlPacket}
    (passes : ∀ buf, headed.decodePayload buf = .ok (headed, buf)) :
    headed.PayloadMeets Grammar.noPayload where
  spans_iff {buf count} := by
    constructor
    · rintro ⟨_, rfl⟩
      exact ⟨Nat.zero_le _, headed, passes buf⟩
    · rintro ⟨le, packet, decoded⟩
      have left := congrArg List.length (congrArg Prod.snd (Outcome.ok.inj ((passes buf).symm.trans decoded)))
      simp only [List.length_drop] at left
      exact ⟨rfl, by omega⟩
  cut {buf} := by
    rw [passes]
    exact iff_of_false (fun wrong => by cases wrong) id
  halts buf := by
    rw [passes]
    exact Outcome.ok_ne_diverge _

theorem Publish.payloadMeets (self : Publish) :
    (ControlPacket.publish self).PayloadMeets (Format.bytesChecked self.payloadLength).ignore where
  spans_iff {buf count} := by
    simp only [ControlPacket.decodePayload, rewrap, Publish.decodePayload]
    constructor
    · rintro ⟨content, inside, rfl, rfl⟩
      rw [Nat.zero_add] at inside ⊢
      exact ⟨inside, _, by rw [if_neg (Nat.not_lt.mpr inside)]; rfl⟩
    · rintro ⟨le, packet, decoded⟩
      split at decoded
      · cases decoded
      next enough =>
      have left := congrArg List.length (congrArg Prod.snd (Outcome.ok.inj decoded))
      simp only [List.length_drop] at left
      obtain rfl : count = self.payloadLength := by omega
      exact ⟨_, by omega, rfl, by omega⟩
  cut {buf} := by
    simp only [ControlPacket.decodePayload, rewrap, Publish.decodePayload]
    split <;> exact iff_of_false (fun wrong => by cases wrong) id
  halts buf := by
    simp only [ControlPacket.decodePayload, rewrap, Publish.decodePayload]
    split <;> exact fun wrong => by cases wrong

/-- A filter of a SUBSCRIBE, appended to those before it. -/
def Subscribe.readFilter (filters : List (TopicFilter × SubscribeOption)) :
    FieldReader (List (TopicFilter × SubscribeOption)) := do
  let f ← TopicFilter.tryFrom
  let op ← SubscribeOption.tryFrom
  pure (filters ++ [(f, op)])

theorem Subscribe.readFilter_lawful (filters : List (TopicFilter × SubscribeOption)) :
    Lawful (Subscribe.readFilter filters) :=
  (stringField_lawful _).bind fun _ => stored_lawful SubscribeOption.tryFrom_lawful

theorem Subscribe.readFilter_progresses (filters : List (TopicFilter × SubscribeOption)) :
    Progresses (Subscribe.readFilter filters) :=
  (stringField_progresses _).bind fun _ => stored_lawful SubscribeOption.tryFrom_lawful

theorem Subscribe.readFilter_meets (filters : List (TopicFilter × SubscribeOption)) :
    Meets (Subscribe.readFilter filters) Grammar.subscribeFilter :=
  (stringField_meets _).bind fun _ _ _ => SubscribeOption.tryFrom_meets.bind_pure fun _ _ => id

theorem Subscribe.readFilters_eq (payloadLength : ℕ)
    (filters : List (TopicFilter × SubscribeOption)) :
    Subscribe.readFilters payloadLength filters =
      Subscribe.readFilter filters >>= block .unexpected Subscribe.readFilter payloadLength := by
  rw [← loop_after_eq Subscribe.readFilter_lawful Subscribe.readFilter_progresses]
  unfold Subscribe.readFilters
  congr 1
  funext filters
  simp only [afterBody, Subscribe.readFilter, bind_assoc, pure_bind]

theorem Subscribe.payloadMeets (self : Subscribe) :
    (ControlPacket.subscribe self).PayloadMeets (Grammar.subscribePayload self.payloadLength) := by
  have meets : Meets (if self.payloadLength = 0 then fail .unexpected
      else Subscribe.readFilters self.payloadLength self.topicFilters)
      (Grammar.subscribePayload self.payloadLength) := by
    refine .guard_bind not_not.symm fun _ => ?_
    rw [Subscribe.readFilters_eq]
    refine (Subscribe.readFilter_meets _).bind fun _ _ _ => ?_
    exact .block (fun filters _ _ => Subscribe.readFilter_meets filters)
      Subscribe.readFilter_lawful Subscribe.readFilter_progresses trivial
  refine .of_reader (fun topicFilters => .subscribe { self with topicFilters })
    (.ite (.fail _) (Subscribe.readFilters_lawful _ _)) meets fun buf => ?_
  simp only [ControlPacket.decodePayload, rewrap, Subscribe.decodePayload]
  split
  · rfl
  · simp only [bind_assoc]
    rfl

theorem Unsubscribe.payloadMeets (self : Unsubscribe) :
    (ControlPacket.unsubscribe self).PayloadMeets
      (Grammar.unsubscribePayload self.payloadLength) := by
  have meets : Meets (block .invalidFormat Unsubscribe.readFilter self.payloadLength self.topicFilters)
      (Grammar.unsubscribePayload self.payloadLength) :=
    .block (fun _ _ _ => (stringField_meets _).bind_pure fun _ _ => id)
      Unsubscribe.readFilter_lawful Unsubscribe.readFilter_progresses trivial
  refine .of_reader (fun topicFilters => .unsubscribe { self with topicFilters })
    (.block Unsubscribe.readFilter_lawful Unsubscribe.readFilter_progresses _ _) meets fun buf => ?_
  simp only [ControlPacket.decodePayload, rewrap, Unsubscribe.decodePayload, bind_assoc]
  rfl

theorem Connect.readWill_meets {self : Connect} {flags : UInt8}
    (fresh : self.willProperties = {}) (read : self.connectFlags.Read flags) :
    Describes self.readWill (Format.part (do
      Grammar.willTable.block Grammar.anySet
      Grammar.string
      Format.ignore Grammar.binary) (flags &&& 0b00000100 ≠ 0))
      fun next _ => next.connectFlags = self.connectFlags := by
  refine .part read.1 (fun _ => ?_) (fun _ => .pure rfl)
  rw [fresh]
  refine willProperties_meets.bind fun _ _ _ => (stringField_meets _).bind fun _ _ _ => ?_
  exact (binaryField_meets _).bind_pure fun _ _ _ => rfl

theorem Connect.readUserName_meets {self : Connect} {flags : UInt8}
    (read : self.connectFlags.Read flags) :
    Describes self.readUserName (Grammar.string.part (flags &&& 0b10000000 ≠ 0))
      fun next _ => next.connectFlags = self.connectFlags :=
  .part read.2.1 (fun _ => (stringField_meets _).bind_pure fun _ _ _ => rfl) (fun _ => .pure rfl)

theorem Connect.readPassword_meets {self : Connect} {flags : UInt8}
    (read : self.connectFlags.Read flags) :
    Meets self.readPassword (Grammar.binary.ignore.part (flags &&& 0b01000000 ≠ 0)) :=
  .part read.2.2 (fun _ => (binaryField_meets _).bind_pure fun _ _ _ => trivial)
    (fun _ => .pure trivial)

theorem Connect.payloadMeets {self : Connect} {flags : UInt8}
    (fresh : self.willProperties = {}) (read : self.connectFlags.Read flags) :
    (ControlPacket.connect self).PayloadMeets (Grammar.connectPayload flags) := by
  refine .of_reader .connect self.readPayload_lawful ?_ fun buf => ?_
  · refine (stringField_meets _).bind fun clientId _ _ => ?_
    have will := @Connect.readWill_meets { self with clientId } flags fresh read
    refine will.bind fun willed _ same => ?_
    have read : willed.connectFlags.Read flags := same ▸ read
    refine (Connect.readUserName_meets read).bind fun named _ same => ?_
    exact Connect.readPassword_meets (same ▸ read)
  · simp only [ControlPacket.decodePayload, rewrap, Connect.decodePayload, bind_assoc]
    rfl

section Headers

variable (build : Build) (version : ProtocolVersion) (remainingLength : ℕ)

theorem Connect.decodeVariableHeader_describes :
    Describes (Connect.decodeVariableHeader {})
      (Grammar.header build version (.connect {}) remainingLength)
      fun headed F => (ControlPacket.connect headed).PayloadMeets F := by
  refine ProtocolName.tryFrom_meets.bind fun protocolName _ _ => ?_
  have level : Describes ProtocolVersion.tryFrom Format.byte fun v byte => v.value = byte :=
    Describes.index.map fun _ _ => id
  apply level.bind
  rintro protocolVer _ rfl
  refine ConnectFlags.tryFrom_describes.bind fun connectFlags flags read => ?_
  refine KeepAlive.tryFrom_meets.bind fun keepalive _ _ => ?_
  apply Describes.value
  rw [ite_not]
  refine .part Iff.rfl (fun _ => ?_) (fun _ => .pure (Connect.payloadMeets rfl read))
  exact connectProperties_meets.bind_pure fun _ _ _ => Connect.payloadMeets rfl read

theorem Publish.decodeVariableHeader_describes (self : Publish) :
    Describes (self.decodeVariableHeader build remainingLength (some version))
      (Grammar.header build version (.publish self) remainingLength)
      fun headed F => (ControlPacket.publish headed).PayloadMeets F := by
  apply Describes.position.bind
  rintro start _ rfl
  refine (stringField_meets _).bind fun topicName _ _ => ?_
  refine (Publish.readPacketId_meets _ _).bind fun packetId _ _ => ?_
  rw [unwrap_some, pure_bind]
  refine (Publish.readProperties_meets _ _).bind fun pubProperties _ _ => ?_
  apply Describes.position.bind
  rintro nextPos _ rfl
  refine (left_describes build _ _).bind ?_
  rintro payloadLength _ rfl
  exact .pure (Publish.payloadMeets _)

theorem Subscribe.decodeVariableHeader_describes (self : Subscribe) :
    Describes (self.decodeVariableHeader build remainingLength (some version))
      (Grammar.header build version (.subscribe self) remainingLength)
      fun headed F => (ControlPacket.subscribe headed).PayloadMeets F := by
  apply Describes.position.bind
  rintro start _ rfl
  refine PacketId.tryFrom_meets.bind fun packetId _ _ => ?_
  refine (Subscribe.readProperties_meets _ _).bind fun subProperties _ _ => ?_
  apply Describes.position.bind
  rintro nextPos _ rfl
  refine (left_describes build _ _).bind ?_
  rintro payloadLength _ rfl
  exact .pure (Subscribe.payloadMeets _)

theorem Unsubscribe.decodeVariableHeader_describes (self : Unsubscribe) :
    Describes (self.decodeVariableHeader build remainingLength (some version))
      (Grammar.header build version (.unsubscribe self) remainingLength)
      fun headed F => (ControlPacket.unsubscribe headed).PayloadMeets F := by
  apply Describes.position.bind
  rintro start _ rfl
  refine PacketId.tryFrom_meets.bind fun packetId _ _ => ?_
  rw [unwrap_some, pure_bind]
  refine (Unsubscribe.readProperties_meets _ _).bind fun unsubscribeProperties _ _ => ?_
  apply Describes.position.bind
  rintro nextPos _ rfl
  refine (left_describes build _ _).bind ?_
  rintro payloadLength _ rfl
  exact .pure (Unsubscribe.payloadMeets _)

theorem Disconnect.decodeVariableHeader_describes (self : Disconnect) :
    Describes (self.decodeVariableHeader remainingLength (some version))
      (Grammar.header build version (.disconnect self) remainingLength)
      fun headed F => (ControlPacket.disconnect headed).PayloadMeets F := by
  apply Describes.value
  unfold Disconnect.decodeVariableHeader
  rw [← ite_not]
  refine .part Iff.rfl (fun _ => ?_) (fun _ => .pure (.none fun _ => rfl))
  refine DisconnectReasonCode.convert_meets.bind fun reasonCode _ _ => ?_
  rw [unwrap_some, pure_bind]
  exact (Disconnect.readProperties_meets _ _).bind_pure fun _ _ _ => .none fun _ => rfl

theorem Pubrel.decodeVariableHeader_describes (self : Pubrel) :
    Describes (self.decodeVariableHeader remainingLength (some version))
      (Grammar.header build version (.pubrel self) remainingLength)
      fun headed F => (ControlPacket.pubrel headed).PayloadMeets F := by
  refine PacketId.tryFrom_meets.bind fun packetId _ _ => ?_
  apply Describes.value
  rw [← ite_not]
  refine .part Iff.rfl (fun _ => ?_) (fun _ => .pure (.none fun _ => rfl))
  refine PubrelReasonCode.tryFrom_meets.bind fun reasonCode _ _ => ?_
  rw [unwrap_some, pure_bind]
  exact (Pubrel.readProperties_meets _ _).bind_pure fun _ _ _ => .none fun _ => rfl

theorem ackVariableHeader_describes (protocolVersion : Option ProtocolVersion)
    (packet : PacketId → ProtocolVersion → ControlPacket)
    (passes : ∀ packetId version buf,
      (packet packetId version).decodePayload buf = .ok (packet packetId version, buf)) :
    Describes (ackVariableHeader protocolVersion packet)
      (Format.u16.ignore >>= fun _ => pure Grammar.noPayload) ControlPacket.PayloadMeets :=
  .value (PacketId.tryFrom_meets.bind_pure fun _ _ _ => .none (passes _ _))

/-- The packets the first byte of a frame can start, before anything is read into them. -/
inductive ControlPacket.Fresh : ControlPacket → Prop
  | connect : Fresh (.connect {})
  | disconnect : Fresh (.disconnect {})
  | publish (dup : Dup) (qos : QoS) (retain : Retain) : Fresh (.publish { qos, dup, retain })
  | puback : Fresh (.puback {})
  | pubrec : Fresh (.pubrec {})
  | pubrel : Fresh (.pubrel {})
  | pubcomp : Fresh (.pubcomp {})
  | subscribe : Fresh (.subscribe {})
  | unsubscribe : Fresh (.unsubscribe {})

/-- The first byte is refused, or it starts a packet. -/
theorem packetOfFirstByte_outcome (first : UInt8) : (∃ e, packetOfFirstByte first = .err e) ∨
    ∃ start, packetOfFirstByte first = .ok start ∧ start.Fresh := by
  have branch {c : Prop} [Decidable c] {x y : Result ControlPacket}
      (yes : (∃ e, x = .err e) ∨ ∃ start, x = .ok start ∧ start.Fresh)
      (no : (∃ e, y = .err e) ∨ ∃ start, y = .ok start ∧ start.Fresh) :
      (∃ e, (if c then x else y) = .err e) ∨ ∃ start, (if c then x else y) = .ok start ∧ start.Fresh := by
    split
    · exact yes
    · exact no
  have starts {packet : ControlPacket} (fresh : packet.Fresh) :
      (∃ e, (.ok packet : Result ControlPacket) = .err e) ∨
        ∃ start, (.ok packet : Result ControlPacket) = .ok start ∧ start.Fresh :=
    .inr ⟨packet, rfl, fresh⟩
  have invalid : (∃ e, (.err .invalidFormat : Result ControlPacket) = .err e) ∨
      ∃ start, (.err .invalidFormat : Result ControlPacket) = .ok start ∧ start.Fresh :=
    .inl ⟨_, rfl⟩
  refine branch (starts .connect) <| branch (starts .disconnect) <| branch ?publish <|
    branch (starts .puback) <| branch (starts .pubrec) <| branch (branch invalid (starts .pubrel)) <|
    branch (starts .pubcomp) <| branch (branch invalid (starts .subscribe)) <|
    branch (branch invalid (starts .unsubscribe)) invalid
  have bits : ∀ value, (∃ e, QoS.ofByte value = .err e) ∨ ∃ qos, QoS.ofByte value = .ok qos := by
    intro value
    unfold QoS.ofByte
    split
    · exact .inr ⟨_, rfl⟩
    split
    · exact .inr ⟨_, rfl⟩
    split
    · exact .inr ⟨_, rfl⟩
    · exact .inl ⟨_, rfl⟩
  rw [decodeLowerFixedHeader]
  rcases bits ((first &&& 0b00000110) >>> 1) with ⟨e, refused⟩ | ⟨qos, known⟩
  · exact .inl ⟨e, by rw [refused]; rfl⟩
  · exact .inr ⟨_, by rw [known]; rfl, .publish _ qos _⟩

theorem packetOfFirstByte_fresh {first : UInt8} {start : ControlPacket}
    (kind : packetOfFirstByte first = .ok start) : start.Fresh := by
  rcases packetOfFirstByte_outcome first with ⟨e, refused⟩ | ⟨start', known, fresh⟩
  · cases kind.symm.trans refused
  · cases kind.symm.trans known
    exact fresh

/-- The variable header of every packet a broker receives meets the grammar, which gives the format
of the payload. -/
theorem ControlPacket.decodeVariableHeader_describes {start : ControlPacket} (fresh : start.Fresh) :
    Describes (start.decodeVariableHeader build remainingLength (some version))
      (Grammar.header build version start remainingLength) ControlPacket.PayloadMeets := by
  cases fresh with
  | connect => exact (Connect.decodeVariableHeader_describes _ _ _).map fun _ _ => id
  | disconnect => exact (Disconnect.decodeVariableHeader_describes build _ _ _).map fun _ _ => id
  | publish dup qos retain => exact (Publish.decodeVariableHeader_describes _ _ _ _).map fun _ _ => id
  | puback =>
    exact ackVariableHeader_describes _
      (fun packetId protocolVersion => .puback { packetId, protocolVersion }) fun _ _ _ => rfl
  | pubrec =>
    exact ackVariableHeader_describes _
      (fun packetId protocolVersion => .pubrec { packetId, protocolVersion }) fun _ _ _ => rfl
  | pubrel => exact (Pubrel.decodeVariableHeader_describes build _ _ _).map fun _ _ => id
  | pubcomp =>
    exact ackVariableHeader_describes _
      (fun packetId protocolVersion => .pubcomp { packetId, protocolVersion }) fun _ _ _ => rfl
  | subscribe => exact (Subscribe.decodeVariableHeader_describes _ _ _ _).map fun _ _ => id
  | unsubscribe => exact (Unsubscribe.decodeVariableHeader_describes _ _ _ _).map fun _ _ => id

/-- Nothing but a DISCONNECT without a body has an empty variable header. -/
theorem ControlPacket.Fresh.header_cut {start : ControlPacket} (fresh : start.Fresh)
    (other : start ≠ .disconnect {}) :
    (Grammar.header build version start remainingLength).Cut [] 0 := by
  have short : ([] : Bytes).length < 0 + 2 := Nat.zero_lt_two
  cases fresh with
  | connect => exact .inl (.inl (.inl short))
  | disconnect => exact (other rfl).elim
  | publish dup qos retain => exact .inr ⟨0, 0, ⟨rfl, rfl⟩, .inl (.inl short)⟩
  | subscribe => exact .inr ⟨0, 0, ⟨rfl, rfl⟩, .inl short⟩
  | unsubscribe => exact .inr ⟨0, 0, ⟨rfl, rfl⟩, .inl short⟩
  | puback => exact .inl short
  | pubrec => exact .inl short
  | pubrel => exact .inl short
  | pubcomp => exact .inl short

end Headers

end Aqua
