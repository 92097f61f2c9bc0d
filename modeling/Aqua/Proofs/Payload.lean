import Aqua.Proofs.Frame

/-! # Payload decoders

A payload decoder that succeeds has removed a number of bytes from the front of the buffer and
has looked at no others. For PUBLISH, SUBSCRIBE and UNSUBSCRIBE this number is the payload length
the variable header stored; for CONNECT it is what the fields of the payload add up to; the
remaining packets have no payload decoder and remove nothing.
-/

namespace Aqua

open Wire Wire.Reader

theorem rewrap_eq_ok_iff {α : Type} {packet : α → ControlPacket} {decoded : Result (α × Bytes)}
    {p : ControlPacket} {rest : Bytes} :
    rewrap packet decoded = .ok (p, rest) ↔ ∃ a, decoded = .ok (a, rest) ∧ p = packet a := by
  rw [rewrap, Outcome.bind_eq_ok_iff]
  constructor
  · rintro ⟨⟨a, _⟩, inner, same⟩
    cases same
    exact ⟨a, inner, rfl⟩
  · rintro ⟨a, inner, rfl⟩
    exact ⟨(a, rest), inner, rfl⟩

/-- `decode` turns the first `count` bytes of `buf` into `a`, whatever stands behind them. -/
structure Takes {α : Type} (decode : Bytes → Result (α × Bytes)) (count : ℕ) (buf : Bytes) (a : α) :
    Prop where
  within : count ≤ buf.length
  decodes : ∀ {buf' : Bytes}, buf'.take count = buf.take count →
    decode buf' = .ok (a, buf'.drop count)

namespace Takes

variable {α : Type} {decode : Bytes → Result (α × Bytes)} {count : ℕ} {buf buf' rest : Bytes} {a : α}

theorem same (takes : Takes decode count buf a) : decode buf = .ok (a, buf.drop count) :=
  takes.decodes rfl

/-- A lawful reader, followed by the removal of what it read. -/
theorem of_reader {r : FieldReader α} (lawful : Lawful r) {next : ℕ}
    (read : r buf 0 = .ok (a, next)) :
    Takes (fun buf => r buf 0 >>= fun (a, next) => advance buf next >>= fun rest => pure (a, rest))
      next buf a where
  within := lawful.within read (Nat.zero_le _)
  decodes {buf'} agree := by
    have within' := lawful.within (lawful.stable read agree) (Nat.zero_le _)
    simp only [lawful.stable read agree, Outcome.ok_bind, advance_of_le within', Outcome.pure_eq]

theorem rewrap {packet : α → ControlPacket} (takes : Takes decode count buf a) :
    Takes (fun buf => Aqua.rewrap packet (decode buf)) count buf (packet a) where
  within := takes.within
  decodes agree := by simp only [Aqua.rewrap, takes.decodes agree, Outcome.ok_bind]

end Takes

theorem Publish.decodePayload_takes {self p : Publish} {buf rest : Bytes}
    (decoded : self.decodePayload buf = .ok (p, rest)) :
    Takes self.decodePayload self.payloadLength buf p := by
  simp only [Publish.decodePayload] at decoded
  split at decoded
  · cases decoded
  next enough =>
  cases decoded
  refine ⟨by omega, fun {buf'} agree => ?_⟩
  have lengths := length_agree agree
  simp only [Publish.decodePayload, if_neg (show ¬ buf'.length < self.payloadLength by omega), agree]

/-- The filter loop of SUBSCRIBE ends at the announced length. -/
theorem Subscribe.readFilters_end {payloadLength pos next : ℕ} {buf : Bytes}
    {filters read : List (TopicFilter × SubscribeOption)}
    (run : Subscribe.readFilters payloadLength filters buf pos = .ok (read, next)) :
    next = payloadLength := by
  refine Outcome.loop_invariant (fun _ => True) (fun done => done.2 = payloadLength)
    (fun _ _ _ _ => trivial) ?_ trivial run
  intro ⟨s, pos⟩ ⟨b, after⟩ _ step
  have body := loopBody_eq_inr_iff.mp step
  obtain ⟨f, mid, _, body⟩ := bind_eq_ok_iff.mp body
  obtain ⟨op, nextPos, _, body⟩ := bind_eq_ok_iff.mp body
  simp only [bind_apply, position_apply, Outcome.ok_bind] at body
  split at body
  · next here => cases body; exact here.symm
  split at body
  · cases body
  · cases body

theorem Subscribe.decodePayload_takes {self p : Subscribe} {buf rest : Bytes}
    (decoded : self.decodePayload buf = .ok (p, rest)) :
    Takes self.decodePayload self.payloadLength buf p := by
  simp only [Subscribe.decodePayload] at decoded
  split at decoded
  · cases decoded
  next some_payload =>
  obtain ⟨⟨filters, next⟩, read, decoded⟩ := Outcome.bind_eq_ok_iff.mp decoded
  obtain ⟨_, _, decoded⟩ := Outcome.bind_eq_ok_iff.mp decoded
  cases decoded
  obtain rfl := Subscribe.readFilters_end read
  have takes := Takes.of_reader (Subscribe.readFilters_lawful _ _) read
  refine ⟨takes.within, fun agree => ?_⟩
  have outcome := takes.decodes agree
  obtain ⟨⟨_, _⟩, read', outcome⟩ := Outcome.bind_eq_ok_iff.mp outcome
  obtain ⟨_, removed, outcome⟩ := Outcome.bind_eq_ok_iff.mp outcome
  cases outcome
  simp only [Subscribe.decodePayload, if_neg some_payload, read', Outcome.ok_bind, removed,
    Outcome.pure_eq]

theorem Unsubscribe.decodePayload_takes {self p : Unsubscribe} {buf rest : Bytes}
    (decoded : self.decodePayload buf = .ok (p, rest)) :
    Takes self.decodePayload self.payloadLength buf p := by
  obtain ⟨⟨filters, next⟩, read, decoded⟩ := Outcome.bind_eq_ok_iff.mp decoded
  obtain ⟨_, _, decoded⟩ := Outcome.bind_eq_ok_iff.mp decoded
  cases decoded
  obtain rfl := block_end read
  have takes := Takes.of_reader
    (Lawful.block Unsubscribe.readFilter_lawful Unsubscribe.readFilter_progresses _ _) read
  refine ⟨takes.within, fun agree => ?_⟩
  have outcome := takes.decodes agree
  obtain ⟨⟨_, _⟩, read', outcome⟩ := Outcome.bind_eq_ok_iff.mp outcome
  obtain ⟨_, removed, outcome⟩ := Outcome.bind_eq_ok_iff.mp outcome
  cases outcome
  simp only [Unsubscribe.decodePayload, read', Outcome.ok_bind, removed, Outcome.pure_eq]

theorem Connect.decodePayload_eq_ok_iff {self p : Connect} {buf rest : Bytes} :
    self.decodePayload buf = .ok (p, rest) ↔
      ∃ next, self.readPayload buf 0 = .ok (p, next) ∧ rest = buf.drop next := by
  constructor
  · intro decoded
    obtain ⟨⟨read, next⟩, payload, decoded⟩ := Outcome.bind_eq_ok_iff.mp decoded
    obtain ⟨_, removed, decoded⟩ := Outcome.bind_eq_ok_iff.mp decoded
    cases decoded
    exact ⟨next, payload, (advance_eq_ok_iff.mp removed).2⟩
  · rintro ⟨next, payload, rfl⟩
    have within := self.readPayload_lawful.within payload (Nat.zero_le _)
    simp only [Connect.decodePayload, payload, Outcome.ok_bind, advance_of_le within, Outcome.pure_eq]

theorem Connect.decodePayload_takes {self p : Connect} {buf : Bytes} {next : ℕ}
    (read : self.readPayload buf 0 = .ok (p, next)) : Takes self.decodePayload next buf p :=
  Takes.of_reader self.readPayload_lawful read

/-- The will fields are there when the flag says so. -/
theorem Connect.readWill_sets {self c : Connect} {buf : Bytes} {pos next : ℕ}
    (blank : self.willTopic = none ∧ self.willPayload = none)
    (read : self.readWill buf pos = .ok (c, next)) :
    c = { self with
      willProperties := c.willProperties, willTopic := c.willTopic, willPayload := c.willPayload } ∧
    c.willTopic.isSome = self.connectFlags.willFlag ∧ c.willPayload.isSome = self.connectFlags.willFlag := by
  unfold Connect.readWill at read
  split at read
  · next flag =>
    obtain ⟨set, _, _, read⟩ := bind_eq_ok_iff.mp read
    obtain ⟨topic, _, _, read⟩ := bind_eq_ok_iff.mp read
    obtain ⟨message, _, _, stored⟩ := bind_eq_ok_iff.mp read
    cases stored
    exact ⟨rfl, flag.symm, flag.symm⟩
  · next flag =>
    cases read
    have unset : self.connectFlags.willFlag = false := Bool.eq_false_iff.mpr flag
    exact ⟨rfl, by rw [blank.left, unset]; rfl, by rw [blank.right, unset]; rfl⟩

theorem Connect.readUserName_sets {self c : Connect} {buf : Bytes} {pos next : ℕ}
    (blank : self.username = none) (read : self.readUserName buf pos = .ok (c, next)) :
    c = { self with username := c.username } ∧ c.username.isSome = self.connectFlags.userNameFlag := by
  unfold Connect.readUserName at read
  split at read
  · next flag =>
    obtain ⟨name, _, _, stored⟩ := bind_eq_ok_iff.mp read
    cases stored
    exact ⟨rfl, flag.symm⟩
  · next flag =>
    cases read
    have unset : self.connectFlags.userNameFlag = false := Bool.eq_false_iff.mpr flag
    exact ⟨rfl, by rw [blank, unset]; rfl⟩

theorem Connect.readPassword_sets {self c : Connect} {buf : Bytes} {pos next : ℕ}
    (blank : self.password = none) (read : self.readPassword buf pos = .ok (c, next)) :
    c = { self with password := c.password } ∧ c.password.isSome = self.connectFlags.passwordFlag := by
  unfold Connect.readPassword at read
  split at read
  · next flag =>
    obtain ⟨password, _, _, stored⟩ := bind_eq_ok_iff.mp read
    cases stored
    exact ⟨rfl, flag.symm⟩
  · next flag =>
    cases read
    have unset : self.connectFlags.passwordFlag = false := Bool.eq_false_iff.mpr flag
    exact ⟨rfl, by rw [blank, unset]; rfl⟩

/-- A packet whose payload is still to be read. -/
structure Connect.Blank (c : Connect) : Prop where
  willTopic : c.willTopic = none
  willPayload : c.willPayload = none
  username : c.username = none
  password : c.password = none

/-- The optional fields of the payload are there exactly when their flags are set. -/
structure Connect.Filled (c : Connect) : Prop where
  willTopic : c.willTopic.isSome = c.connectFlags.willFlag
  willPayload : c.willPayload.isSome = c.connectFlags.willFlag
  username : c.username.isSome = c.connectFlags.userNameFlag
  password : c.password.isSome = c.connectFlags.passwordFlag

theorem Connect.readPayload_fills {self c : Connect} {buf : Bytes} {next : ℕ} (blank : self.Blank)
    (read : self.readPayload buf 0 = .ok (c, next)) : c.Filled ∧ ∃ clientId afterId willed afterWill,
      ClientId.tryFrom buf 0 = .ok (clientId, afterId) ∧
      Connect.readWill { self with clientId } buf afterId = .ok (willed, afterWill) ∧
      c.clientId = clientId ∧ c.willProperties = willed.willProperties := by
  obtain ⟨clientId, afterId, name, read⟩ := bind_eq_ok_iff.mp read
  obtain ⟨willed, afterWill, will, read⟩ := bind_eq_ok_iff.mp read
  obtain ⟨named, _, user, read⟩ := bind_eq_ok_iff.mp read
  have noWill : ({ self with clientId } : Connect).willTopic = none ∧
      ({ self with clientId } : Connect).willPayload = none := ⟨blank.willTopic, blank.willPayload⟩
  obtain ⟨sameWill, topic, message⟩ := Connect.readWill_sets noWill will
  have noName : willed.username = none := by
    rw [sameWill]
    exact blank.username
  obtain ⟨sameName, username⟩ := Connect.readUserName_sets noName user
  have noPassword : named.password = none := by
    rw [sameName, sameWill]
    exact blank.password
  obtain ⟨samePassword, password⟩ := Connect.readPassword_sets noPassword read
  have flags : c.connectFlags = self.connectFlags := by rw [samePassword, sameName, sameWill]
  have flags' : named.connectFlags = self.connectFlags := by rw [sameName, sameWill]
  have flags'' : willed.connectFlags = self.connectFlags := by rw [sameWill]
  have willTopic : c.willTopic = willed.willTopic := by rw [samePassword, sameName]
  have willPayload : c.willPayload = willed.willPayload := by rw [samePassword, sameName]
  have sameUser : c.username = named.username := by rw [samePassword]
  refine ⟨⟨?_, ?_, ?_, ?_⟩, clientId, afterId, willed, afterWill, name, will, ?_, ?_⟩
  · rw [willTopic, topic, flags]
  · rw [willPayload, message, flags]
  · rw [sameUser, username, flags, flags'']
  · rw [password, flags, flags']
  · rw [samePassword, sameName, sameWill]
  · rw [samePassword, sameName]

/-- Every payload decoder takes a prefix of the buffer. -/
theorem ControlPacket.decodePayload_takes {self p : ControlPacket} {buf rest : Bytes}
    (decoded : self.decodePayload buf = .ok (p, rest)) :
    ∃ count, rest = buf.drop count ∧ Takes self.decodePayload count buf p := by
  -- the packets without a payload take nothing
  have nothing {packet : ControlPacket} {decode : Bytes → Result (ControlPacket × Bytes)}
      (passes : ∀ buf, decode buf = .ok (packet, buf)) (decoded : decode buf = .ok (p, rest)) :
      ∃ count, rest = buf.drop count ∧ Takes decode count buf p := by
    rw [passes] at decoded
    cases decoded
    exact ⟨0, rfl, Nat.zero_le _, fun {buf'} _ => passes buf'⟩
  -- the others are put back under their constructors
  have wrapped {α : Type} {packet : α → ControlPacket} {decode : Bytes → Result (α × Bytes)}
      (prefixed : ∀ {a rest}, decode buf = .ok (a, rest) → ∃ count, Takes decode count buf a)
      (decoded : rewrap packet (decode buf) = .ok (p, rest)) :
      ∃ count, rest = buf.drop count ∧ Takes (fun buf => rewrap packet (decode buf)) count buf p := by
    obtain ⟨a, inner, rfl⟩ := rewrap_eq_ok_iff.mp decoded
    obtain ⟨count, takes⟩ := prefixed inner
    have removed := takes.same.symm.trans inner
    cases removed
    exact ⟨count, rfl, takes.rewrap⟩
  cases self with
  | connect q =>
    refine wrapped (fun inner => ?_) decoded
    obtain ⟨next, read, _⟩ := Connect.decodePayload_eq_ok_iff.mp inner
    exact ⟨next, Connect.decodePayload_takes read⟩
  | publish q => exact wrapped (fun inner => ⟨_, Publish.decodePayload_takes inner⟩) decoded
  | subscribe q => exact wrapped (fun inner => ⟨_, Subscribe.decodePayload_takes inner⟩) decoded
  | unsubscribe q => exact wrapped (fun inner => ⟨_, Unsubscribe.decodePayload_takes inner⟩) decoded
  | pingreq q => exact nothing (fun _ => rfl) decoded
  | pubrel q => exact nothing (fun _ => rfl) decoded
  | disconnect q => exact nothing (fun _ => rfl) decoded
  | puback q => exact nothing (fun _ => rfl) decoded
  | pubrec q => exact nothing (fun _ => rfl) decoded
  | pubcomp q => exact nothing (fun _ => rfl) decoded
  | connack _ => cases decoded
  | undefined => cases decoded
  | noOperation => cases decoded
  | disconnectCpOperation => cases decoded
  | suback _ => cases decoded
  | pingresp _ => cases decoded
  | unsuback _ => cases decoded

/-- The payload length a decoded variable header stored, for the packets that store one. -/
def ControlPacket.payloadLength? : ControlPacket → Option ℕ
  | .publish p => some p.payloadLength
  | .subscribe p => some p.payloadLength
  | .unsubscribe p => some p.payloadLength
  | _ => none

theorem ControlPacket.decodePayload_takes_announced {self p : ControlPacket} {buf rest : Bytes}
    {length : ℕ} (announced : self.payloadLength? = some length)
    (decoded : self.decodePayload buf = .ok (p, rest)) :
    rest = buf.drop length ∧ Takes self.decodePayload length buf p := by
  have wrapped {α : Type} {packet : α → ControlPacket} {decode : Bytes → Result (α × Bytes)}
      (prefixed : ∀ {a rest}, decode buf = .ok (a, rest) → Takes decode length buf a)
      (decoded : rewrap packet (decode buf) = .ok (p, rest)) :
      rest = buf.drop length ∧ Takes (fun buf => rewrap packet (decode buf)) length buf p := by
    obtain ⟨a, inner, rfl⟩ := rewrap_eq_ok_iff.mp decoded
    have takes := prefixed inner
    have removed := takes.same.symm.trans inner
    cases removed
    exact ⟨rfl, takes.rewrap⟩
  cases self with
  | publish q =>
    cases announced
    exact wrapped Publish.decodePayload_takes decoded
  | subscribe q =>
    cases announced
    exact wrapped Subscribe.decodePayload_takes decoded
  | unsubscribe q =>
    cases announced
    exact wrapped Unsubscribe.decodePayload_takes decoded
  | _ => cases announced

theorem Build.sub_eq_ok_iff {build : Build} {x y z : ℕ} : build.sub x y = .ok z ↔
    y ≤ x ∧ z = x - y ∨
      x < y ∧ build.overflowChecks = false ∧ z = x + usizeModulus - y := by
  unfold Build.sub
  by_cases le : y ≤ x
  · rw [if_pos le, Outcome.ok.injEq]
    exact ⟨fun same => .inl ⟨le, same.symm⟩, by omega⟩
  rw [if_neg le]
  cases checks : build.overflowChecks with
  | true =>
    refine iff_of_false (fun wrong => by cases wrong) ?_
    rintro (⟨le', _⟩ | ⟨_, wraps, _⟩)
    · exact le le'
    · cases wraps
  | false =>
    rw [if_neg Bool.false_ne_true, Outcome.ok.injEq]
    exact ⟨fun same => .inr ⟨by omega, rfl, same.symm⟩, by omega⟩

/-- Without an overflow the difference is exact. -/
theorem Build.sub_of_le {build : Build} {x y z : ℕ} (difference : build.sub x y = .ok z) (le : y ≤ x) :
    z = x - y := by
  rcases Build.sub_eq_ok_iff.mp difference with ⟨_, same⟩ | ⟨beyond, _⟩
  · exact same
  · exact absurd le (Nat.not_le.mpr beyond)

theorem lift_eq_ok_iff {α : Type} {x : Result α} {buf : Bytes} {pos next : ℕ} {a : α} :
    lift x buf pos = .ok (a, next) ↔ x = .ok a ∧ next = pos := by
  simp only [lift, Outcome.bind_eq_ok_iff]
  constructor
  · rintro ⟨_, value, same⟩
    cases same
    exact ⟨value, rfl⟩
  · rintro ⟨value, rfl⟩
    exact ⟨a, value, rfl⟩

section Announced

variable {build : Build} {remainingLength size : ℕ} {protocolVersion : Option ProtocolVersion}
  {buf : Bytes}

/-- The fields of the variable header of a PUBLISH, one behind the other. -/
theorem Publish.decodeVariableHeader_fields {self headed : Publish}
    (header : self.decodeVariableHeader build remainingLength protocolVersion buf 0 =
      .ok (headed, size)) :
    ∃ afterTopic afterId version, TopicName.tryFrom buf 0 = .ok (headed.topicName, afterTopic) ∧
      Publish.readPacketId self.qos self.packetId buf afterTopic = .ok (headed.packetId, afterId) ∧
      protocolVersion = some version ∧
      Publish.readProperties version self.pubProperties buf afterId = .ok (headed.pubProperties, size) ∧
      build.sub remainingLength size = .ok headed.payloadLength ∧
      headed = { self with
        topicName := headed.topicName, packetId := headed.packetId, pubProperties := headed.pubProperties
        payloadLength := headed.payloadLength } := by
  obtain ⟨start, _, here, header⟩ := bind_eq_ok_iff.mp header
  cases here
  obtain ⟨topicName, afterTopic, topic, header⟩ := bind_eq_ok_iff.mp header
  obtain ⟨packetId, afterId, id, header⟩ := bind_eq_ok_iff.mp header
  obtain ⟨version, _, unwrapped, header⟩ := bind_eq_ok_iff.mp header
  obtain ⟨properties, afterProperties, props, header⟩ := bind_eq_ok_iff.mp header
  obtain ⟨_, _, here, header⟩ := bind_eq_ok_iff.mp header
  cases here
  obtain ⟨length, _, rest, header⟩ := bind_eq_ok_iff.mp header
  cases header
  obtain ⟨rest, rfl⟩ := lift_eq_ok_iff.mp rest
  obtain ⟨known, rfl⟩ := unwrap_eq_ok_iff.mp unwrapped
  exact ⟨afterTopic, _, version, topic, id, known, props, rest, rfl⟩

theorem Publish.decodeVariableHeader_announces {self headed : Publish}
    (header : self.decodeVariableHeader build remainingLength protocolVersion buf 0 =
      .ok (headed, size)) :
    0 < size ∧ build.sub remainingLength size = .ok headed.payloadLength := by
  obtain ⟨_, _, _, topic, id, _, props, rest, _⟩ := Publish.decodeVariableHeader_fields header
  have := (stringField_progresses _ topic).1
  have := (Publish.readPacketId_lawful _ _).forward id
  have := (Publish.readProperties_lawful _ _).forward props
  exact ⟨by omega, rest⟩

theorem Subscribe.decodeVariableHeader_announces {self headed : Subscribe}
    (header : self.decodeVariableHeader build remainingLength protocolVersion buf 0 =
      .ok (headed, size)) :
    0 < size ∧ build.sub remainingLength size = .ok headed.payloadLength := by
  cases protocolVersion with
  | none => cases header
  | some version =>
    obtain ⟨start, _, here, header⟩ := bind_eq_ok_iff.mp header
    cases here
    obtain ⟨packetId, afterId, id, header⟩ := bind_eq_ok_iff.mp header
    obtain ⟨properties, afterProperties, props, header⟩ := bind_eq_ok_iff.mp header
    obtain ⟨_, _, here, header⟩ := bind_eq_ok_iff.mp header
    cases here
    obtain ⟨length, _, rest, header⟩ := bind_eq_ok_iff.mp header
    cases header
    obtain ⟨rest, rfl⟩ := lift_eq_ok_iff.mp rest
    have := (u16_progresses.map id).1
    have := (Subscribe.readProperties_lawful _ _).forward props
    exact ⟨by omega, rest⟩

theorem Unsubscribe.decodeVariableHeader_announces {self headed : Unsubscribe}
    (header : self.decodeVariableHeader build remainingLength protocolVersion buf 0 =
      .ok (headed, size)) :
    0 < size ∧ build.sub remainingLength size = .ok headed.payloadLength := by
  obtain ⟨start, _, here, header⟩ := bind_eq_ok_iff.mp header
  cases here
  obtain ⟨packetId, afterId, id, header⟩ := bind_eq_ok_iff.mp header
  obtain ⟨version, _, known, header⟩ := bind_eq_ok_iff.mp header
  obtain ⟨properties, afterProperties, props, header⟩ := bind_eq_ok_iff.mp header
  obtain ⟨_, _, here, header⟩ := bind_eq_ok_iff.mp header
  cases here
  obtain ⟨length, _, rest, header⟩ := bind_eq_ok_iff.mp header
  cases header
  obtain ⟨rest, rfl⟩ := lift_eq_ok_iff.mp rest
  have := (u16_progresses.map id).1
  have := (Lawful.unwrap _).forward known
  have := (Unsubscribe.readProperties_lawful _ _).forward props
  exact ⟨by omega, rest⟩

/-- The packets that announce their payload store the remaining length less the size of the
variable header, which is never empty. -/
theorem ControlPacket.decodeVariableHeader_announces {start headed : ControlPacket}
    (framed : start.payloadLength? ≠ none)
    (header : start.decodeVariableHeader build remainingLength protocolVersion buf 0 =
      .ok (headed, size)) :
    0 < size ∧ ∃ length, headed.payloadLength? = some length ∧
      build.sub remainingLength size = .ok length := by
  cases start with
  | publish p =>
    obtain ⟨p', inner, rfl⟩ := map_eq_ok_iff.mp header
    obtain ⟨moved, rest⟩ := Publish.decodeVariableHeader_announces inner
    exact ⟨moved, _, rfl, rest⟩
  | subscribe p =>
    obtain ⟨p', inner, rfl⟩ := map_eq_ok_iff.mp header
    obtain ⟨moved, rest⟩ := Subscribe.decodeVariableHeader_announces inner
    exact ⟨moved, _, rfl, rest⟩
  | unsubscribe p =>
    obtain ⟨p', inner, rfl⟩ := map_eq_ok_iff.mp header
    obtain ⟨moved, rest⟩ := Unsubscribe.decodeVariableHeader_announces inner
    exact ⟨moved, _, rfl, rest⟩
  | _ => exact (framed rfl).elim

end Announced

end Aqua
