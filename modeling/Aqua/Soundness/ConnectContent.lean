import Aqua.Proofs.ConnectHeader
import Aqua.Soundness.ConnectRoundTrip

/-! # Every legal CONNECT of version 5

What a client of version 5 may send is recovered from its wire form, whatever stands behind it, but for a
topic alias maximum of zero: the decoder rejects this value as it rejects a receive maximum of zero.
-/

namespace Aqua

open Wire Wire.Reader

namespace ConnectContent

variable {c : ConnectContent}

/-- The two steps of the decoder recover the content and take exactly its bytes off the buffer. -/
def Recovered (c : ConnectContent) (suffix : Bytes) : Prop :=
  ∃ headed, Connect.decodeVariableHeader {} (c.header ++ (c.payload ++ suffix)) 0 =
      .ok (headed, c.header.length) ∧
    headed.decodePayload (c.payload ++ suffix) = .ok (c.decoded, suffix)

private theorem flags_reads (c : ConnectContent) : Reads ConnectFlags.tryFrom [c.flags] c.connectFlags := by
  have read := ClientConnect.connectFlags_reads c.userName.isSome c.password.isSome c.cleanStart
    (c.will.map fun will => (will.qos, will.retain))
  simp only [Option.map_map, Option.isSome_map] at read
  exact read

def headed (c : ConnectContent) : Connect :=
  Connect.headedWith ⟨"MQTT"⟩ c.connectFlags c.keepAlive c.properties

/-- The header is accepted for no other reason than its properties. -/
theorem headed_iff (legal : c.Legal) {p : Connect} :
    p.Headed c.header ↔ ConnectProperty.Acceptable c.properties ∧ p = c.headed := by
  have small : (c.properties.flatMap ConnectProperty.wire).length < 2 ^ 28 := by
    have total := legal.total
    simp only [header, propertyBytes, List.length_append] at total
    omega
  have fits : ∀ q ∈ c.properties, q.Fits := fun q member => (legal.properties q member).left
  have name : (stringBytes (ProtocolName.mk "MQTT").value).length < 2 ^ 16 := by decide
  rw [header, propertyBytes, Connect.headed_iff name (encodeVariableBytes_reads small) fits]
  constructor
  · rintro ⟨bits, reads, acceptable, rfl⟩
    obtain ⟨_, _, rfl⟩ := reads.unique (flags_reads c) (rfl : [c.flags] ++ [] = [c.flags] ++ [])
    exact ⟨acceptable, rfl⟩
  · rintro ⟨acceptable, rfl⟩
    exact ⟨c.connectFlags, flags_reads c, acceptable, rfl⟩

/-- Of the legal lists, those with a topic alias maximum of zero are not accepted. -/
theorem acceptable_iff (legal : c.Legal) :
    ConnectProperty.Acceptable c.properties ↔ .topicAliasMaximum ⟨0⟩ ∉ c.properties := by
  constructor
  · intro acceptable member
    exact (acceptable.each _ member).right.right rfl
  · intro absent
    refine ⟨fun p member => ?_, legal.single, legal.method⟩
    obtain ⟨fits, allowed⟩ := legal.properties p member
    exact ⟨fits, allowed, fun is => absent (is ▸ member)⟩

/-- The packet behind client identifier and will. -/
def willed (c : ConnectContent) : Connect := { c.headed with
  clientId := c.clientId
  willProperties := ((c.will.map (·.properties)).map WillProperty.collect).getD {}
  willTopic := c.will.map (·.topic)
  willPayload := c.will.map (·.message) }

private theorem will_reads (legal : c.Legal) :
    Reads (Connect.readWill { c.headed with clientId := c.clientId }) (optionBytes c.will willBytes)
      c.willed := by
  cases present : c.will with
  | none =>
    have unset : ¬ ({ c.headed with clientId := c.clientId } : Connect).connectFlags.willFlag = true := by
      simp [headed, Connect.headedWith, connectFlags, present]
    have same : c.willed = { c.headed with clientId := c.clientId } := by
      simp only [willed, present]
      rfl
    rw [Connect.readWill, if_neg unset, same]
    exact Reads.pure _
  | some will =>
    have set : ({ c.headed with clientId := c.clientId } : Connect).connectFlags.willFlag = true := by
      simp [headed, Connect.headedWith, connectFlags, present]
    have small : (will.properties.flatMap WillProperty.wire).length < 2 ^ 28 := by
      have total := legal.total
      simp only [payload, present, optionBytes, Option.map_some, Option.getD_some, willBytes, propertyBytes,
        List.length_append] at total
      omega
    have properties : Reads (propertyBlock WillProperties.readProperty {})
        (propertyBytes WillProperty.wire will.properties) (WillProperty.collect will.properties) :=
      WillProperties.block_spells.reads ⟨will.properties,
        ⟨legal.willProperties will present, legal.willSingle will present⟩, rfl,
        _, encodeVariableBytes_reads small, rfl⟩
    have topic := stringField_reads TopicName.mk (legal.topic will present)
    have message := binaryField_reads WillPayload.mk (legal.message will present)
    have same : c.willed = { c.headed with
        clientId := c.clientId, willProperties := WillProperty.collect will.properties
        willTopic := some will.topic, willPayload := some will.message } := by
      simp only [willed, present]
      rfl
    rw [Connect.readWill, if_pos set, same]
    simp only [optionBytes, Option.map_some, Option.getD_some, willBytes, List.append_assoc]
    exact properties.bind (topic.bind (message.bind_nil (Reads.pure _)))

private theorem payload_reads (legal : c.Legal) : Reads c.headed.readPayload c.payload c.decoded := by
  have clientId : Reads ClientId.tryFrom (putTruncated (stringBytes c.clientId.value)) c.clientId :=
    stringField_reads ClientId.mk legal.clientId
  have userName := ClientConnect.optional_reads (fun name => { c.willed with username := name })
    rfl fun name present => stringField_reads UserName.mk (legal.userName name present)
  have password := ClientConnect.optional_reads
    (fun password => { c.willed with username := c.userName, password := password })
    rfl fun password present => binaryField_reads Password.mk (legal.password password present)
  have whole : Reads c.headed.readPayload _ _ := clientId.bind ((will_reads legal).bind (userName.bind password))
  rw [payload, List.append_assoc, List.append_assoc]
  exact whole

end ConnectContent

/-- Every legal content is recovered if and only if it has no topic alias maximum of zero. -/
theorem connect_recovered_iff {c : ConnectContent} (legal : c.Legal) (suffix : Bytes) :
    c.Recovered suffix ↔ .topicAliasMaximum ⟨0⟩ ∉ c.properties := by
  have stands : Stands (c.header ++ (c.payload ++ suffix)) 0 c.header c.header.length :=
    ⟨[], c.payload ++ suffix, rfl, rfl, (Nat.zero_add _).symm⟩
  rw [← ConnectContent.acceptable_iff legal]
  constructor
  · rintro ⟨headed, read, _⟩
    obtain ⟨bytes, accepted, stands'⟩ := Connect.decodeVariableHeader_spells.sound read (Nat.zero_le _)
    rw [← stands.unique stands'] at accepted
    exact ((ConnectContent.headed_iff legal).mp accepted).left
  · intro acceptable
    have accepted := (ConnectContent.headed_iff legal).mpr ⟨acceptable, rfl⟩
    refine ⟨c.headed, (Connect.decodeVariableHeader_spells.reads accepted).stands stands, ?_⟩
    exact Connect.decodePayload_eq_ok_iff.mpr
      ⟨_, (ConnectContent.payload_reads legal).start suffix, List.drop_left.symm⟩

/-- A client with properties and a will. -/
def willingClient : ConnectContent where
  keepAlive := ⟨60⟩
  cleanStart := true
  properties := [.receiveMaximum ⟨20⟩, .authenticationMethod ⟨"m"⟩, .userProperty ⟨"k", "v"⟩,
    .authenticationData ⟨[0x01]⟩]
  clientId := ⟨"a"⟩
  will := some { qos := .qos1, retain := true, topic := ⟨"t"⟩, message := ⟨[0x78]⟩
                 properties := [.willDelayInterval ⟨5⟩] }
  userName := some ⟨"u"⟩

/-- The same client, which wants no topic aliases. -/
def aliaslessClient : ConnectContent := { willingClient with properties := [.topicAliasMaximum ⟨0⟩] }

private theorem willingClient_legal : willingClient.Legal where
  properties := by decide
  single := by decide
  method := by
    rintro (_ | ⟨_, _ | ⟨_, front⟩⟩) data rest same
    · cases same
    · cases same
    · simp only [willingClient, List.cons_append, List.cons.injEq] at same
      obtain ⟨rfl, rfl, _⟩ := same
      exact ⟨⟨"m"⟩, List.mem_cons_of_mem _ List.mem_cons_self⟩
  clientId := by decide
  willProperties := by rintro _ ⟨⟩; decide
  willSingle := by rintro _ ⟨⟩; decide
  topic := by rintro _ ⟨⟩; decide
  message := by rintro _ ⟨⟩; decide
  userName := by rintro _ ⟨⟩; decide
  password := by rintro _ ⟨⟩
  total := by decide

private theorem aliaslessClient_legal : aliaslessClient.Legal := { willingClient_legal with
  properties := by decide
  single := by decide
  method := by
    rintro (_ | ⟨_, front⟩) data rest same
    · cases same
    · cases front <;> cases same
  total := by decide }

theorem connect_recovered_iff_willing :
    willingClient.Recovered [0xc0, 0x00] ↔ .topicAliasMaximum ⟨0⟩ ∉ willingClient.properties :=
  connect_recovered_iff willingClient_legal _

/-- A client that wants no topic aliases is turned away. -/
theorem aliaslessClient_rejected : ¬ ∀ (c : ConnectContent) (suffix : Bytes), c.Legal → c.Recovered suffix := by
  intro claim
  obtain ⟨headed, read, _⟩ := claim aliaslessClient [] aliaslessClient_legal
  have rejected : Connect.decodeVariableHeader {} (aliaslessClient.header ++ (aliaslessClient.payload ++ [])) 0 =
      .err .invalidFormat := by decide
  cases rejected.symm.trans read

end Aqua
