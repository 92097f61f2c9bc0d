import Aqua.Proofs.FieldRoundTrip
import Aqua.Proofs.Payload
import Aqua.Spec.Subscription

/-! # Topic filters read back

The variable headers of SUBSCRIBE and UNSUBSCRIBE and the lists of filters behind them. The two
filter loops stop at the announced length, so each is a statement about the position where the
list ends.
-/

namespace Aqua

open Wire Wire.Reader

theorem subscribe_byte : packetOfFirstByte 0x82 = .ok (.subscribe {}) := by decide

theorem unsubscribe_byte : packetOfFirstByte 0xa2 = .ok (.unsubscribe {}) := by decide

/-- Identifier and properties, and what they leave for the payload. -/
theorem Subscribe.decodeVariableHeader_reads (build : Build) (self : Subscribe)
    {version : ProtocolVersion} (packetId : PacketId) {properties : SubscribeProperties}
    {propertyBytes : Bytes} {remainingLength : ℕ}
    (props : Reads (Subscribe.readProperties version self.subProperties) propertyBytes properties)
    (inside : 2 + propertyBytes.length ≤ remainingLength) :
    Reads (self.decodeVariableHeader build remainingLength (some version))
      (be16Bytes packetId.value ++ propertyBytes)
      { self with
        packetId, subProperties := properties
        payloadLength := remainingLength - (2 + propertyBytes.length) } := by
  intro before after
  have first := PacketId.tryFrom_reads packetId before (propertyBytes ++ after)
  have second := props (before ++ be16Bytes packetId.value) after
  simp only [List.append_assoc, List.length_append, be16Bytes_length, Nat.add_assoc]
    at first second ⊢
  refine bind_eq_ok_iff.mpr ⟨_, _, rfl, bind_eq_ok_iff.mpr ⟨_, _, first, bind_eq_ok_iff.mpr ⟨_, _,
    second, bind_eq_ok_iff.mpr ⟨_, _, rfl, bind_eq_ok_iff.mpr ⟨_, _, lift_eq_ok_iff.mpr
      ⟨Build.sub_eq_ok_iff.mpr (.inl ⟨?_, rfl⟩), rfl⟩, ?_⟩⟩⟩⟩⟩
  · omega
  · simp only [pure_apply, Nat.add_sub_cancel_left]

theorem Unsubscribe.decodeVariableHeader_reads (build : Build) (self : Unsubscribe)
    {version : ProtocolVersion} (packetId : PacketId) {properties : Option UnsubscribeProperties}
    {propertyBytes : Bytes} {remainingLength : ℕ}
    (props : Reads (Unsubscribe.readProperties version self.unsubscribeProperties) propertyBytes
      properties)
    (inside : 2 + propertyBytes.length ≤ remainingLength) :
    Reads (self.decodeVariableHeader build remainingLength (some version))
      (be16Bytes packetId.value ++ propertyBytes)
      { self with
        packetId, unsubscribeProperties := properties
        payloadLength := remainingLength - (2 + propertyBytes.length) } := by
  intro before after
  have first := PacketId.tryFrom_reads packetId before (propertyBytes ++ after)
  have second := props (before ++ be16Bytes packetId.value) after
  simp only [List.append_assoc, List.length_append, be16Bytes_length, Nat.add_assoc]
    at first second ⊢
  refine bind_eq_ok_iff.mpr ⟨_, _, rfl, bind_eq_ok_iff.mpr ⟨_, _, first, bind_eq_ok_iff.mpr ⟨version,
    _, rfl, bind_eq_ok_iff.mpr ⟨_, _, second, bind_eq_ok_iff.mpr ⟨_, _, rfl, bind_eq_ok_iff.mpr
      ⟨_, _, lift_eq_ok_iff.mpr ⟨Build.sub_eq_ok_iff.mpr (.inl ⟨?_, rfl⟩), rfl⟩, ?_⟩⟩⟩⟩⟩⟩
  · omega
  · simp only [pure_apply, Nat.add_sub_cancel_left]

theorem SubscribeOption.tryFrom_reads (option : SubscribeOption) :
    Reads SubscribeOption.tryFrom [option.bits] option := by
  apply (Reads.index _).bind_nil
  obtain ⟨handling, ⟨published⟩, ⟨noLocal⟩, qos⟩ := option
  cases handling <;> cases published <;> cases noLocal <;> cases qos <;> exact fun _ _ => rfl

/-- One filter with its options. -/
private theorem subscription_reads {filter : TopicFilter × SubscribeOption}
    (small : (stringBytes filter.1.value).length < 2 ^ 16) (before after : Bytes) :
    ∃ mid, TopicFilter.tryFrom (before ++ (subscriptionBytes filter ++ after)) before.length =
        .ok (filter.1, mid) ∧
      SubscribeOption.tryFrom (before ++ (subscriptionBytes filter ++ after)) mid =
        .ok (filter.2, before.length + (subscriptionBytes filter).length) := by
  have name := stringField_reads TopicFilter.mk small before ([filter.2.bits] ++ after)
  have option := SubscribeOption.tryFrom_reads filter.2
    (before ++ putTruncated (stringBytes filter.1.value)) after
  simp only [subscriptionBytes, TopicFilter.bytes, List.append_assoc, List.length_append, Nat.add_assoc]
    at name option ⊢
  exact ⟨_, name, option⟩

theorem subscriptions_length_pos {filters : List (TopicFilter × SubscribeOption)} (some_filter : filters ≠ []) :
    0 < (filters.flatMap subscriptionBytes).length := by
  obtain ⟨filter, rest, rfl⟩ := List.exists_cons_of_ne_nil some_filter
  simp only [List.flatMap_cons, subscriptionBytes, List.length_append, List.length_singleton]
  omega

/-- The SUBSCRIBE loop reads a list of filters that ends at the announced length. -/
theorem Subscribe.readFilters_reads {filters : List (TopicFilter × SubscribeOption)} (some_filter : filters ≠ [])
    (small : ∀ filter ∈ filters, (stringBytes filter.1.value).length < 2 ^ 16)
    (read : List (TopicFilter × SubscribeOption)) (before after : Bytes) :
    Subscribe.readFilters (before.length + (filters.flatMap subscriptionBytes).length) read
        (before ++ (filters.flatMap subscriptionBytes ++ after)) before.length =
      .ok (read ++ filters, before.length + (filters.flatMap subscriptionBytes).length) := by
  rw [Subscribe.readFilters, loop_eq_ok_iff ((Subscribe.readFilters_lawful _ _).halts _ _)]
  induction filters generalizing read before with
  | nil => exact (some_filter rfl).elim
  | cons filter rest ih =>
    obtain ⟨mid, name, option⟩ := subscription_reads (small filter List.mem_cons_self) before
      (rest.flatMap subscriptionBytes ++ after)
    rw [List.flatMap_cons, List.append_assoc]
    by_cases last : rest = []
    · -- the last filter ends where the payload ends
      subst last
      refine ⟨read, before.length, .refl, ?_⟩
      refine bind_eq_ok_iff.mpr ⟨_, _, name, bind_eq_ok_iff.mpr ⟨_, _, option, ?_⟩⟩
      simp [bind_apply]
    · have more := subscriptions_length_pos last
      obtain ⟨t, final, visits, breaks⟩ := ih last
        (fun f member => small f (List.mem_cons_of_mem _ member))
        (read ++ [filter]) (before ++ subscriptionBytes filter)
      simp only [List.append_assoc, List.length_append, Nat.add_assoc] at visits breaks ⊢
      refine ⟨t, final, .head (loopBody_eq_inl_iff.mpr ?_) visits, by simpa using breaks⟩
      refine bind_eq_ok_iff.mpr ⟨_, _, name, bind_eq_ok_iff.mpr ⟨_, _, option, ?_⟩⟩
      simp only [bind_apply, position_apply, Outcome.ok_bind]
      rw [if_neg (by omega), if_neg (by omega)]
      rfl

/-- A list of filters as long as announced is taken from the front of the buffer. -/
theorem Subscribe.decodePayload_append (self : Subscribe) {filters : List (TopicFilter × SubscribeOption)}
    (blank : self.topicFilters = []) (some_filter : filters ≠ [])
    (small : ∀ filter ∈ filters, (stringBytes filter.1.value).length < 2 ^ 16)
    (length : self.payloadLength = (filters.flatMap subscriptionBytes).length) (s : Bytes) :
    self.decodePayload (filters.flatMap subscriptionBytes ++ s) =
      .ok ({ self with topicFilters := filters }, s) := by
  have run := Subscribe.readFilters_reads some_filter small [] [] s
  have more := subscriptions_length_pos some_filter
  simp only [List.nil_append, List.length_nil, Nat.zero_add] at run
  rw [Subscribe.decodePayload, if_neg (by omega), length, blank, run, Outcome.ok_bind]
  simp only [advance_of_le (List.length_append ▸ Nat.le_add_right _ _), List.drop_left,
    Outcome.ok_bind, Outcome.pure_eq]

/-- The filters of a client that asks for a QoS only. -/
theorem ClientPacket.subscription_eq (filters : List (TopicFilter × QoS)) :
    filters.flatMap ClientPacket.subscription =
      (filters.map fun filter => (filter.1, ({ qos := filter.2 } : SubscribeOption))).flatMap
        subscriptionBytes := by
  have bits (qos : QoS) : ({ qos } : SubscribeOption).bits = qos.bits := by cases qos <;> decide
  rw [List.flatMap_map]
  congr 1
  funext filter
  rw [ClientPacket.subscription, subscriptionBytes, bits, TopicFilter.bytes]

/-- The UNSUBSCRIBE loop reads a list of filters one by one. -/
theorem Unsubscribe.filters_items {filters : List TopicFilter}
    (small : ∀ filter ∈ filters, (stringBytes filter.value).length < 2 ^ 16)
    (read : List TopicFilter) :
    Items Unsubscribe.readFilter read
      (filters.flatMap fun filter => putTruncated (stringBytes filter.value)) (read ++ filters) := by
  induction filters generalizing read with
  | nil =>
    rw [List.append_nil]
    exact .nil read
  | cons filter rest ih =>
    have name : Reads (Unsubscribe.readFilter read) (putTruncated (stringBytes filter.value))
        (read ++ [filter]) :=
      (stringField_reads TopicFilter.mk (small filter List.mem_cons_self)).bind_nil (Reads.pure _)
    have tail := ih (fun f member => small f (List.mem_cons_of_mem _ member)) (read ++ [filter])
    rw [List.append_assoc, List.singleton_append] at tail
    rw [List.flatMap_cons]
    exact .cons name (List.append_ne_nil_of_left_ne_nil (List.cons_ne_nil _ _) _) tail

theorem Unsubscribe.decodePayload_append (self : Unsubscribe) {filters : List TopicFilter}
    (blank : self.topicFilters = [])
    (small : ∀ filter ∈ filters, (stringBytes filter.value).length < 2 ^ 16)
    (length : self.payloadLength =
      (filters.flatMap fun filter => putTruncated (stringBytes filter.value)).length) (s : Bytes) :
    self.decodePayload ((filters.flatMap fun filter => putTruncated (stringBytes filter.value)) ++ s) =
      .ok ({ self with topicFilters := filters }, s) := by
  have run : block MqttError.invalidFormat Unsubscribe.readFilter _ [] _ _ = _ :=
    block_reads (Unsubscribe.filters_items small []) [] s
  simp only [List.nil_append, List.length_nil, Nat.zero_add] at run
  rw [Unsubscribe.decodePayload, length, blank, run, Outcome.ok_bind]
  simp only [advance_of_le (List.length_append ▸ Nat.le_add_right _ _), List.drop_left,
    Outcome.ok_bind, Outcome.pure_eq]

end Aqua
