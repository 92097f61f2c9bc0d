import Aqua.Proofs.FilterRoundTrip
import Aqua.Proofs.Poll
import Aqua.Proofs.PublishRoundTrip
import Mathlib.Data.List.Induction

/-! # SUBSCRIBE and UNSUBSCRIBE read back

The property loop ends at the property length, the filter loop at what the remaining length leaves. Both meet the
end of what was written, so the packet has the properties and the filters that were sent, and the next packet
is left alone.
-/

namespace Aqua

open Wire Wire.Reader

private theorem foldl_pushProperty_stored (list : List UserProperty) :
    list.foldl pushProperty none = storedProperties list := by
  rw [foldl_pushProperty]
  rfl

private theorem SubscribeProperties.readUserProperty_reads (set : SubscribeProperties) {property : UserProperty}
    (short : property.Short) :
    Reads (propertyItem readProperty set) property.bytes
        { set with userProperties := pushProperty set.userProperties property } ∧ property.bytes ≠ [] :=
  propertyItem_reads ((UserProperty.tryFrom_reads short.1 short.2).bind_nil (Reads.pure _))

private theorem SubscribeProperties.readIdentifier_reads (set : SubscribeProperties) {id : SubscriptionIdentifier}
    (small : id.value < 2 ^ 28) :
    Reads (set.readProperty 0x0b) (encodeVariableBytes id.value) { set with subscriptionIdentifier := some id } :=
  (SubscriptionIdentifier.tryFrom_reads small).bind_nil (Reads.pure _)

private theorem SentSubscribe.properties_items {q : SentSubscribe} (fits : q.WellFormed) :
    Items (propertyItem SubscribeProperties.readProperty) {} q.properties q.decoded.subProperties := by
  obtain ⟨earlierShort, laterShort⟩ := List.forall_mem_append.mp fits.user
  let read (subscriptionIdentifier : Option SubscriptionIdentifier) (userProperties : Option (List UserProperty)) :
    SubscribeProperties := { subscriptionIdentifier, userProperties }
  have earlier : Items _ (read none none) _ (read none (q.earlier.foldl pushProperty none)) :=
    Items.list (read none) (fun _ property member =>
      SubscribeProperties.readUserProperty_reads _ (earlierShort property member)) none
  have identifier : Items _ (read none (q.earlier.foldl pushProperty none)) _ (read q.subscriptionIdentifier _) :=
    optionalProperty_items SubscribeProperties.readProperty (fun id => read id (q.earlier.foldl pushProperty none))
      (fun id present => SubscribeProperties.readIdentifier_reads _ (fits.subscriptionIdentifier id present))
  have later : Items _ (read q.subscriptionIdentifier _) _ (read _ (q.later.foldl pushProperty _)) :=
    Items.list (read q.subscriptionIdentifier) (fun _ property member =>
      SubscribeProperties.readUserProperty_reads _ (laterShort property member))
      (q.earlier.foldl pushProperty none)
  have stored := foldl_pushProperty_stored (q.earlier ++ q.later)
  rw [List.foldl_append] at stored
  rw [stored] at later
  exact earlier.append (identifier.append later)

/-- The user properties of an UNSUBSCRIBE so far, and one more. -/
def UnsubscribeProperties.pushUser (set : Option UnsubscribeProperties) (property : UserProperty) :
    Option UnsubscribeProperties :=
  some ⟨(set.getD {}).userProperties ++ [property]⟩

private theorem UnsubscribeProperties.foldl_pushUser (list : List UserProperty) :
    list.foldl pushUser none = (storedProperties list).map mk := by
  induction list using List.reverseRecOn with
  | nil => rfl
  | append_singleton list property ih =>
    rw [List.foldl_append, ih]
    cases list <;> rfl

private theorem UnsubscribeProperties.readUserProperty_reads (set : Option UnsubscribeProperties)
    {property : UserProperty} (short : property.Short) :
    Reads (propertyItem readProperty set) property.bytes (pushUser set property) ∧ property.bytes ≠ [] :=
  propertyItem_reads ((UserProperty.tryFrom_reads short.1 short.2).bind_nil (Reads.pure _))

private theorem SentUnsubscribe.properties_items {q : SentUnsubscribe} (fits : q.WellFormed) :
    Items (propertyItem UnsubscribeProperties.readProperty) none q.properties q.decoded.unsubscribeProperties := by
  have user : Items _ none _ (q.userProperties.foldl UnsubscribeProperties.pushUser none) :=
    Items.list id (fun _ property member =>
      UnsubscribeProperties.readUserProperty_reads _ (fits.user property member)) none
  rw [UnsubscribeProperties.foldl_pushUser] at user
  exact user

/-- Either no properties, or a block of items. -/
theorem propertyBlock_reads_spoken {σ : Type} {property : σ → UInt8 → FieldReader σ} {set next : σ}
    {version : ProtocolVersion} {properties : Bytes} {length : ℕ} (spoken : Spoken version properties)
    (items : Items (propertyItem property) set properties next)
    (inside : (blockBytes version properties).length ≤ length) (small : length < 2 ^ 28) :
    Reads (if version.value ≥ 5 then propertyBlock property set else pure set)
      (blockBytes version properties) next := by
  rcases spoken with ⟨rfl, rfl⟩ | rfl
  · rw [items.eq_of_nil]
    exact Reads.pure set
  · rw [blockBytes, if_pos (by decide), List.length_append] at inside
    exact propertyBlock_reads (by omega) items

private theorem SentSubscribe.emitted {build : Build} {d : Decoder} (done : d.state = .done) {q : SentSubscribe}
    (fits : q.WellFormed) (version : d.protocolVersion = some q.version) (s : Bytes) :
    ∃ next : Decoder, (d.holding (q.wire ++ s)).pollUpTo build 3 = .ok (some (.subscribe q.decoded), next) ∧
      next.state = .done ∧ next.buf = s := by
  have length : q.body.length =
      2 + (blockBytes q.version q.properties).length + (q.filters.flatMap subscriptionBytes).length := by
    simp only [body, List.length_append, be16Bytes_length]
  have properties : Reads (Subscribe.readProperties q.version {}) _ _ :=
    propertyBlock_reads_spoken fits.version (properties_items fits) (by omega) fits.body
  have read := Subscribe.decodeVariableHeader_reads build {} q.packetId properties
    (show _ ≤ q.body.length by omega)
  rw [show q.body.length - _ = (q.filters.flatMap subscriptionBytes).length by omega, ← version] at read
  have taken := Subscribe.decodePayload_append { q.decoded with topicFilters := [] } rfl fits.filters fits.short
    rfl s
  have some_byte := List.ne_nil_of_length_pos (subscriptions_length_pos fits.filters)
  have emitted : (d.holding ((Frame.around 0x82 fits.body).bytes ++ s)).pollUpTo build 3 = _ :=
    Decoder.frame_emitted done subscribe_byte rfl read.map
      (List.append_ne_nil_of_left_ne_nil (List.append_ne_nil_of_right_ne_nil _ some_byte) s)
      (.inr ⟨some_byte, rewrap_eq_ok_iff.mpr ⟨q.decoded, taken, rfl⟩⟩)
  exact ⟨_, emitted, rfl, rfl⟩

private theorem SentUnsubscribe.emitted {build : Build} {d : Decoder} (done : d.state = .done) {q : SentUnsubscribe}
    (fits : q.WellFormed) (version : d.protocolVersion = some q.version) (s : Bytes) :
    ∃ next : Decoder, (d.holding (q.wire ++ s)).pollUpTo build 3 = .ok (some (.unsubscribe q.decoded), next) ∧
      next.state = .done ∧ next.buf = s := by
  have length : q.body.length =
      2 + (blockBytes q.version q.properties).length + (q.filters.flatMap TopicFilter.bytes).length := by
    simp only [body, List.length_append, be16Bytes_length]
  have properties : Reads (Unsubscribe.readProperties q.version none) _ _ :=
    propertyBlock_reads_spoken fits.version (properties_items fits) (by omega) fits.body
  have read := Unsubscribe.decodeVariableHeader_reads build {} q.packetId properties
    (show _ ≤ q.body.length by omega)
  rw [show q.body.length - _ = (q.filters.flatMap TopicFilter.bytes).length by omega, ← version] at read
  have taken := Unsubscribe.decodePayload_append { q.decoded with topicFilters := [] } rfl fits.short rfl s
  have some_byte : q.filters.flatMap TopicFilter.bytes ≠ [] := by
    obtain ⟨filter, rest, same⟩ := List.exists_cons_of_ne_nil fits.filters
    rw [same, List.flatMap_cons]
    exact List.append_ne_nil_of_left_ne_nil (List.cons_ne_nil _ _) _
  have emitted : (d.holding ((Frame.around 0xa2 fits.body).bytes ++ s)).pollUpTo build 3 = _ :=
    Decoder.frame_emitted done unsubscribe_byte rfl read.map
      (List.append_ne_nil_of_left_ne_nil (List.append_ne_nil_of_right_ne_nil _ some_byte) s)
      (.inr ⟨some_byte, rewrap_eq_ok_iff.mpr ⟨q.decoded, taken, rfl⟩⟩)
  exact ⟨_, emitted, rfl, rfl⟩

/-- A decoder between two packets emits every list of filters as it was sent, and leaves what stands behind. -/
theorem filter_lists_read_back (build : Build) {d : Decoder} (done : d.state = .done) :
    (∀ q : SentSubscribe, q.WellFormed → d.protocolVersion = some q.version → ∀ s, ∃ next : Decoder,
      (d.holding (q.wire ++ s)).pollUpTo build 3 = .ok (some (.subscribe q.decoded), next) ∧
        next.state = .done ∧ next.buf = s) ∧
    ∀ q : SentUnsubscribe, q.WellFormed → d.protocolVersion = some q.version → ∀ s, ∃ next : Decoder,
      (d.holding (q.wire ++ s)).pollUpTo build 3 = .ok (some (.unsubscribe q.decoded), next) ∧
        next.state = .done ∧ next.buf = s :=
  ⟨fun _ fits version s => SentSubscribe.emitted done fits version s,
    fun _ fits version s => SentUnsubscribe.emitted done fits version s⟩

/-- Two filters of version 5, with an identifier between two user properties. -/
def watching : SentSubscribe where
  version := ⟨5⟩
  packetId := ⟨2⟩
  earlier := [⟨"source", "test-script"⟩]
  subscriptionIdentifier := some ⟨300⟩
  later := [⟨"topic-index", "1"⟩]
  filters := [(⟨"topic/+"⟩, { retainHandling := .ignoreRetainedInitial, noLocal := ⟨true⟩, qos := .qos1 }),
    (⟨"#"⟩, { retainAsPublished := ⟨true⟩, qos := .qos2 })]

private theorem watching_wellFormed : watching.WellFormed where
  version := .inr rfl
  user := by decide
  subscriptionIdentifier := by
    rintro id ⟨⟩
    decide
  filters := List.cons_ne_nil _ _
  short := by decide
  body := by decide

/-- Both filters are given up again. -/
def unwatching : SentUnsubscribe where
  version := ⟨5⟩
  packetId := ⟨3⟩
  userProperties := [⟨"source", "test-script"⟩]
  filters := [⟨"topic/+"⟩, ⟨"#"⟩]

private theorem unwatching_wellFormed : unwatching.WellFormed where
  version := .inr rfl
  user := by decide
  filters := List.cons_ne_nil _ _
  short := by decide
  body := by decide

theorem filter_lists_read_back_watching :
    (∃ next : Decoder,
      ((Decoder.new.setProtocolVersion (some ⟨5⟩)).holding (watching.wire ++ [0xa2])).pollUpTo ⟨true⟩ 3 =
        .ok (some (.subscribe watching.decoded), next) ∧ next.state = .done ∧ next.buf = [0xa2]) ∧
    ∃ next : Decoder,
      ((Decoder.new.setProtocolVersion (some ⟨5⟩)).holding (unwatching.wire ++ [0xe0])).pollUpTo ⟨true⟩ 3 =
        .ok (some (.unsubscribe unwatching.decoded), next) ∧ next.state = .done ∧ next.buf = [0xe0] := by
  have readBack := filter_lists_read_back ⟨true⟩ (d := Decoder.new.setProtocolVersion (some ⟨5⟩)) rfl
  exact ⟨readBack.1 watching watching_wellFormed rfl [0xa2],
    readBack.2 unwatching unwatching_wellFormed rfl [0xe0]⟩

end Aqua
