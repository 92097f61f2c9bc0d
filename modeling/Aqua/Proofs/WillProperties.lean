import Aqua.Proofs.ConnectProperties

/-! # The property loop of a will

Seven kinds of properties, all but the user property single. No value is tested, and no property needs
another one.
-/

namespace Aqua

open Wire Wire.Reader

namespace WillProperty

/-- The value of a will property, without the test of the set. -/
def readValue (id : UInt8) : FieldReader WillProperty :=
  if id = propertyWillDelayInterval then willDelayInterval <$> WillDelayInterval.tryFrom
  else if id = propertyPayloadFormatIndicatorId then payloadFormatIndicator <$> PayloadFormatIndicator.tryFrom
  else if id = propertyMessageExpiryIntervalId then messageExpiryInterval <$> MessageExpiryInterval.tryFrom
  else if id = propertyContentTypeId then contentType <$> ContentType.tryFrom
  else if id = propertyResponseTopicId then responseTopic <$> ResponseTopic.tryFrom
  else if id = propertyCorrelationDataId then correlationData <$> CorrelationData.tryFrom
  else if id = propertyUserPropertyId then userProperty <$> UserProperty.tryFrom
  else fail .invalidFormat

theorem readValue_spells (code : UInt8) :
    Spells (readValue code) fun p bytes => p.id = code ∧ p.Fits ∧ bytes = p.value := by
  unfold readValue
  refine .ite ?delay fun noDelay => .ite ?format fun noFormat => .ite ?expiry fun noExpiry => .ite ?content
    fun noContent => .ite ?response fun noResponse => .ite ?correlation fun noCorrelation => .ite ?user
    fun noUser => ?other
  case delay =>
    rintro rfl
    refine kind_spells (u32Field_spells _) (fun p => ?_) fun ⟨interval⟩ bytes => ?_
    · cases p <;> simp [id, propertyWillDelayInterval]
    · simp [Fits, value]
  case format =>
    rintro rfl
    refine kind_spells (flagField_spells _ _) (fun p => ?_) fun indicator bytes => ?_
    · cases p <;> simp [id, propertyPayloadFormatIndicatorId]
    · cases indicator <;> simp [Fits, value, PayloadFormatIndicator.toByte]
  case expiry =>
    rintro rfl
    refine kind_spells (u32Field_spells _) (fun p => ?_) fun ⟨interval⟩ bytes => ?_
    · cases p <;> simp [id, propertyMessageExpiryIntervalId]
    · simp [Fits, value]
  case content =>
    rintro rfl
    refine kind_spells (stringField_spells _) (fun p => ?_) fun ⟨content⟩ bytes => ?_
    · cases p <;> simp [id, propertyContentTypeId]
    · simp [Fits, value]
  case response =>
    rintro rfl
    refine kind_spells (stringField_spells _) (fun p => ?_) fun ⟨topic⟩ bytes => ?_
    · cases p <;> simp [id, propertyResponseTopicId]
    · simp [Fits, value]
  case correlation =>
    rintro rfl
    refine kind_spells (binaryField_spells _) (fun p => ?_) fun ⟨data⟩ bytes => ?_
    · cases p <;> simp [id, propertyCorrelationDataId]
    · simp [Fits, value]
  case user =>
    rintro rfl
    refine kind_spells UserProperty.tryFrom_spells (fun p => ?_) fun property bytes => Iff.rfl
    cases p <;> simp [id, propertyUserPropertyId]
  case other =>
    refine (Spells.fail _).congr fun p bytes => iff_of_false not_false ?_
    rintro ⟨rfl, _⟩
    cases p <;> contradiction

theorem read_spells : Spells (propertyOf readValue) fun p bytes => p.Fits ∧ bytes = p.wire :=
  propertyOf_spells readValue_spells

theorem wire_ne_nil (p : WillProperty) : p.wire ≠ [] := List.cons_ne_nil _ _

section Kinds

theorem willDelayInterval?_single : SingleKind id willDelayInterval? :=
  ⟨0x18, by decide, by rintro ⟨_⟩ <;> simp [willDelayInterval?, id]⟩

theorem payloadFormatIndicator?_single : SingleKind id payloadFormatIndicator? :=
  ⟨0x01, by decide, by rintro ⟨_⟩ <;> simp [payloadFormatIndicator?, id]⟩

theorem messageExpiryInterval?_single : SingleKind id messageExpiryInterval? :=
  ⟨0x02, by decide, by rintro ⟨_⟩ <;> simp [messageExpiryInterval?, id]⟩

theorem contentType?_single : SingleKind id contentType? :=
  ⟨0x03, by decide, by rintro ⟨_⟩ <;> simp [contentType?, id]⟩

theorem responseTopic?_single : SingleKind id responseTopic? :=
  ⟨0x08, by decide, by rintro ⟨_⟩ <;> simp [responseTopic?, id]⟩

theorem correlationData?_single : SingleKind id correlationData? :=
  ⟨0x09, by decide, by rintro ⟨_⟩ <;> simp [correlationData?, id]⟩

end Kinds

/-- What the decoder asks of the whole list. -/
structure Acceptable (properties : List WillProperty) : Prop where
  each : ∀ p ∈ properties, p.Fits
  single : properties.Pairwise Compatible

end WillProperty

namespace WillProperties

/-- The set behind a property. -/
def put (s : WillProperties) : WillProperty → WillProperties
  | .willDelayInterval interval => { s with willDelayInterval := some interval }
  | .payloadFormatIndicator indicator => { s with payloadFormatIndicator := some indicator }
  | .messageExpiryInterval interval => { s with messageExpiryInterval := some interval }
  | .contentType content => { s with contentType := some content }
  | .responseTopic topic => { s with responseTopic := some topic }
  | .correlationData data => { s with correlationData := some data }
  | .userProperty property => { s with userProperties := pushProperty s.userProperties property }

/-- The set holds a property of this kind, and another one may not follow. -/
def Taken (s : WillProperties) : WillProperty → Prop
  | .willDelayInterval _ => s.willDelayInterval.isSome
  | .payloadFormatIndicator _ => s.payloadFormatIndicator.isSome
  | .messageExpiryInterval _ => s.messageExpiryInterval.isSome
  | .contentType _ => s.contentType.isSome
  | .responseTopic _ => s.responseTopic.isSome
  | .correlationData _ => s.correlationData ≠ none
  | .userProperty _ => False

theorem readProperty_readsInto (s : WillProperties) (id : UInt8) :
    ReadsInto (fun p => ¬ s.Taken p) s.put (s.readProperty id) (WillProperty.readValue id) := by
  unfold readProperty WillProperty.readValue
  refine .ite (fun _ => ?delay) fun _ => .ite (fun _ => ?format) fun _ => .ite (fun _ => ?expiry)
    fun _ => .ite (fun _ => ?content) fun _ => .ite (fun _ => ?response) fun _ => .ite (fun _ => ?correlation)
    fun _ => .ite (fun _ => ?user) fun _ => .none _
  case delay => exact ReadsInto.single WillProperty.willDelayInterval fun _ => Iff.rfl
  case format => exact ReadsInto.single WillProperty.payloadFormatIndicator fun _ => Iff.rfl
  case expiry => exact ReadsInto.single WillProperty.messageExpiryInterval fun _ => Iff.rfl
  case content => exact ReadsInto.single WillProperty.contentType fun _ => Iff.rfl
  case response => exact ReadsInto.single WillProperty.responseTopic fun _ => Iff.rfl
  case correlation => exact ReadsInto.single WillProperty.correlationData fun _ => Iff.rfl
  case user => exact ReadsInto.always WillProperty.userProperty fun _ => not_false

theorem taken_put (s : WillProperties) (p q : WillProperty) :
    (s.put p).Taken q ↔ s.Taken q ∨ ¬ p.Compatible q := by
  cases p <;> cases q <;> simp [Taken, put, WillProperty.Compatible, WillProperty.id]

theorem admitted_iff {properties : List WillProperty} :
    Admitted (fun s p => p.Fits ∧ ¬ s.Taken p) put {} properties ↔ WillProperty.Acceptable properties := by
  have blank (p : WillProperty) : ¬ ({} : WillProperties).Taken p := by
    cases p <;> simp [Taken]
  rw [admitted_and, admitted_part, admitted_free taken_put]
  simp only [not_not]
  constructor
  · rintro ⟨fits, _, single⟩
    exact ⟨fits, single⟩
  · intro acceptable
    exact ⟨acceptable.each, fun p _ => blank p, acceptable.single⟩

/-- No will property sets the subscription identifier. -/
theorem foldl_put_identifier (s : WillProperties) (properties : List WillProperty) :
    (properties.foldl put s).subscriptionIdentifier = s.subscriptionIdentifier := by
  induction properties generalizing s with
  | nil => rfl
  | cons p properties ih =>
    rw [List.foldl_cons, ih]
    cases p <;> rfl

theorem foldl_put {properties : List WillProperty} (single : properties.Pairwise WillProperty.Compatible) :
    properties.foldl put {} = WillProperty.collect properties := by
  have delay : (properties.foldl put {}).willDelayInterval = _ :=
    WillProperty.willDelayInterval?_single.foldl (by rintro s ⟨_⟩ <;> rfl) rfl single
  have format : (properties.foldl put {}).payloadFormatIndicator = _ :=
    WillProperty.payloadFormatIndicator?_single.foldl (by rintro s ⟨_⟩ <;> rfl) rfl single
  have expiry : (properties.foldl put {}).messageExpiryInterval = _ :=
    WillProperty.messageExpiryInterval?_single.foldl (by rintro s ⟨_⟩ <;> rfl) rfl single
  have content : (properties.foldl put {}).contentType = _ :=
    WillProperty.contentType?_single.foldl (by rintro s ⟨_⟩ <;> rfl) rfl single
  have response : (properties.foldl put {}).responseTopic = _ :=
    WillProperty.responseTopic?_single.foldl (by rintro s ⟨_⟩ <;> rfl) rfl single
  have correlation : (properties.foldl put {}).correlationData = _ :=
    WillProperty.correlationData?_single.foldl (by rintro s ⟨_⟩ <;> rfl) rfl single
  have user : (properties.foldl put {}).userProperties =
      collected ([] ++ properties.filterMap WillProperty.userProperty?) :=
    foldl_pushed WillProperties.userProperties WillProperty.userProperty? (by rintro s ⟨_⟩ <;> rfl) rfl
      properties
  have identifier : (properties.foldl put {}).subscriptionIdentifier = none :=
    foldl_put_identifier {} properties
  generalize properties.foldl put {} = set at *
  rw [WillProperty.collect, ← delay, ← format, ← expiry, ← content, ← response, ← correlation,
    ← List.nil_append (properties.filterMap _), ← user, ← identifier]

/-- The property block of a will: the accepted lists, and the set each of them stands for. -/
theorem block_spells : Spells (propertyBlock readProperty {}) fun set bytes => ∃ properties,
    WillProperty.Acceptable properties ∧ set = WillProperty.collect properties ∧
      BlockOf WillProperty.wire properties bytes :=
  propertyBlock_collects (fun s => propertyItem_spells WillProperty.read_spells s.readProperty_readsInto)
    WillProperty.wire_ne_nil admitted_iff fun acceptable => foldl_put acceptable.single

end WillProperties

end Aqua
