import Aqua.Proofs.Payload
import Aqua.Spec.Grammar

/-! # Fields and properties obey the grammar

Each field reader meets its format. Each property loop meets the block of its table: the set it
builds up holds exactly the single properties among the identifiers seen, so that a second
occurrence is rejected on both sides.
-/

namespace Aqua

open Wire Wire.Reader

theorem decodeUtf8String_meets : Meets decodeUtf8String Grammar.string := by
  rw [decodeUtf8String, decodeU16Bytes_eq]
  apply Describes.u16.bind
  rintro length _ rfl
  refine (Describes.sliceOr _ _).bind ?_
  rintro content _ rfl
  cases known : fromUtf8 content with
  | none => exact .fail_guard (not_not.mpr rfl)
  | some s => exact .pure_guard (Option.some_ne_none s) trivial

theorem stringField_meets {α : Type} (wrap : String → α) : Meets (stringField wrap) Grammar.string :=
  decodeUtf8String_meets.map fun _ _ => id

theorem UserProperty.tryFrom_meets : Meets UserProperty.tryFrom Grammar.stringPair :=
  decodeUtf8String_meets.bind fun _ _ _ => decodeUtf8String_meets.bind_pure fun _ _ => id

theorem binary_describes : Describes binary Grammar.binary Eq :=
  Describes.u16.bind fun _ _ same => same ▸ .slice _

theorem binaryField_meets {α : Type} (wrap : Bytes → α) :
    Meets (binaryField wrap) Grammar.binary.ignore :=
  binary_describes.ignore.map fun _ _ => id

theorem ProtocolName.tryFrom_meets : Meets ProtocolName.tryFrom Grammar.protocolName := by
  apply binary_describes.bind
  rintro content _ rfl
  cases known : fromUtf8 content with
  | none => exact .fail_guard (not_not.mpr rfl)
  | some s => exact .pure_guard (Option.some_ne_none s) trivial

theorem PacketId.tryFrom_meets : Meets PacketId.tryFrom Format.u16.ignore :=
  Describes.u16.ignore.map fun _ _ => id

theorem nonzeroU16Field_meets {α : Type} (wrap : UInt16 → α) :
    Meets (nonzeroU16Field wrap) Grammar.nonzero16 := by
  apply Describes.u16.bind
  rintro value _ rfl
  exact .ite_not_guard not_not.symm trivial

theorem u32Field_meets {α : Type} (wrap : UInt32 → α) : Meets (u32Field wrap) Format.u32.ignore :=
  (Describes.u32Slice _).ignore.map fun _ _ => id

theorem MaximumPacketSize.tryFrom_meets : Meets MaximumPacketSize.tryFrom Grammar.nonzero32 := by
  refine (Describes.u32Slice _).bind ?_
  rintro value _ rfl
  exact .ite_not_guard not_not.symm trivial

theorem flagField_meets {α : Type} (zero one : α) : Meets (flagField zero one) Grammar.flag := by
  apply Describes.index.bind
  rintro value _ rfl
  by_cases first : value = 0
  · rw [if_pos first]
    exact .pure_guard (.inl first) trivial
  · rw [if_neg first]
    exact .ite_guard (or_iff_right first).symm trivial

theorem decodeDigits_ne_panic (buf : Bytes) (digits inc acc pos : ℕ) :
    decodeDigits digits inc acc buf pos ≠ .panic := by
  induction digits generalizing inc acc pos with
  | zero => exact fun wrong => by cases wrong
  | succ digits ih =>
    rw [decodeDigits, ne_eq, bind_apply, Outcome.bind_eq_panic_iff, (Describes.indexOr _).cut]
    rintro (wrong | ⟨byte, _, stuck⟩)
    · exact wrong
    · split at stuck
      · cases stuck
      split at stuck
      · cases stuck
      · exact ih _ _ _ stuck

theorem decodeVariableLength_describes :
    Describes decodeVariableLength Grammar.variableLength Eq where
  sound read := ⟨_, read, rfl⟩
  complete spans := ⟨_, spans, rfl⟩
  cut := iff_of_false (decodeDigits_ne_panic _ _ _ _ _) id

theorem SubscriptionIdentifier.tryFrom_meets :
    Meets SubscriptionIdentifier.tryFrom Grammar.variableLength.ignore :=
  decodeVariableLength_describes.ignore.map fun _ _ => id

/-- The set built up agrees with the identifiers seen: it holds a single property exactly when its
identifier is among them. An entry is an identifier and whether the set holds that property. -/
def Tracks (singles : List (UInt8 × Bool)) (seen : List UInt8) : Prop :=
  ∀ entry ∈ singles, entry.2 = true ↔ entry.1 ∈ seen

section Tables

variable {singles singles' : List (UInt8 × Bool)} {id : UInt8} {seen : List UInt8}

/-- An empty set agrees with no identifier. -/
theorem Tracks.fresh (empty : singles.all (fun entry => !entry.2) = true) : Tracks singles [] := by
  intro entry member
  have absent := List.all_eq_true.mp empty entry member
  rw [Bool.not_eq_true'] at absent
  rw [absent]
  exact iff_of_false Bool.false_ne_true List.not_mem_nil

theorem Tracks.present {held : Bool} (tracks : Tracks singles seen)
    (entry : singles.lookup id = some held) : held = true ↔ id ∈ seen := by
  obtain ⟨before, after, rfl, _⟩ := List.lookup_eq_some_iff.mp entry
  exact tracks (id, held) (List.mem_append_right before List.mem_cons_self)

/-- Storing a property adds its identifier to those seen. -/
theorem Tracks.store (tracks : Tracks singles seen)
    (stored : singles' = singles.map fun entry => (entry.1, entry.1 == id || entry.2)) :
    Tracks singles' (id :: seen) := by
  subst stored
  intro stored member
  obtain ⟨entry, before, rfl⟩ := List.mem_map.mp member
  rw [Bool.or_eq_true, beq_iff_eq, List.mem_cons, tracks entry before]

variable {α σ : Type} {same : σ → List UInt8 → Prop} {rule : Grammar.PropertyRule}
  {rest : Option Grammar.PropertyRule}

/-- A property that is read and stored. -/
theorem stored_describes {r : FieldReader α} {store : α → σ} (meets : Meets r rule.value)
    (fresh : rule.once = true → id ∉ seen)
    (keeps : ∀ a, same (store a) (id :: seen)) :
    Describes (r >>= fun a => pure (store a)) (rule.format id seen) same := by
  refine ⟨fun read => ?_, fun spans => ?_, ?_⟩
  · obtain ⟨a, mid, inner, stored⟩ := bind_eq_ok_iff.mp read
    cases stored
    obtain ⟨_, spans, _⟩ := meets.sound inner
    exact ⟨_, ⟨fresh, spans, rfl⟩, keeps a⟩
  · obtain ⟨_, spans, rfl⟩ := spans
    obtain ⟨a, read, _⟩ := meets.complete spans
    exact ⟨store a, bind_eq_ok_iff.mpr ⟨a, _, read, rfl⟩, keeps a⟩
  · intro buf pos
    rw [bind_apply, Outcome.bind_eq_panic_iff, meets.cut]
    constructor
    · rintro (cut | ⟨_, _, wrong⟩)
      · exact ⟨fresh, cut⟩
      · cases wrong
    · exact fun cut => .inl cut.2

/-- A property that may occur any number of times. -/
theorem repeated_describes {r : FieldReader α} {store : α → σ} (meets : Meets r rule.value)
    (repeated : rule.once = false)
    (keeps : ∀ a, same (store a) (id :: seen)) :
    Describes (r >>= fun a => pure (store a)) (rule.format id seen) same :=
  stored_describes meets (fun once => absurd (repeated.symm.trans once) Bool.false_ne_true) keeps

/-- A property that may occur once, and whose presence in the set is tested first. -/
theorem single_describes {c : Prop} [Decidable c] {r : FieldReader α} {store : α → σ}
    (meets : Meets r rule.value) (once : rule.once = true) (present : c ↔ id ∈ seen)
    (keeps : ∀ a, same (store a) (id :: seen)) :
    Describes (if c then fail .invalidFormat else r >>= fun a => pure (store a))
      (rule.format id seen) same := by
  split
  · next duplicate =>
    have again := present.mp duplicate
    refine ⟨fun read => ?_, fun spans => (spans.1 once again).elim, ?_⟩
    · cases read
    · exact iff_of_false (fun wrong => by cases wrong) fun cut => cut.1 once again
  · next absent => exact stored_describes meets (fun _ => mt present.mpr absent) keeps

/-- One entry of a table: the property of this identifier, or what the rest of the table says. -/
theorem entry_describes {r r' : FieldReader σ} (a : UInt8)
    (here : id = a → Describes r (rule.format id seen) same)
    (there : Describes r' (Grammar.property rest id seen) same) :
    Describes (if id = a then r else r')
      (Grammar.property (if id = a then some rule else rest) id seen) same := by
  split
  · next known => exact here known
  · exact there

end Tables

/-- A property loop that follows a table reads the blocks of the table. -/
theorem propertyBlock_meets {σ : Type} {property : σ → UInt8 → FieldReader σ}
    {table : Grammar.PropertyTable} {legal : List UInt8 → Prop} {same : σ → List UInt8 → Prop} {set : σ}
    (lawful : ∀ set id, Lawful (property set id))
    (describes : ∀ {set seen}, same set seen → ∀ id,
      Describes (property set id) ((Grammar.property (table id) id seen).such legal) same)
    (related : same set []) : Meets (propertyBlock property set) (table.block legal) := by
  apply decodeVariableLength_describes.bind
  rintro length _ rfl
  apply Describes.position.bind
  rintro start _ rfl
  refine (Describes.block (fun set seen tracks => ?_) ?_ ?_ related).ignore
  · apply Describes.index.bind
    rintro id _ rfl
    exact describes tracks id
  · exact fun set => Lawful.index.bind fun id => lawful set id
  · exact fun set => index_progresses.bind fun id => lawful set id

/-- The same for a table without a condition on the set as a whole. -/
theorem propertyBlock_meets_any {σ : Type} {property : σ → UInt8 → FieldReader σ}
    {table : Grammar.PropertyTable} {same : σ → List UInt8 → Prop} {set : σ}
    (lawful : ∀ set id, Lawful (property set id))
    (describes : ∀ {set seen}, same set seen → ∀ id,
      Describes (property set id) (Grammar.property (table id) id seen) same)
    (related : same set []) : Meets (propertyBlock property set) (table.block Grammar.anySet) :=
  propertyBlock_meets lawful (fun related id => (describes related id).such fun _ _ _ => trivial) related

/-- The properties a PUBLISH may carry once. -/
def PublishProperties.singles (set : PublishProperties) : List (UInt8 × Bool) :=
  [(propertyTopicAliasId, set.topicAlias.isSome), (propertyResponseTopicId, set.responseTopic.isSome),
    (propertyCorrelationDataId, set.correlationData.isSome),
    (propertyContentTypeId, set.contentType.isSome)]

theorem PublishProperties.readProperty_describes {set : PublishProperties} {seen : List UInt8}
    (tracks : Tracks set.singles seen) (id : UInt8) :
    Describes (set.readProperty id) (Grammar.property (Grammar.publishTable id) id seen)
      fun set seen => Tracks set.singles seen := by
  unfold PublishProperties.readProperty Grammar.publishTable
  apply entry_describes
  · rintro rfl
    exact repeated_describes (flagField_meets _ _) rfl fun _ => tracks.store rfl
  apply entry_describes
  · rintro rfl
    exact repeated_describes (u32Field_meets _) rfl fun _ => tracks.store rfl
  apply entry_describes
  · rintro rfl
    exact single_describes (nonzeroU16Field_meets _) rfl
      (Option.isSome_iff_ne_none.symm.trans (tracks.present rfl))
      fun _ => tracks.store rfl
  apply entry_describes
  · rintro rfl
    exact single_describes (stringField_meets _) rfl
      (Option.isSome_iff_ne_none.symm.trans (tracks.present rfl))
      fun _ => tracks.store rfl
  apply entry_describes
  · rintro rfl
    exact single_describes (binaryField_meets _) rfl
      (Option.isSome_iff_ne_none.symm.trans (tracks.present rfl))
      fun _ => tracks.store rfl
  apply entry_describes
  · rintro rfl
    exact repeated_describes UserProperty.tryFrom_meets rfl fun _ => tracks.store rfl
  apply entry_describes
  · rintro rfl
    exact repeated_describes SubscriptionIdentifier.tryFrom_meets rfl fun _ => tracks.store rfl
  apply entry_describes
  · rintro rfl
    exact single_describes (stringField_meets _) rfl
      (Option.isSome_iff_ne_none.symm.trans (tracks.present rfl))
      fun _ => tracks.store rfl
  exact .fail _

theorem SubscribeProperties.readProperty_describes {set : SubscribeProperties} {seen : List UInt8}
    (tracks : Tracks [] seen) (id : UInt8) :
    Describes (set.readProperty id) (Grammar.property (Grammar.subscribeTable id) id seen)
      fun _ seen => Tracks [] seen := by
  unfold SubscribeProperties.readProperty Grammar.subscribeTable
  apply entry_describes
  · rintro rfl
    exact repeated_describes UserProperty.tryFrom_meets rfl fun _ => tracks.store rfl
  apply entry_describes
  · rintro rfl
    exact repeated_describes SubscriptionIdentifier.tryFrom_meets rfl fun _ => tracks.store rfl
  exact .fail _

theorem UnsubscribeProperties.readProperty_describes {set : Option UnsubscribeProperties} {seen : List UInt8}
    (tracks : Tracks [] seen) (id : UInt8) :
    Describes (UnsubscribeProperties.readProperty set id) (Grammar.property (Grammar.unsubscribeTable id) id seen)
      fun _ seen => Tracks [] seen := by
  unfold UnsubscribeProperties.readProperty Grammar.unsubscribeTable
  apply entry_describes
  · rintro rfl
    exact repeated_describes UserProperty.tryFrom_meets rfl fun _ => tracks.store rfl
  exact .fail _

/-- The properties a CONNECT may carry once. -/
def ConnectProperties.singles (set : ConnectProperties) : List (UInt8 × Bool) :=
  [(propertySessionExpiryInterval, set.sessionExpiryInterval.isSome),
    (propertyRecieveMaximum, set.receiveMaximum.isSome),
    (propertyMaximumPacketSize, set.maximumPacketSize.isSome),
    (propertyTopicAliasMaximum, set.topicAliasMaximum.isSome),
    (propertyRequestResponseInformation, set.requestResponseInformation.isSome),
    (propertyRequestProblemInformation, set.requestProblemInformation.isSome),
    (propertyAuthenticationMethod, set.authenticationMethod.isSome),
    (propertyAuthenticationData, set.authenticationData.isSome)]

theorem ConnectProperties.readValue_describes {set : ConnectProperties} {seen : List UInt8}
    (tracks : Tracks set.singles seen) (id : UInt8) :
    Describes (set.readValue id) (Grammar.property (Grammar.connectTable id) id seen)
      fun set seen => Tracks set.singles seen := by
  unfold ConnectProperties.readValue Grammar.connectTable
  apply entry_describes
  · rintro rfl
    exact single_describes (u32Field_meets _) rfl
      (tracks.present rfl)
      fun _ => tracks.store rfl
  apply entry_describes
  · rintro rfl
    exact single_describes (nonzeroU16Field_meets _) rfl
      (tracks.present rfl)
      fun _ => tracks.store rfl
  apply entry_describes
  · rintro rfl
    exact single_describes MaximumPacketSize.tryFrom_meets rfl
      (tracks.present rfl)
      fun _ => tracks.store rfl
  apply entry_describes
  · rintro rfl
    exact single_describes (nonzeroU16Field_meets _) rfl
      (tracks.present rfl)
      fun _ => tracks.store rfl
  apply entry_describes
  · rintro rfl
    exact single_describes (flagField_meets _ _) rfl
      (tracks.present rfl)
      fun _ => tracks.store rfl
  apply entry_describes
  · rintro rfl
    exact single_describes (flagField_meets _ _) rfl
      (tracks.present rfl)
      fun _ => tracks.store rfl
  apply entry_describes
  · rintro rfl
    exact repeated_describes UserProperty.tryFrom_meets rfl fun _ => tracks.store rfl
  apply entry_describes
  · rintro rfl
    exact single_describes (stringField_meets _) rfl
      (tracks.present rfl)
      fun _ => tracks.store rfl
  apply entry_describes
  · rintro rfl
    exact single_describes (binaryField_meets _) rfl
      (tracks.present rfl)
      fun _ => tracks.store rfl
  exact .fail _

theorem ConnectProperties.readProperty_describes {set : ConnectProperties} {seen : List UInt8}
    (tracks : Tracks set.singles seen) (id : UInt8) :
    Describes (set.readProperty id)
      ((Grammar.property (Grammar.connectTable id) id seen).such Grammar.authenticated)
      fun set seen => Tracks set.singles seen := by
  refine (readValue_describes tracks id).such_ite fun set seen tracks => ?_
  have data := tracks.present (show set.singles.lookup propertyAuthenticationData = some _ from rfl)
  have method := tracks.present (show set.singles.lookup propertyAuthenticationMethod = some _ from rfl)
  rw [Grammar.authenticated, ← data, ← method, Classical.not_imp, Option.isSome_iff_ne_none,
    Option.isSome_iff_ne_none, not_not]

/-- The properties a will may carry once. -/
def WillProperties.singles (set : WillProperties) : List (UInt8 × Bool) :=
  [(propertyWillDelayInterval, set.willDelayInterval.isSome),
    (propertyPayloadFormatIndicatorId, set.payloadFormatIndicator.isSome),
    (propertyMessageExpiryIntervalId, set.messageExpiryInterval.isSome),
    (propertyContentTypeId, set.contentType.isSome),
    (propertyResponseTopicId, set.responseTopic.isSome),
    (propertyCorrelationDataId, set.correlationData.isSome)]

theorem WillProperties.readProperty_describes {set : WillProperties} {seen : List UInt8}
    (tracks : Tracks set.singles seen) (id : UInt8) :
    Describes (set.readProperty id) (Grammar.property (Grammar.willTable id) id seen)
      fun set seen => Tracks set.singles seen := by
  unfold WillProperties.readProperty Grammar.willTable
  apply entry_describes
  · rintro rfl
    exact single_describes (u32Field_meets _) rfl
      (tracks.present rfl)
      fun _ => tracks.store rfl
  apply entry_describes
  · rintro rfl
    exact single_describes (flagField_meets _ _) rfl
      (tracks.present rfl)
      fun _ => tracks.store rfl
  apply entry_describes
  · rintro rfl
    exact single_describes (u32Field_meets _) rfl
      (tracks.present rfl)
      fun _ => tracks.store rfl
  apply entry_describes
  · rintro rfl
    exact single_describes (stringField_meets _) rfl
      (tracks.present rfl)
      fun _ => tracks.store rfl
  apply entry_describes
  · rintro rfl
    exact single_describes (stringField_meets _) rfl
      (tracks.present rfl)
      fun _ => tracks.store rfl
  apply entry_describes
  · rintro rfl
    exact single_describes (binaryField_meets _) rfl
      (Option.isSome_iff_ne_none.symm.trans (tracks.present rfl))
      fun _ => tracks.store rfl
  apply entry_describes
  · rintro rfl
    exact repeated_describes UserProperty.tryFrom_meets rfl fun _ => tracks.store rfl
  exact .fail _

/-- The properties a DISCONNECT may carry once. -/
def DisconnectProperties.singles (set : DisconnectProperties) : List (UInt8 × Bool) :=
  [(propertySessionExpiryInterval, set.sessionExpiryInterval.isSome),
    (propertyReasonStringId, set.reasonString.isSome)]

theorem DisconnectProperties.readProperty_describes {set : DisconnectProperties} {seen : List UInt8}
    (tracks : Tracks set.singles seen) (id : UInt8) :
    Describes (set.readProperty id) (Grammar.property (Grammar.disconnectTable id) id seen)
      fun set seen => Tracks set.singles seen := by
  unfold DisconnectProperties.readProperty Grammar.disconnectTable
  apply entry_describes
  · rintro rfl
    exact single_describes (u32Field_meets _) rfl
      (tracks.present rfl)
      fun _ => tracks.store rfl
  apply entry_describes
  · rintro rfl
    exact repeated_describes UserProperty.tryFrom_meets rfl fun _ => tracks.store rfl
  apply entry_describes
  · rintro rfl
    exact single_describes (stringField_meets _) rfl
      (tracks.present rfl)
      fun _ => tracks.store rfl
  apply entry_describes
  · rintro rfl
    exact repeated_describes (stringField_meets _) rfl fun _ => tracks.store rfl
  exact .fail _

theorem PubrelProperties.readProperty_describes {set : Option PubrelProperties} {seen : List UInt8}
    (tracks : Tracks [] seen) (id : UInt8) :
    Describes (PubrelProperties.readProperty set id) (Grammar.property (Grammar.pubrelTable id) id seen)
      fun _ seen => Tracks [] seen := by
  unfold PubrelProperties.readProperty Grammar.pubrelTable
  apply entry_describes
  · rintro rfl
    exact repeated_describes UserProperty.tryFrom_meets rfl fun _ => tracks.store rfl
  apply entry_describes
  · rintro rfl
    exact repeated_describes decodeUtf8String_meets rfl fun _ => tracks.store rfl
  exact .fail _

end Aqua
