import Aqua.Proofs.FieldSpells
import Aqua.Spec.ConnectContent

/-! # The property loops of CONNECT

One round of a property loop reads a property and stores it, if the set still has room for it. So a loop
accepts the lists whose properties are admitted one after the other, and the set it ends with is the one the
list stands for.
-/

namespace Aqua

open Wire Wire.Reader

section Property

variable {π σ α : Type}

/-- A property on its own: identifier and value. -/
def propertyOf (value : UInt8 → FieldReader π) : FieldReader π := do
  let id ← index
  value id

/-- A value behind the identifier of one kind of property. -/
theorem kind_spells {r : FieldReader α} {W : α → Bytes → Prop} (spells : Spells r W) {id : π → UInt8}
    {fits : π → Prop} {value : π → Bytes} {mk : α → π} {code : UInt8} (is : ∀ p, id p = code ↔ ∃ a, mk a = p)
    (same : ∀ a bytes, W a bytes ↔ fits (mk a) ∧ bytes = value (mk a)) :
    Spells (mk <$> r) fun p bytes => id p = code ∧ fits p ∧ bytes = value p := by
  refine spells.map.congr fun p bytes => ?_
  rw [is]
  constructor
  · rintro ⟨a, rfl, related⟩
    exact ⟨⟨a, rfl⟩, (same a bytes).mp related⟩
  · rintro ⟨⟨a, rfl⟩, related⟩
    exact ⟨a, rfl, (same a bytes).mpr related⟩

theorem propertyOf_spells {read : UInt8 → FieldReader π} {id : π → UInt8} {fits : π → Prop}
    {value : π → Bytes}
    (spells : ∀ code, Spells (read code) fun p bytes => id p = code ∧ fits p ∧ bytes = value p) :
    Spells (propertyOf read) fun p bytes => fits p ∧ bytes = id p :: value p := by
  refine (Spells.index.bind spells).congr fun p bytes => ?_
  constructor
  · rintro ⟨_, _, _, rfl, ⟨rfl, fits, rfl⟩, rfl⟩
    exact ⟨fits, rfl⟩
  · rintro ⟨fits, rfl⟩
    exact ⟨id p, _, _, rfl, ⟨rfl, fits, rfl⟩, rfl⟩

/-- What `r` returns is what `q` reads, if it is admitted, put into the set. -/
def ReadsInto (admits : π → Prop) (put : π → σ) (r : FieldReader σ) (q : FieldReader π) : Prop :=
  ∀ buf pos t next, r buf pos = .ok (t, next) ↔ ∃ p, q buf pos = .ok (p, next) ∧ admits p ∧ t = put p

namespace ReadsInto

variable {admits : π → Prop} {put : π → σ}

theorem always {r : FieldReader α} (mk : α → π) (free : ∀ a, admits (mk a)) :
    ReadsInto admits put (r >>= fun a => pure (put (mk a))) (mk <$> r) := by
  intro buf pos t next
  constructor
  · intro read
    obtain ⟨a, mid, inner, stored⟩ := bind_eq_ok_iff.mp read
    cases stored
    exact ⟨mk a, map_eq_ok_iff.mpr ⟨a, inner, rfl⟩, free a, rfl⟩
  · rintro ⟨p, read, _, rfl⟩
    obtain ⟨a, inner, rfl⟩ := map_eq_ok_iff.mp read
    exact bind_eq_ok_iff.mpr ⟨a, next, inner, rfl⟩

/-- Nothing is read when the place is taken. -/
theorem guarded {c : Prop} [Decidable c] {r : FieldReader σ} {e : MqttError} (mk : α → π) {q : FieldReader α}
    (taken : ∀ a, admits (mk a) → ¬ c) (free : ¬ c → ReadsInto admits put r (mk <$> q)) :
    ReadsInto admits put (if c then fail e else r) (mk <$> q) := by
  intro buf pos t next
  by_cases occupied : c
  · rw [if_pos occupied]
    refine iff_of_false (fun read => by cases read) ?_
    rintro ⟨p, read, admitted, _⟩
    obtain ⟨a, _, rfl⟩ := map_eq_ok_iff.mp read
    exact taken a admitted occupied
  · rw [if_neg occupied]
    exact free occupied buf pos t next

/-- A value that is read if the set has none yet. -/
theorem single {c : Prop} [Decidable c] {r : FieldReader α} (mk : α → π)
    (free : ∀ a, admits (mk a) ↔ ¬ c) :
    ReadsInto admits put (if c then fail .invalidFormat else r >>= fun a => pure (put (mk a))) (mk <$> r) :=
  guarded mk (fun a => (free a).mp) fun vacant => always mk fun a => (free a).mpr vacant

/-- A value that is read and tested, if the set has none yet. -/
theorem tested {c : Prop} [Decidable c] {β : Type} {r : FieldReader α} {bad : α → Prop} [DecidablePred bad]
    {wrap : α → β} (mk : β → π) (free : ∀ a, admits (mk (wrap a)) ↔ ¬ c ∧ ¬ bad a) :
    ReadsInto admits put (if c then fail .invalidFormat else
        (r >>= fun a => if bad a then fail .invalidFormat else pure (wrap a)) >>= fun b => pure (put (mk b)))
      ((fun a => mk (wrap a)) <$> r) := by
  refine guarded (fun a => mk (wrap a)) (fun a admitted => ((free a).mp admitted).left) ?_
  intro vacant buf pos t next
  constructor
  · intro read
    obtain ⟨b, mid, whole, stored⟩ := bind_eq_ok_iff.mp read
    cases stored
    obtain ⟨a, mid, inner, kept⟩ := bind_eq_ok_iff.mp whole
    split at kept
    · cases kept
    · next good =>
      cases kept
      exact ⟨_, map_eq_ok_iff.mpr ⟨a, inner, rfl⟩, (free a).mpr ⟨vacant, good⟩, rfl⟩
  · rintro ⟨p, read, admitted, rfl⟩
    obtain ⟨a, inner, rfl⟩ := map_eq_ok_iff.mp read
    refine bind_eq_ok_iff.mpr ⟨wrap a, next, bind_eq_ok_iff.mpr ⟨a, next, inner, ?_⟩, rfl⟩
    rw [if_neg ((free a).mp admitted).right]
    rfl

theorem ite {c : Prop} [Decidable c] {r r' : FieldReader σ} {q q' : FieldReader π}
    (yes : c → ReadsInto admits put r q) (no : ¬ c → ReadsInto admits put r' q') :
    ReadsInto admits put (if c then r else r') (if c then q else q') := by
  split
  · next holds => exact yes holds
  · next fails => exact no fails

theorem none (e : MqttError) : ReadsInto admits put (fail e) (fail e) := by
  intro buf pos t next
  refine iff_of_false (fun read => by cases read) ?_
  rintro ⟨p, read, _⟩
  cases read

/-- The set is looked at after the property was stored. -/
theorem checked {r : FieldReader σ} {q : FieldReader π} {e : MqttError} (into : ReadsInto admits put r q)
    {bad good : σ → Prop} [DecidablePred bad] (apart : ∀ s, bad s ↔ ¬ good s) :
    ReadsInto (fun p => admits p ∧ good (put p)) put (r >>= fun s => if bad s then fail e else pure s) q := by
  intro buf pos t next
  constructor
  · intro read
    obtain ⟨s, mid, inner, kept⟩ := bind_eq_ok_iff.mp read
    obtain ⟨p, found, admitted, rfl⟩ := (into _ _ _ _).mp inner
    split at kept
    · cases kept
    · next fine =>
      cases kept
      exact ⟨p, found, ⟨admitted, not_not.mp (mt (apart _).mpr fine)⟩, rfl⟩
  · rintro ⟨p, found, ⟨admitted, fine⟩, rfl⟩
    refine bind_eq_ok_iff.mpr ⟨put p, next, (into _ _ _ _).mpr ⟨p, found, admitted, rfl⟩, ?_⟩
    rw [if_neg fun wrong => (apart _).mp wrong fine]
    rfl

end ReadsInto

/-- One round of a loop accepts the properties that fit and that the set admits. -/
theorem propertyItem_spells {property : σ → UInt8 → FieldReader σ} {read : UInt8 → FieldReader π}
    {fits admits : π → Prop} {put : π → σ} {wire : π → Bytes} {set : σ}
    (spells : Spells (propertyOf read) fun p bytes => fits p ∧ bytes = wire p)
    (into : ∀ id, ReadsInto admits put (property set id) (read id)) :
    Spells (propertyItem property set) fun t bytes =>
      ∃ p, (fits p ∧ admits p) ∧ t = put p ∧ bytes = wire p where
  reads related := by
    obtain ⟨p, ⟨fit, admitted⟩, rfl, rfl⟩ := related
    intro before after
    obtain ⟨id, mid, first, inner⟩ := bind_eq_ok_iff.mp (spells.reads ⟨fit, rfl⟩ before after)
    exact bind_eq_ok_iff.mpr ⟨id, mid, first, (into id _ _ _ _).mpr ⟨p, inner, admitted, rfl⟩⟩
  sound read inside := by
    obtain ⟨id, mid, first, stored⟩ := bind_eq_ok_iff.mp read
    obtain ⟨p, inner, admitted, rfl⟩ := (into id _ _ _ _).mp stored
    obtain ⟨_, ⟨fit, rfl⟩, stands⟩ := spells.sound (bind_eq_ok_iff.mpr ⟨id, mid, first, inner⟩) inside
    exact ⟨_, ⟨p, ⟨fit, admitted⟩, rfl, rfl⟩, stands⟩

end Property

section Lists

variable {π σ α : Type} {store : σ → π → σ}

theorem pushProperty_collected (list : List α) (a : α) :
    pushProperty (collected list) a = collected (list ++ [a]) := by
  cases list <;> rfl

/-- A field that keeps every value it meets ends with all of them, in their order. -/
theorem foldl_pushed (field : σ → Option (List α)) (value : π → Option α)
    (pushes : ∀ s p, field (store s p) = (value p).elim (field s) (pushProperty (field s)))
    {s : σ} {list : List α} (known : field s = collected list) (properties : List π) :
    field (properties.foldl store s) = collected (list ++ properties.filterMap value) := by
  induction properties generalizing s list with
  | nil => rw [List.filterMap_nil, List.append_nil, List.foldl_nil, known]
  | cons p properties ih =>
    rw [List.foldl_cons]
    cases found : value p with
    | none =>
      rw [List.filterMap_cons_none found]
      exact ih ((pushes s p).trans (by rw [found, known]; rfl))
    | some a =>
      rw [List.filterMap_cons_some found, List.append_cons]
      exact ih ((pushes s p).trans (by rw [found, known]; exact pushProperty_collected list a))

/-- Only one kind of properties has a value, and it is not the user property. -/
def SingleKind (id : π → UInt8) (value : π → Option α) : Prop :=
  ∃ code, code ≠ 0x26 ∧ ∀ p, value p ≠ none → id p = code

/-- The values of one single property are at most one. -/
theorem SingleKind.pairwise {id : π → UInt8} {value : π → Option α} (kind : SingleKind id value)
    {properties : List π} (compatible : properties.Pairwise fun p q => id p = id q → id p = 0x26) :
    properties.Pairwise fun p q => value p = none ∨ value q = none := by
  obtain ⟨code, other, of⟩ := kind
  refine compatible.imp fun {p q} apart => ?_
  by_contra both
  obtain ⟨left, right⟩ := not_or.mp both
  have first := of p left
  exact other (first.symm.trans (apart (first.trans (of q right).symm)))

/-- A field that one kind of single property sets. -/
theorem SingleKind.foldl {id : π → UInt8} {value : π → Option α} (kind : SingleKind id value)
    {field : σ → Option α} (sets : ∀ s p, field (store s p) = (value p).or (field s)) {s : σ}
    (blank : field s = none) {properties : List π}
    (compatible : properties.Pairwise fun p q => id p = id q → id p = 0x26) :
    field (properties.foldl store s) = properties.findSome? value := by
  rw [foldl_field sets (kind.pairwise compatible), blank, Option.or_none]

end Lists

namespace ConnectProperty

/-- The value of a CONNECT property, without the tests of the set and of the value. -/
def readValue (id : UInt8) : FieldReader ConnectProperty :=
  if id = propertySessionExpiryInterval then sessionExpiryInterval <$> SessionExpiryInterval.tryFrom
  else if id = propertyRecieveMaximum then (fun value => receiveMaximum ⟨value⟩) <$> u16
  else if id = propertyMaximumPacketSize then (fun value => maximumPacketSize ⟨value⟩) <$> decodeU32Bytes
  else if id = propertyTopicAliasMaximum then (fun value => topicAliasMaximum ⟨value⟩) <$> u16
  else if id = propertyRequestResponseInformation then
    requestResponseInformation <$> RequestResponseInformation.tryFrom
  else if id = propertyRequestProblemInformation then
    requestProblemInformation <$> RequestProblemInformation.tryFrom
  else if id = propertyUserPropertyId then userProperty <$> UserProperty.tryFrom
  else if id = propertyAuthenticationMethod then authenticationMethod <$> AuthenticationMethod.tryFrom
  else if id = propertyAuthenticationData then authenticationData <$> AuthenticationData.tryFrom
  else fail .invalidFormat

theorem readValue_spells (code : UInt8) :
    Spells (readValue code) fun p bytes => p.id = code ∧ p.Fits ∧ bytes = p.value := by
  unfold readValue
  refine .ite ?sessionExpiry fun noSessionExpiry => .ite ?receive fun noReceive => .ite ?packetSize
    fun noPacketSize => .ite ?aliases fun noAliases => .ite ?response fun noResponse => .ite ?problem
    fun noProblem => .ite ?user fun noUser => .ite ?method fun noMethod => .ite ?data fun noData => ?other
  case sessionExpiry =>
    rintro rfl
    refine kind_spells (u32Field_spells _) (fun p => ?_) fun ⟨interval⟩ bytes => ?_
    · cases p <;> simp [id, propertySessionExpiryInterval]
    · simp [Fits, value]
  case receive =>
    rintro rfl
    refine kind_spells Spells.u16 (fun p => ?_) fun maximum bytes => ?_
    · cases p <;> simp [id, propertyRecieveMaximum]
    · simp [Fits, value]
  case packetSize =>
    rintro rfl
    refine kind_spells (Spells.u32Slice _) (fun p => ?_) fun size bytes => ?_
    · cases p <;> simp [id, propertyMaximumPacketSize]
    · simp [Fits, value]
  case aliases =>
    rintro rfl
    refine kind_spells Spells.u16 (fun p => ?_) fun maximum bytes => ?_
    · cases p <;> simp [id, propertyTopicAliasMaximum]
    · simp [Fits, value]
  case response =>
    rintro rfl
    refine kind_spells (flagField_spells _ _) (fun p => ?_) fun ⟨information⟩ bytes => ?_
    · cases p <;> simp [id, propertyRequestResponseInformation]
    · cases information <;> simp [Fits, value, flagByte]
  case problem =>
    rintro rfl
    refine kind_spells (flagField_spells _ _) (fun p => ?_) fun ⟨information⟩ bytes => ?_
    · cases p <;> simp [id, propertyRequestProblemInformation]
    · cases information <;> simp [Fits, value, flagByte]
  case user =>
    rintro rfl
    refine kind_spells UserProperty.tryFrom_spells (fun p => ?_) fun property bytes => Iff.rfl
    cases p <;> simp [id, propertyUserPropertyId]
  case method =>
    rintro rfl
    refine kind_spells (stringField_spells _) (fun p => ?_) fun ⟨method⟩ bytes => ?_
    · cases p <;> simp [id, propertyAuthenticationMethod]
    · simp [Fits, value]
  case data =>
    rintro rfl
    refine kind_spells (binaryField_spells _) (fun p => ?_) fun ⟨data⟩ bytes => ?_
    · cases p <;> simp [id, propertyAuthenticationData]
    · simp [Fits, value]
  case other =>
    refine (Spells.fail _).congr fun p bytes => iff_of_false not_false ?_
    rintro ⟨rfl, _⟩
    cases p <;> contradiction

theorem read_spells : Spells (propertyOf readValue) fun p bytes => p.Fits ∧ bytes = p.wire :=
  propertyOf_spells readValue_spells

theorem wire_ne_nil (p : ConnectProperty) : p.wire ≠ [] := List.cons_ne_nil _ _

section Kinds

theorem sessionExpiryInterval?_single : SingleKind id sessionExpiryInterval? :=
  ⟨0x11, by decide, by rintro ⟨_⟩ <;> simp [sessionExpiryInterval?, id]⟩

theorem receiveMaximum?_single : SingleKind id receiveMaximum? :=
  ⟨0x21, by decide, by rintro ⟨_⟩ <;> simp [receiveMaximum?, id]⟩

theorem maximumPacketSize?_single : SingleKind id maximumPacketSize? :=
  ⟨0x27, by decide, by rintro ⟨_⟩ <;> simp [maximumPacketSize?, id]⟩

theorem topicAliasMaximum?_single : SingleKind id topicAliasMaximum? :=
  ⟨0x22, by decide, by rintro ⟨_⟩ <;> simp [topicAliasMaximum?, id]⟩

theorem requestResponseInformation?_single : SingleKind id requestResponseInformation? :=
  ⟨0x19, by decide, by rintro ⟨_⟩ <;> simp [requestResponseInformation?, id]⟩

theorem requestProblemInformation?_single : SingleKind id requestProblemInformation? :=
  ⟨0x17, by decide, by rintro ⟨_⟩ <;> simp [requestProblemInformation?, id]⟩

theorem authenticationMethod?_single : SingleKind id authenticationMethod? :=
  ⟨0x15, by decide, by rintro ⟨_⟩ <;> simp [authenticationMethod?, id]⟩

theorem authenticationData?_single : SingleKind id authenticationData? :=
  ⟨0x16, by decide, by rintro ⟨_⟩ <;> simp [authenticationData?, id]⟩

end Kinds

/-- What the decoder asks of the value of a property. -/
def Accepted (p : ConnectProperty) : Prop := p.Allowed ∧ p ≠ topicAliasMaximum ⟨0⟩

/-- What the decoder asks of the whole list. -/
structure Acceptable (properties : List ConnectProperty) : Prop where
  each : ∀ p ∈ properties, p.Fits ∧ p.Accepted
  single : properties.Pairwise Compatible
  method : MethodFirst properties

end ConnectProperty

namespace ConnectProperties

/-- The set behind a property. -/
def put (s : ConnectProperties) : ConnectProperty → ConnectProperties
  | .sessionExpiryInterval interval => { s with sessionExpiryInterval := some interval }
  | .receiveMaximum maximum => { s with receiveMaximum := some maximum }
  | .maximumPacketSize size => { s with maximumPacketSize := some size }
  | .topicAliasMaximum maximum => { s with topicAliasMaximum := some maximum }
  | .requestResponseInformation information => { s with requestResponseInformation := some information }
  | .requestProblemInformation information => { s with requestProblemInformation := some information }
  | .userProperty property => { s with userProperties := pushProperty s.userProperties property }
  | .authenticationMethod method => { s with authenticationMethod := some method }
  | .authenticationData data => { s with authenticationData := some data }

/-- The set holds a property of this kind, and another one may not follow. -/
def Taken (s : ConnectProperties) : ConnectProperty → Prop
  | .sessionExpiryInterval _ => s.sessionExpiryInterval.isSome
  | .receiveMaximum _ => s.receiveMaximum.isSome
  | .maximumPacketSize _ => s.maximumPacketSize.isSome
  | .topicAliasMaximum _ => s.topicAliasMaximum.isSome
  | .requestResponseInformation _ => s.requestResponseInformation.isSome
  | .requestProblemInformation _ => s.requestProblemInformation.isSome
  | .userProperty _ => False
  | .authenticationMethod _ => s.authenticationMethod.isSome
  | .authenticationData _ => s.authenticationData.isSome

/-- Authentication data have a method. -/
def Authenticated (s : ConnectProperties) : Prop :=
  s.authenticationData ≠ none → s.authenticationMethod ≠ none

variable {s : ConnectProperties}

theorem readValue_readsInto (s : ConnectProperties) (id : UInt8) :
    ReadsInto (fun p => ¬ s.Taken p ∧ p.Accepted) s.put (s.readValue id) (ConnectProperty.readValue id) := by
  unfold readValue ConnectProperty.readValue
  refine .ite (fun _ => ?sessionExpiry) fun _ => .ite (fun _ => ?receive) fun _ => .ite (fun _ => ?packetSize)
    fun _ => .ite (fun _ => ?aliases) fun _ => .ite (fun _ => ?response) fun _ => .ite (fun _ => ?problem)
    fun _ => .ite (fun _ => ?user) fun _ => .ite (fun _ => ?method) fun _ => .ite (fun _ => ?data) fun _ =>
    .none _
  case sessionExpiry =>
    apply ReadsInto.single ConnectProperty.sessionExpiryInterval
    simp [Taken, ConnectProperty.Accepted, ConnectProperty.Allowed]
  case receive =>
    apply ReadsInto.tested ConnectProperty.receiveMaximum
    simp [Taken, ConnectProperty.Accepted, ConnectProperty.Allowed]
  case packetSize =>
    apply ReadsInto.tested ConnectProperty.maximumPacketSize
    simp [Taken, ConnectProperty.Accepted, ConnectProperty.Allowed]
  case aliases =>
    apply ReadsInto.tested ConnectProperty.topicAliasMaximum
    simp [Taken, ConnectProperty.Accepted, ConnectProperty.Allowed]
  case response =>
    apply ReadsInto.single ConnectProperty.requestResponseInformation
    simp [Taken, ConnectProperty.Accepted, ConnectProperty.Allowed]
  case problem =>
    apply ReadsInto.single ConnectProperty.requestProblemInformation
    simp [Taken, ConnectProperty.Accepted, ConnectProperty.Allowed]
  case user =>
    apply ReadsInto.always ConnectProperty.userProperty
    simp [Taken, ConnectProperty.Accepted, ConnectProperty.Allowed]
  case method =>
    apply ReadsInto.single ConnectProperty.authenticationMethod
    simp [Taken, ConnectProperty.Accepted, ConnectProperty.Allowed]
  case data =>
    apply ReadsInto.single ConnectProperty.authenticationData
    simp [Taken, ConnectProperty.Accepted, ConnectProperty.Allowed]

theorem readProperty_readsInto (s : ConnectProperties) (id : UInt8) :
    ReadsInto (fun p => (¬ s.Taken p ∧ p.Accepted) ∧ (s.put p).Authenticated) s.put (s.readProperty id)
      (ConnectProperty.readValue id) := by
  refine (s.readValue_readsInto id).checked fun t => ?_
  rw [Authenticated, Classical.not_imp, not_not]

theorem taken_put (s : ConnectProperties) (p q : ConnectProperty) :
    (s.put p).Taken q ↔ s.Taken q ∨ ¬ p.Compatible q := by
  cases p <;> cases q <;> simp [Taken, put, ConnectProperty.Compatible, ConnectProperty.id]

theorem method_put (s : ConnectProperties) (p : ConnectProperty) :
    (s.put p).authenticationMethod ≠ none ↔
      s.authenticationMethod ≠ none ∨ ∃ method, p = .authenticationMethod method := by
  cases p <;> simp [put]

/-- Only authentication data can leave a set without their method. -/
theorem authenticated_put {s : ConnectProperties} (before : s.Authenticated) (p : ConnectProperty) :
    (s.put p).Authenticated ↔ ∀ data, p = .authenticationData data → s.authenticationMethod ≠ none := by
  unfold Authenticated at before ⊢
  cases p <;> simp_all [put]

theorem admitted_authenticated {s : ConnectProperties} (before : s.Authenticated)
    {properties : List ConnectProperty} :
    Admitted (fun s p => (put s p).Authenticated) put s properties ↔
      ∀ front data rest, properties = front ++ .authenticationData data :: rest →
        s.authenticationMethod ≠ none ∨ ∃ method, .authenticationMethod method ∈ front := by
  induction properties generalizing s with
  | nil =>
    refine iff_of_true trivial fun front data rest wrong => ?_
    exact absurd wrong.symm (List.append_ne_nil_of_right_ne_nil _ (List.cons_ne_nil _ _))
  | cons p properties ih =>
    rw [Admitted]
    constructor
    · rintro ⟨here, later⟩ front data rest split
      cases front with
      | nil =>
        cases split
        exact .inl ((authenticated_put before _).mp here data rfl)
      | cons _ front =>
        cases split
        rcases (ih here).mp later front data rest rfl with present | ⟨method, member⟩
        · rcases (method_put s p).mp present with present | ⟨method, rfl⟩
          · exact .inl present
          · exact .inr ⟨method, List.mem_cons_self⟩
        · exact .inr ⟨method, List.mem_cons_of_mem _ member⟩
    · intro ordered
      have here : (s.put p).Authenticated := by
        refine (authenticated_put before p).mpr fun data is => ?_
        refine (ordered [] data properties (is ▸ rfl)).resolve_right ?_
        rintro ⟨_, wrong⟩
        exact List.not_mem_nil wrong
      refine ⟨here, (ih here).mpr fun front data rest split => ?_⟩
      rw [method_put]
      rcases ordered (p :: front) data rest (split ▸ rfl) with present | ⟨method, member⟩
      · exact .inl (.inl present)
      · rcases List.mem_cons.mp member with is | member
        · exact .inl (.inr ⟨method, is.symm⟩)
        · exact .inr ⟨method, member⟩

theorem admitted_iff {properties : List ConnectProperty} :
    Admitted (fun s p => p.Fits ∧ (¬ s.Taken p ∧ p.Accepted) ∧ (put s p).Authenticated) put {} properties ↔
      ConnectProperty.Acceptable properties := by
  have blank (p : ConnectProperty) : ¬ ({} : ConnectProperties).Taken p := by
    cases p <;> simp [Taken]
  rw [admitted_and, admitted_and, admitted_and, admitted_part, admitted_part, admitted_free taken_put,
    admitted_authenticated (fun wrong => absurd rfl wrong)]
  simp only [not_not, ne_eq, not_true_eq_false, false_or]
  constructor
  · rintro ⟨fits, ⟨⟨_, single⟩, accepted⟩, method⟩
    exact ⟨fun p member => ⟨fits p member, accepted p member⟩, single, method⟩
  · intro acceptable
    exact ⟨fun p member => (acceptable.each p member).left,
      ⟨⟨fun p _ => blank p, acceptable.single⟩, fun p member => (acceptable.each p member).right⟩,
      acceptable.method⟩

theorem foldl_put {properties : List ConnectProperty}
    (single : properties.Pairwise ConnectProperty.Compatible) :
    properties.foldl put {} = ConnectProperty.collect properties := by
  have sessionExpiry : (properties.foldl put {}).sessionExpiryInterval = _ :=
    ConnectProperty.sessionExpiryInterval?_single.foldl (by rintro s ⟨_⟩ <;> rfl) rfl single
  have receive : (properties.foldl put {}).receiveMaximum = _ :=
    ConnectProperty.receiveMaximum?_single.foldl (by rintro s ⟨_⟩ <;> rfl) rfl single
  have packetSize : (properties.foldl put {}).maximumPacketSize = _ :=
    ConnectProperty.maximumPacketSize?_single.foldl (by rintro s ⟨_⟩ <;> rfl) rfl single
  have aliases : (properties.foldl put {}).topicAliasMaximum = _ :=
    ConnectProperty.topicAliasMaximum?_single.foldl (by rintro s ⟨_⟩ <;> rfl) rfl single
  have response : (properties.foldl put {}).requestResponseInformation = _ :=
    ConnectProperty.requestResponseInformation?_single.foldl (by rintro s ⟨_⟩ <;> rfl) rfl single
  have problem : (properties.foldl put {}).requestProblemInformation = _ :=
    ConnectProperty.requestProblemInformation?_single.foldl (by rintro s ⟨_⟩ <;> rfl) rfl single
  have method : (properties.foldl put {}).authenticationMethod = _ :=
    ConnectProperty.authenticationMethod?_single.foldl (by rintro s ⟨_⟩ <;> rfl) rfl single
  have data : (properties.foldl put {}).authenticationData = _ :=
    ConnectProperty.authenticationData?_single.foldl (by rintro s ⟨_⟩ <;> rfl) rfl single
  have user : (properties.foldl put {}).userProperties =
      collected ([] ++ properties.filterMap ConnectProperty.userProperty?) :=
    foldl_pushed ConnectProperties.userProperties ConnectProperty.userProperty? (by rintro s ⟨_⟩ <;> rfl) rfl
      properties
  rw [ConnectProperty.collect, ← sessionExpiry, ← receive, ← packetSize, ← aliases, ← response, ← problem,
    ← method, ← data, ← List.nil_append (properties.filterMap _), ← user]

/-- The property block of a CONNECT: the accepted lists, and the set each of them stands for. -/
theorem block_spells : Spells (propertyBlock readProperty {}) fun set bytes => ∃ properties,
    ConnectProperty.Acceptable properties ∧ set = ConnectProperty.collect properties ∧
      BlockOf ConnectProperty.wire properties bytes :=
  propertyBlock_collects (fun s => propertyItem_spells ConnectProperty.read_spells s.readProperty_readsInto)
    ConnectProperty.wire_ne_nil admitted_iff fun acceptable => foldl_put acceptable.single

end ConnectProperties

end Aqua
