import Aqua.Proofs.EmittedPublish

/-! # The early exit of the decoder

A packet is emitted at once when its variable header used up the remaining length. For the packets whose
payload may be empty this is what their payload parser makes of nothing; the payload parsers of CONNECT and
SUBSCRIBE accept no empty payload, and the early exit passes them by.
-/

namespace Aqua

open Wire Wire.Reader

variable {build : Build}

/-- The filters of a SUBSCRIBE that were read are not none. -/
private theorem Subscribe.readFilters_ne_nil {payloadLength pos next : ℕ} {buf : Bytes}
    {filters read : List (TopicFilter × SubscribeOption)}
    (run : Subscribe.readFilters payloadLength filters buf pos = .ok (read, next)) : read ≠ [] := by
  refine Outcome.loop_invariant (fun _ => True) (fun done => done.1 ≠ []) (fun _ _ _ _ => trivial) ?_
    trivial run
  intro ⟨s, pos⟩ ⟨b, after⟩ _ step
  have body := loopBody_eq_inr_iff.mp step
  obtain ⟨f, _, _, body⟩ := bind_eq_ok_iff.mp body
  obtain ⟨op, nextPos, _, body⟩ := bind_eq_ok_iff.mp body
  simp only [bind_apply, position_apply, Outcome.ok_bind] at body
  split at body
  · cases body
    exact List.append_ne_nil_of_right_ne_nil _ (List.cons_ne_nil _ _)
  split at body
  · cases body
  · cases body

private theorem Subscribe.decodePayload_filters {self p : Subscribe} {buf rest : Bytes}
    (decoded : self.decodePayload buf = .ok (p, rest)) : p.topicFilters ≠ [] := by
  unfold Subscribe.decodePayload at decoded
  split at decoded
  · cases decoded
  · obtain ⟨⟨filters, next⟩, read, decoded⟩ := Outcome.bind_eq_ok_iff.mp decoded
    obtain ⟨_, _, decoded⟩ := Outcome.bind_eq_ok_iff.mp decoded
    cases decoded
    exact Subscribe.readFilters_ne_nil read

private theorem ControlPacket.decodePayload_subscribe {self : ControlPacket} {p : Subscribe} {buf rest : Bytes}
    (decoded : self.decodePayload buf = .ok (.subscribe p, rest)) :
    ∃ q : Subscribe, self = .subscribe q ∧ q.decodePayload buf = .ok (p, rest) := by
  cases ControlPacket.decodePayload_sameType decoded with
  | subscribe q _ =>
    obtain ⟨_, inner, same⟩ := rewrap_eq_ok_iff.mp decoded
    cases same
    exact ⟨q, rfl, inner⟩

private theorem ControlPacket.decodePayload_connect {self : ControlPacket} {c : Connect} {buf rest : Bytes}
    (decoded : self.decodePayload buf = .ok (.connect c, rest)) :
    ∃ q : Connect, self = .connect q ∧ q.decodePayload buf = .ok (c, rest) := by
  cases ControlPacket.decodePayload_sameType decoded with
  | connect q _ =>
    obtain ⟨_, inner, same⟩ := rewrap_eq_ok_iff.mp decoded
    cases same
    exact ⟨q, rfl, inner⟩

/-- No CONNECT comes from an empty payload. -/
private theorem Connect.decodePayload_nil_ne (self c : Connect) (rest : Bytes) :
    self.decodePayload [] ≠ .ok (c, rest) := by
  intro decoded
  obtain ⟨next, read, _⟩ := Connect.decodePayload_eq_ok_iff.mp decoded
  obtain ⟨moved, inside⟩ := self.readPayload_progresses read
  rw [List.length_nil] at inside
  omega

/-- The variable header of a CONNECT touches nothing of its payload. -/
private theorem Connect.decodeVariableHeader_blank {self c : Connect} {buf : Bytes} {pos next : ℕ}
    (blank : self.Blank) (read : self.decodeVariableHeader buf pos = .ok (c, next)) : c.Blank := by
  obtain ⟨name, _, _, read⟩ := bind_eq_ok_iff.mp read
  obtain ⟨level, _, _, read⟩ := bind_eq_ok_iff.mp read
  obtain ⟨flags, _, _, read⟩ := bind_eq_ok_iff.mp read
  obtain ⟨keepAlive, _, _, read⟩ := bind_eq_ok_iff.mp read
  dsimp only at read
  split at read
  · cases read
    exact ⟨blank.willTopic, blank.willPayload, blank.username, blank.password⟩
  · obtain ⟨properties, _, _, stored⟩ := bind_eq_ok_iff.mp read
    cases stored
    exact ⟨blank.willTopic, blank.willPayload, blank.username, blank.password⟩

/-- A CONNECT comes from a CONNECT. -/
private theorem ControlPacket.decodeVariableHeader_connect {start : ControlPacket} {c : Connect}
    {remainingLength size : ℕ} {protocolVersion : Option ProtocolVersion} {buf : Bytes} (fresh : start.Fresh)
    (header : start.decodeVariableHeader build remainingLength protocolVersion buf 0 =
      .ok (.connect c, size)) : start = .connect {} ∧ c.Blank := by
  cases ControlPacket.decodeVariableHeader_sameType header
  cases fresh
  obtain ⟨p, inner, same⟩ := map_eq_ok_iff.mp header
  cases same
  exact ⟨rfl, Connect.decodeVariableHeader_blank ⟨rfl, rfl, rfl, rfl⟩ inner⟩

/-- A SUBSCRIBE comes from a SUBSCRIBE. -/
private theorem ControlPacket.decodeVariableHeader_subscribe {start : ControlPacket} {p : Subscribe}
    {remainingLength size : ℕ} {protocolVersion : Option ProtocolVersion} {buf : Bytes} (fresh : start.Fresh)
    (header : start.decodeVariableHeader build remainingLength protocolVersion buf 0 =
      .ok (.subscribe p, size)) : start = .subscribe {} := by
  cases ControlPacket.decodeVariableHeader_sameType header
  cases fresh
  rfl

/-- Nothing is left of a remaining length that was used up. -/
private theorem Build.sub_self {build : Build} {size length : ℕ} (left : build.sub size size = .ok length) :
    length = 0 :=
  (Build.sub_of_le left (le_refl size)).trans (Nat.sub_self size)

/-- The packets whose payload cannot be empty. -/
def ControlPacket.NeedsPayload : ControlPacket → Prop
  | .connect _ | .subscribe _ => True
  | _ => False

section Shortcut

variable {protocolVersion : Option ProtocolVersion} {buf : Bytes} {size : ℕ}

private theorem Publish.shortcut {start : ControlPacket} {p : Publish} (fresh : start.Fresh)
    (header : start.decodeVariableHeader build size protocolVersion buf 0 = .ok (.publish p, size)) :
    p.decodePayload [] = .ok (p, []) := by
  obtain ⟨announced, _, unread⟩ := ControlPacket.decodeVariableHeader_publish fresh header
  have enough : ¬ ([] : Bytes).length < p.payloadLength := by
    rw [Build.sub_self announced]
    exact Nat.not_lt_zero _
  rw [Publish.decodePayload, if_neg enough, List.take_nil, List.drop_nil, ← unread]

private theorem Subscribe.shortcut {self p : Subscribe} {decoded : Subscribe × Bytes}
    (header : self.decodeVariableHeader build size protocolVersion buf 0 = .ok (p, size)) :
    p.decodePayload [] ≠ .ok decoded := by
  obtain ⟨_, announced⟩ := Subscribe.decodeVariableHeader_announces header
  rw [Subscribe.decodePayload, if_pos (Build.sub_self announced)]
  exact fun wrong => by cases wrong

private theorem Unsubscribe.shortcut {self p : Unsubscribe}
    (header : self.decodeVariableHeader build size protocolVersion buf 0 = .ok (p, size)) :
    p.decodePayload [] = .ok (p, []) := by
  obtain ⟨_, announced⟩ := Unsubscribe.decodeVariableHeader_announces header
  have nothing : block MqttError.invalidFormat Unsubscribe.readFilter p.payloadLength p.topicFilters [] 0 =
      .ok (p.topicFilters, 0) := by
    rw [Build.sub_self announced]
    exact block_reads (.nil p.topicFilters) [] []
  rw [Unsubscribe.decodePayload, nothing]
  rfl

/-- A packet that is emitted behind its variable header is what its payload parser makes of nothing, unless
the parser accepts no empty payload. -/
theorem ControlPacket.shortcut_iff {start packet : ControlPacket} (fresh : start.Fresh)
    (header : start.decodeVariableHeader build size protocolVersion buf 0 = .ok (packet, size)) :
    packet.decodePayload [] = .ok (packet, []) ↔ ¬ start.NeedsPayload := by
  cases fresh with
  | connect =>
    obtain ⟨c, _, rfl⟩ := map_eq_ok_iff.mp header
    refine iff_of_false (fun decoded => ?_) (not_not.mpr trivial)
    obtain ⟨_, inner, _⟩ := rewrap_eq_ok_iff.mp decoded
    exact c.decodePayload_nil_ne _ _ inner
  | subscribe =>
    obtain ⟨p, inner, rfl⟩ := map_eq_ok_iff.mp header
    refine iff_of_false (fun decoded => ?_) (not_not.mpr trivial)
    obtain ⟨_, inner', _⟩ := rewrap_eq_ok_iff.mp decoded
    exact Subscribe.shortcut inner inner'
  | publish dup qos retain =>
    obtain ⟨p, _, rfl⟩ := map_eq_ok_iff.mp header
    have passes := Publish.shortcut (.publish dup qos retain) header
    exact iff_of_true (by rw [ControlPacket.decodePayload, passes]; rfl) id
  | unsubscribe =>
    obtain ⟨p, inner, rfl⟩ := map_eq_ok_iff.mp header
    have passes := Unsubscribe.shortcut inner
    exact iff_of_true (by rw [ControlPacket.decodePayload, passes]; rfl) id
  | disconnect =>
    obtain ⟨p, _, rfl⟩ := map_eq_ok_iff.mp header
    exact iff_of_true rfl id
  | pubrel =>
    obtain ⟨p, _, rfl⟩ := map_eq_ok_iff.mp header
    exact iff_of_true rfl id
  | puback =>
    obtain ⟨_, _, _, same⟩ := bind_eq_ok_iff.mp header
    cases same
    exact iff_of_true rfl id
  | pubrec =>
    obtain ⟨_, _, _, same⟩ := bind_eq_ok_iff.mp header
    cases same
    exact iff_of_true rfl id
  | pubcomp =>
    obtain ⟨_, _, _, same⟩ := bind_eq_ok_iff.mp header
    cases same
    exact iff_of_true rfl id

end Shortcut

namespace Decoder

variable {d next : Decoder} {packet : ControlPacket}

/-- A decoder that waits for the payload of a CONNECT has read none of it. -/
def AwaitsPayload (d : Decoder) : Prop :=
  d.state = .variableHeaderDecoded → ∀ c, d.tmpPacket = .connect c → c.Blank

private theorem Reachable.awaitsPayload (reachable : Reachable build d) : d.AwaitsPayload := by
  induction reachable with
  | new => exact fun wrong => by cases wrong
  | setProtocolVersion version _ ih => exact ih
  | feed bytes _ ih => exact ih
  | poll earlier polled ih =>
    have prepares := earlier.prepares
    unfold Prepares at prepares
    cases pollDecode_eq_ok_iff.mp polled with
    | empty => exact ih
    | short => exact ih
    | fixedHeader => exact fun wrong => by cases wrong
    | whole => exact fun wrong => by cases wrong
    | payload => exact fun wrong => by cases wrong
    | partly state nonempty header =>
      rintro _ c rfl
      rw [state] at prepares
      exact (ControlPacket.decodeVariableHeader_connect prepares header).right

/-- What an emission owes to the payload parsers. -/
structure Faithful (d : Decoder) (packet : ControlPacket) : Prop where
  shortcut : d.state = .fixedHeaderDecoded → packet.decodePayload [] = .ok (packet, [])
  filters : ∀ p, packet = .subscribe p → p.topicFilters ≠ []
  clientId : ∀ c, packet = .connect c → ∃ next, d.state = .variableHeaderDecoded ∧
    ClientId.tryFrom d.buf 0 = .ok (c.clientId, next)
  flags : ∀ c, packet = .connect c → c.Filled

/-- In every run on any bytes and versions, an emission is what the payload parser would have produced unless
a CONNECT or a SUBSCRIBE leaves by the early exit. -/
theorem emission_faithful_iff (reachable : d.Reachable build)
    (emits : d.pollDecode build = .ok (some packet, next)) :
    d.Faithful packet ↔ ¬ (d.state = .fixedHeaderDecoded ∧ d.tmpPacket.NeedsPayload) := by
  have prepares := reachable.prepares
  have counts := reachable.counts
  have awaits := reachable.awaitsPayload
  unfold Prepares at prepares
  unfold Counts at counts
  cases pollDecode_eq_ok_iff.mp emits with
  | @whole _ size state nonempty header ends =>
    rw [state] at prepares counts
    dsimp only at prepares counts
    have used : size = d.remainingLength := by omega
    rw [← used] at header
    have agrees := ControlPacket.shortcut_iff prepares header
    constructor
    · rintro faithful ⟨_, needs⟩
      exact agrees.mp (faithful.shortcut state) needs
    · intro passes
      have needless : ¬ d.tmpPacket.NeedsPayload := fun needs => passes ⟨state, needs⟩
      refine ⟨fun _ => agrees.mpr needless, ?_, ?_, ?_⟩
      · rintro p rfl
        exact absurd (ControlPacket.decodeVariableHeader_subscribe prepares header ▸ trivial) needless
      · rintro c rfl
        exact absurd ((ControlPacket.decodeVariableHeader_connect prepares header).left ▸ trivial) needless
      · rintro c rfl
        exact absurd ((ControlPacket.decodeVariableHeader_connect prepares header).left ▸ trivial) needless
  | payload state nonempty payload =>
    refine iff_of_true ⟨?_, ?_, ?_, ?_⟩ fun shortcut => by cases state.symm.trans shortcut.left
    · exact fun headed => by cases state.symm.trans headed
    · rintro p rfl
      obtain ⟨q, _, inner⟩ := ControlPacket.decodePayload_subscribe payload
      exact Subscribe.decodePayload_filters inner
    · rintro c rfl
      obtain ⟨q, is, inner⟩ := ControlPacket.decodePayload_connect payload
      obtain ⟨_, read, _⟩ := Connect.decodePayload_eq_ok_iff.mp inner
      obtain ⟨_, clientId, afterId, _, _, name, _, sameId, _⟩ :=
        Connect.readPayload_fills (awaits state q is) read
      exact ⟨afterId, state, sameId ▸ name⟩
    · rintro c rfl
      obtain ⟨q, is, inner⟩ := ControlPacket.decodePayload_connect payload
      obtain ⟨_, read, _⟩ := Connect.decodePayload_eq_ok_iff.mp inner
      exact (Connect.readPayload_fills (awaits state q is) read).left

/-- A decoder behind the fixed header of a SUBSCRIBE that consists of its packet identifier. -/
def atSubscribe : Decoder where
  state := .fixedHeaderDecoded
  tmpPacket := .subscribe {}
  protocolVersion := some ⟨4⟩
  remainingLength := 2
  buf := [0x00, 0x01]

def emittedSubscribe : Subscribe where
  packetId := ⟨1⟩

private theorem atSubscribe_reachable : atSubscribe.Reachable ⟨true⟩ := by
  have polled : ((new.setProtocolVersion (some ⟨4⟩)).feed [0x82, 0x02, 0x00, 0x01]).pollDecode ⟨true⟩ =
      .ok (none, atSubscribe) := by decide
  exact .poll (.feed _ (.setProtocolVersion _ .new)) polled

private theorem atSubscribe_emits : atSubscribe.pollDecode ⟨true⟩ = .ok (some (.subscribe emittedSubscribe),
    { atSubscribe with state := .done, tmpPacket := .undefined, remainLengthCounter := 2, buf := [] }) := by
  decide

theorem emission_faithful_iff_atSubscribe : atSubscribe.Faithful (.subscribe emittedSubscribe) ↔
    ¬ (atSubscribe.state = .fixedHeaderDecoded ∧ atSubscribe.tmpPacket.NeedsPayload) :=
  emission_faithful_iff atSubscribe_reachable atSubscribe_emits

/-- A SUBSCRIBE without filters is emitted. -/
theorem filterless_subscribe_emitted : ¬ ∀ (build : Build) (d next : Decoder) (packet : ControlPacket),
    d.Reachable build → d.pollDecode build = .ok (some packet, next) → d.Faithful packet := by
  intro claim
  have faithful := claim ⟨true⟩ _ _ _ atSubscribe_reachable atSubscribe_emits
  exact faithful.filters emittedSubscribe rfl rfl

end Decoder

end Aqua
