import Aqua.Proofs.FieldLaws
import Aqua.Wire.Iterations

/-! # The loops of the parsers end

No loop of a parser counts its iterations or compares its position with the buffer: it ends where the position
meets an announced length, or where a read fails. Every iteration that goes on reads at least one byte of the
buffer, whatever length was announced, so no loop goes round more often than the buffer has bytes, and once more.
-/

namespace Aqua

open Wire Wire.Reader

/-- The loops over properties and topic filters, each with its iteration. The announced end is any number. -/
inductive ParsingLoop : {σ β : Type} → (σ → FieldReader β) → (σ → FieldReader (σ ⊕ β)) → Prop
  | publish (endPos : ℕ) : ParsingLoop (propertyLoop PublishProperties.readProperty endPos)
      (blockIteration .invalidFormat (propertyItem PublishProperties.readProperty) endPos)
  | subscribe (endPos : ℕ) : ParsingLoop (propertyLoop SubscribeProperties.readProperty endPos)
      (blockIteration .invalidFormat (propertyItem SubscribeProperties.readProperty) endPos)
  | unsubscribe (endPos : ℕ) : ParsingLoop (propertyLoop UnsubscribeProperties.readProperty endPos)
      (blockIteration .invalidFormat (propertyItem UnsubscribeProperties.readProperty) endPos)
  | pubrel (endPos : ℕ) : ParsingLoop (propertyLoop PubrelProperties.readProperty endPos)
      (blockIteration .invalidFormat (propertyItem PubrelProperties.readProperty) endPos)
  | disconnect (endPos : ℕ) : ParsingLoop (propertyLoop DisconnectProperties.readProperty endPos)
      (blockIteration .invalidFormat (propertyItem DisconnectProperties.readProperty) endPos)
  | connect (endPos : ℕ) : ParsingLoop (propertyLoop ConnectProperties.readProperty endPos)
      (blockIteration .invalidFormat (propertyItem ConnectProperties.readProperty) endPos)
  | will (endPos : ℕ) : ParsingLoop (propertyLoop WillProperties.readProperty endPos)
      (blockIteration .invalidFormat (propertyItem WillProperties.readProperty) endPos)
  | subscribeFilters (payloadLength : ℕ) : ParsingLoop (Subscribe.readFilters payloadLength)
      (Subscribe.filterIteration payloadLength)
  | unsubscribeFilters (payloadLength : ℕ) :
      ParsingLoop (block .invalidFormat Unsubscribe.readFilter payloadLength)
        (blockIteration .invalidFormat Unsubscribe.readFilter payloadLength)

namespace ParsingLoop

variable {σ β : Type} {parse : σ → FieldReader β} {iteration : σ → FieldReader (σ ⊕ β)}

private theorem loops (parsing : ParsingLoop parse iteration) : parse = loop iteration := by
  cases parsing <;> rfl

private theorem advances (parsing : ParsingLoop parse iteration) : Advances iteration := by
  cases parsing with
  | publish endPos => exact propertyIteration_advances PublishProperties.readProperty_lawful endPos
  | subscribe endPos => exact propertyIteration_advances SubscribeProperties.readProperty_lawful endPos
  | unsubscribe endPos => exact propertyIteration_advances UnsubscribeProperties.readProperty_lawful endPos
  | pubrel endPos => exact propertyIteration_advances PubrelProperties.readProperty_lawful endPos
  | disconnect endPos => exact propertyIteration_advances DisconnectProperties.readProperty_lawful endPos
  | connect endPos => exact propertyIteration_advances ConnectProperties.readProperty_lawful endPos
  | will endPos => exact propertyIteration_advances WillProperties.readProperty_lawful endPos
  | subscribeFilters payloadLength => exact Subscribe.filterIteration_advances payloadLength
  | unsubscribeFilters payloadLength =>
    exact blockIteration_advances Unsubscribe.readFilter_lawful Unsubscribe.readFilter_progresses payloadLength

end ParsingLoop

/-- Every iteration that continues advances inside the buffer, and the loop is left after at most one more
iteration than the buffer has bytes. -/
theorem parsing_loops_end {σ β : Type} {parse : σ → FieldReader β} {iteration : σ → FieldReader (σ ⊕ β)}
    (parsing : ParsingLoop parse iteration) (buf : Bytes) (s : σ) (pos : ℕ) :
    parse = loop iteration ∧
      (∀ t mid t' next, iteration t buf mid = .ok (.inl t', next) → mid < next ∧ next ≤ buf.length) ∧
      Outcome.LeftWithin (loopBody iteration buf) (buf.length + 1) (s, pos) :=
  ⟨parsing.loops, fun _ _ _ _ continues => parsing.advances.advances continues,
    parsing.advances.leftWithin buf s pos⟩

/-- The filters of a SUBSCRIBE whose announced length no buffer has. -/
theorem parsing_loops_end_wrapped :
    Outcome.LeftWithin (loopBody (Subscribe.filterIteration (2 ^ 64 - 1)) [0x00, 0x01, 0x74, 0x00]) 5 ([], 0) :=
  (parsing_loops_end (.subscribeFilters (2 ^ 64 - 1)) [0x00, 0x01, 0x74, 0x00] [] 0).2.2

end Aqua
