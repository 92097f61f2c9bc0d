import Mathlib.Tactic.Common

/-! # Bounded channels

A multi-producer channel with one receiver. Its queue never holds more than its capacity, a send
into a full queue is refused, and a send after the receiver is gone fails. Everything that was ever
accepted is what the receiver has taken followed by what is queued.
-/

namespace Runtime

/-- Why a send failed; the message is handed back. -/
inductive TrySendError (α : Type) where
  | full (message : α)
  | closed (message : α)
deriving DecidableEq

/-- What the receiver has taken, what waits for it, and whether it is gone. -/
structure Channel (capacity : ℕ) (α : Type) where
  received : List α := []
  queue : List α := []
  closed : Bool := false
  bounded : queue.length ≤ capacity := by exact Nat.zero_le _

namespace Channel

variable {capacity : ℕ} {α : Type} {channel next : Channel capacity α} {message : α}

def new : Channel capacity α := {}

/-- All messages accepted so far, in their order. -/
def accepted (channel : Channel capacity α) : List α := channel.received ++ channel.queue

/-- The receiver is there and `count` more messages fit. -/
def HasRoom (channel : Channel capacity α) (count : ℕ) : Prop :=
  channel.closed = false ∧ channel.queue.length + count ≤ capacity

instance (channel : Channel capacity α) (count : ℕ) : Decidable (channel.HasRoom count) :=
  inferInstanceAs (Decidable (_ ∧ _))

/-- Put a message at the end of the queue. -/
def push (channel : Channel capacity α) (message : α)
    (fits : channel.queue.length < capacity) : Channel capacity α :=
  { channel with
    queue := channel.queue ++ [message]
    bounded := by rw [List.length_append, List.length_singleton]; exact fits }

def trySend (channel : Channel capacity α) (message : α) :
    Except (TrySendError α) (Channel capacity α) :=
  if channel.closed then .error (.closed message)
  else if fits : channel.queue.length < capacity then .ok (channel.push message fits)
  else .error (.full message)

/-- A send whose failure is ignored. -/
def offer (channel : Channel capacity α) (message : α) : Channel capacity α :=
  (channel.trySend message).toOption.getD channel

/-- How many messages are accepted before the first one is refused. -/
def room (channel : Channel capacity α) : ℕ :=
  if channel.closed then 0 else capacity - channel.queue.length

/-- The receiver takes the first message of the queue. -/
def take (channel : Channel capacity α) : Channel capacity α :=
  { channel with
    received := channel.received ++ channel.queue.take 1
    queue := channel.queue.drop 1
    bounded := by rw [List.length_drop]; exact Nat.le_trans (Nat.sub_le _ _) channel.bounded }

/-- The receiver goes away. -/
def close (channel : Channel capacity α) : Channel capacity α := { channel with closed := true }

@[simp] theorem accepted_new : (new : Channel capacity α).accepted = [] := rfl

@[simp] theorem accepted_take (channel : Channel capacity α) :
    channel.take.accepted = channel.accepted := by
  simp only [accepted, take, List.append_assoc, List.take_append_drop]

/-- What a send can do. -/
theorem trySend_eq_ok_iff : channel.trySend message = .ok next ↔
    channel.closed = false ∧ ∃ fits, next = channel.push message fits := by
  unfold trySend
  cases gone : channel.closed with
  | true => simp
  | false =>
    rw [if_neg Bool.false_ne_true]
    split
    · next fits => simp [fits, eq_comm]
    · next full => simp [full]

theorem accepted_push (fits : channel.queue.length < capacity) :
    (channel.push message fits).accepted = channel.accepted ++ [message] := by
  simp only [accepted, push, List.append_assoc]

theorem accepted_trySend (sent : channel.trySend message = .ok next) :
    next.accepted = channel.accepted ++ [message] := by
  obtain ⟨_, fits, rfl⟩ := trySend_eq_ok_iff.mp sent
  exact accepted_push fits

/-- A send succeeds exactly when there is room. -/
theorem trySend_isOk_iff : (∃ next, channel.trySend message = .ok next) ↔ channel.HasRoom 1 := by
  simp only [trySend_eq_ok_iff, HasRoom]
  constructor
  · rintro ⟨_, open_, fits, _⟩
    exact ⟨open_, fits⟩
  · rintro ⟨open_, fits⟩
    exact ⟨_, open_, fits, rfl⟩

theorem closed_of_trySend {returned : α}
    (failed : channel.trySend message = .error (.closed returned)) : channel.closed = true := by
  unfold trySend at failed
  split at failed
  · assumption
  · split at failed <;> cases failed

theorem offer_of_room_eq_zero (full : channel.room = 0) : channel.offer message = channel := by
  unfold offer trySend
  unfold room at full
  split at full
  · next gone => rw [if_pos gone]; rfl
  · next open_ =>
    rw [if_neg open_, dif_neg (by omega)]
    rfl

theorem room_of_closed (gone : channel.closed = true) : channel.room = 0 := if_pos gone

/-- A channel that has not accepted anything has room for its capacity. -/
theorem room_of_accepted_eq_nil (fresh : channel.accepted = []) (open_ : channel.closed = false) :
    channel.room = capacity := by
  have empty : channel.queue = [] := (List.append_eq_nil_iff.mp fresh).2
  rw [room, open_, if_neg Bool.false_ne_true, empty, List.length_nil, Nat.sub_zero]

theorem foldl_offer_of_room_eq_zero (full : channel.room = 0) (messages : List α) :
    messages.foldl offer channel = channel := by
  induction messages with
  | nil => rfl
  | cons message messages ih =>
    rw [List.foldl_cons, offer_of_room_eq_zero full]
    exact ih

/-- An offer that finds room is a push. -/
theorem offer_eq_push (free : channel.room ≠ 0) : ∃ fits, channel.offer message = channel.push message fits := by
  unfold room at free
  split at free
  · exact absurd rfl free
  · next open_ =>
    have fits : channel.queue.length < capacity := by omega
    refine ⟨fits, ?_⟩
    unfold offer trySend
    rw [if_neg open_, dif_pos fits]
    rfl

/-- An offer that is accepted. -/
theorem offer_of_room_ne_zero (free : channel.room ≠ 0) :
    (channel.offer message).accepted = channel.accepted ++ [message] ∧
      (channel.offer message).room = channel.room - 1 := by
  obtain ⟨fits, pushed⟩ := @offer_eq_push _ _ _ message free
  rw [pushed]
  refine ⟨accepted_push fits, ?_⟩
  simp only [room, push, List.length_append, List.length_singleton]
  split
  · rfl
  · omega

/-- Of messages offered one after the other, as many are accepted as there is room for. -/
theorem accepted_foldl_offer (messages : List α) (channel : Channel capacity α) :
    (messages.foldl offer channel).accepted = channel.accepted ++ messages.take channel.room := by
  induction messages generalizing channel with
  | nil => rw [List.foldl_nil, List.take_nil, List.append_nil]
  | cons message messages ih =>
    rw [List.foldl_cons, ih]
    by_cases full : channel.room = 0
    · rw [offer_of_room_eq_zero full, full, List.take_zero, List.take_zero]
    · obtain ⟨accepts, left⟩ := @offer_of_room_ne_zero _ _ _ message full
      obtain ⟨count, more⟩ := Nat.exists_eq_succ_of_ne_zero full
      rw [accepts, left, more, List.take_succ_cons, Nat.succ_sub_one, List.append_assoc,
        List.singleton_append]

end Channel

end Runtime
