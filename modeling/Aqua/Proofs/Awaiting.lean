import Aqua.Proofs.ConnectionPoll

/-! # Decoding along the reads

A poll that reads adds what has arrived to the buffer and polls the decoder once, so a stage of a packet
is tried behind the first read that leaves the decoder something to look at. `Awaits` finds that read.
Whatever is asked of a whole sequence of such polls (`Driven`) is settled there.
-/

namespace Aqua

open Wire

/-- As many bytes as the decoder has to find before it looks at them. -/
def Decoder.enough (d : Decoder) : ℕ := if d.state = .done then 2 else 1

theorem Decoder.stalled_iff_enough {build : Build} {d : Decoder} :
    d.Stalled build ↔ d.buf.length < d.enough := by
  rw [stalled_iff, enough, ← List.length_eq_zero_iff]
  split
  · next done =>
    rw [and_iff_right done]
    omega
  · next later =>
    rw [or_iff_left fun short => later short.1]
    omega

namespace Connection

/-- The bytes that arrive before a read ends the connection. -/
def received : List SocketRead → Bytes
  | [] => []
  | read :: rest =>
      match arrived read with
      | none => []
      | some bytes => bytes ++ received rest

/-- A read ends the connection. -/
def Closes (reads : List SocketRead) : Prop := ∃ read ∈ reads, arrived read = none

/-- `next` holds of the first buffer that has `enough` bytes behind a read, and of the reads left;
`ended` is for a connection that ends before. Behind the last read nothing arrives any more. -/
def Awaits (ended : Prop) (enough : ℕ) (next : Bytes → List SocketRead → Prop) :
    Bytes → List SocketRead → Prop
  | buf, [] => enough ≤ buf.length ∧ next buf []
  | buf, read :: rest =>
      match arrived read with
      | none => ended
      | some bytes =>
          if enough ≤ (buf ++ bytes).length then next (buf ++ bytes) rest
          else Awaits ended enough next (buf ++ bytes) rest

/-- The buffer and the reads left, behind some of the reads. -/
inductive Later : Bytes → List SocketRead → Bytes → List SocketRead → Prop
  | refl (buf : Bytes) (reads : List SocketRead) : Later buf reads buf reads
  | read {buf bytes final : Bytes} {read : SocketRead} {rest left : List SocketRead}
      (arrives : arrived read = some bytes) (later : Later (buf ++ bytes) rest final left) :
      Later buf (read :: rest) final left

variable {buf final : Bytes} {reads left : List SocketRead}

/-- Reading moves bytes from the stream to the buffer. -/
theorem Later.stream (later : Later buf reads final left) :
    final ++ received left = buf ++ received reads := by
  induction later with
  | refl => rfl
  | read arrives _ ih => rw [ih, received, arrives, List.append_assoc]

theorem Later.closes (later : Later buf reads final left) (closes : Closes reads) : Closes left := by
  induction later with
  | refl => exact closes
  | read arrives _ ih =>
    obtain ⟨read, member, ends⟩ := closes
    rcases List.mem_cons.mp member with rfl | member
    · cases arrives.symm.trans ends
    · exact ih ⟨read, member, ends⟩

/-- What is asked of the buffer may use that it has enough bytes, and where they come from. -/
theorem Awaits.congr {ended : Prop} {enough : ℕ} {next next' : Bytes → List SocketRead → Prop}
    (same : ∀ final left, Later buf reads final left → enough ≤ final.length →
      (next final left ↔ next' final left)) :
    Awaits ended enough next buf reads ↔ Awaits ended enough next' buf reads := by
  induction reads generalizing buf with
  | nil => exact and_congr_right fun long => same buf [] (.refl _ _) long
  | cons read rest ih =>
    unfold Awaits
    cases arrives : arrived read with
    | none => exact Iff.rfl
    | some bytes =>
      dsimp only
      split
      · next long => exact same _ _ (.read arrives (.refl _ _)) long
      · exact ih fun final left later => same final left (.read arrives later)

/-- A question about the polls along a sequence of reads, which a poll that moves the decoder answers by
`step`. -/
structure Driven (build : Build) (question : Decoder → List SocketRead → Prop) (ended : Prop)
    (step : Decoder → List SocketRead → Prop) : Prop where
  ends : ∀ {d read rest}, arrived read = none → (question d (read :: rest) ↔ ended)
  reads : ∀ {d read bytes rest}, arrived read = some bytes →
    (question d (read :: rest) ↔ step (d.feed bytes) rest)
  stalls : ∀ {d rest}, d.Stalled build → (step d rest ↔ question d rest)
  idle : ∀ {d}, d.Stalled build → ¬ question d []
  last : ∀ {d}, ¬ d.Stalled build → (question d [] ↔ step d [])

theorem Driven.iff_awaits {build : Build} {question step : Decoder → List SocketRead → Prop}
    {ended : Prop} (driven : Driven build question ended step) (d : Decoder) (reads : List SocketRead) :
    question d reads ↔ Awaits ended d.enough (fun buf left => step (d.holding buf) left) d.buf reads := by
  induction reads generalizing d with
  | nil =>
    unfold Awaits
    by_cases stalled : d.Stalled build
    · refine iff_of_false (driven.idle stalled) fun ⟨long, _⟩ => ?_
      exact Nat.not_lt.mpr long (Decoder.stalled_iff_enough.mp stalled)
    · rw [driven.last stalled]
      exact (and_iff_right (Nat.le_of_not_lt (mt Decoder.stalled_iff_enough.mpr stalled))).symm
  | cons read rest ih =>
    unfold Awaits
    cases arrives : arrived read with
    | none => exact driven.ends arrives
    | some bytes =>
      rw [driven.reads arrives]
      dsimp only
      split
      · exact Iff.rfl
      · next short =>
        have stalled : (d.feed bytes).Stalled build :=
          Decoder.stalled_iff_enough.mpr (Nat.lt_of_not_le short)
        rw [driven.stalls stalled]
        exact ih (d.feed bytes)

end Connection

end Aqua
