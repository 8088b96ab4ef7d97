import StackScript.Output.Buffer
set_option autoImplicit false

/-!
# Receivers over many calls

What a receiver has been handed, call by call, and the first error it reported.  What it has
received only grows.  A receiver that takes all never reports an error; a receiver in fits
takes only part of some calls and recovers afterwards.
-/

namespace StackScript

namespace Receiver

variable {ω : Type} [Receiver ω]

/-- A receiver after it was handed some pieces, one a call. -/
def handed (w : ω) (pieces : List Bytes) : ω := pieces.foldl (fun w p => (write w p).1) w

/-- The first error that a receiver reports while it is handed some pieces. -/
def firstError (w : ω) : List Bytes → Option Bytes
  | [] => none
  | p :: pieces => (write w p).2.error.or (firstError (write w p).1 pieces)

/-- A receiver that reports no error, whatever it is handed. -/
def TakesAll (w : ω) : Prop := ∀ pieces, firstError w pieces = none

theorem handed_concat (w : ω) (pieces : List Bytes) (p : Bytes) :
    handed w (pieces ++ [p]) = (write (handed w pieces) p).1 := List.foldl_append

theorem firstError_concat (w : ω) (pieces : List Bytes) (p : Bytes) :
    firstError w (pieces ++ [p]) =
      (firstError w pieces).or (write (handed w pieces) p).2.error := by
  induction pieces generalizing w with
  | nil => exact Option.or_none
  | cons q pieces ih =>
    rw [List.cons_append, firstError, ih, ← Option.or_assoc]
    rfl

/-- What was received stays received. -/
theorem received_le_handed (w : ω) (pieces : List Bytes) :
    received w <+: received (handed w pieces) := by
  induction pieces generalizing w with
  | nil => exact List.prefix_rfl
  | cons p pieces ih =>
    have hcall : received w <+: received (write w p).1 := by
      rw [received_write]
      exact List.prefix_append _ _
    exact hcall.trans (ih (write w p).1)

end Receiver

/-- A sink without a limit takes all. -/
theorem Sink.takesAll_ofLimit_none : Receiver.TakesAll (Sink.ofLimit none) := by
  have hcalls : ∀ pieces calls,
      Receiver.firstError (⟨none, calls, false⟩ : Sink) pieces = none := by
    intro pieces
    induction pieces with
    | nil => exact fun _ => rfl
    | cons p pieces ih => exact fun calls => ih (p :: calls)
  exact fun pieces => hcalls pieces []

/-! ## Receivers in fits -/

/-- A receiver in fits.  The plan says for the next calls how many bytes each takes at most;
once it is used up, calls take everything. -/
structure Fitful where
  plan : List Nat
  taken : Bytes
  deriving DecidableEq, Repr, Inhabited

namespace Fitful

/-- How many of `length` bytes the next call takes. -/
def share (w : Fitful) (length : Nat) : Nat :=
  match w.plan with
  | [] => length
  | most :: _ => min most length

/-- Hands bytes to a receiver in fits. -/
def write (w : Fitful) (p : Bytes) : Fitful × Taken :=
  let count := w.share p.length
  (⟨w.plan.tail, w.taken ++ p.take count⟩,
    ⟨count, if count < p.length then some broken else none⟩)

theorem count_write_le (w : Fitful) (p : Bytes) : (w.write p).2.count ≤ p.length := by
  simp only [write, share]
  split
  · exact Nat.le_refl _
  · exact Nat.min_le_right _ _

theorem error_write_of_count_lt (w : Fitful) (p : Bytes)
    (h : (w.write p).2.count < p.length) : (w.write p).2.error.isSome = true := by
  have herror : (w.write p).2.error = some broken := if_pos h
  rw [herror]
  rfl

theorem taken_write (w : Fitful) (p : Bytes) :
    (w.write p).1.taken = w.taken ++ p.take (w.write p).2.count := rfl

instance : Receiver Fitful where
  write := Fitful.write
  received := Fitful.taken
  takesTexts _ := false
  count_le := Fitful.count_write_le
  error_of_count_lt := Fitful.error_write_of_count_lt
  received_write := Fitful.taken_write

end Fitful

end StackScript
