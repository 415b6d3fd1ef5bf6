import SeriesWire.Instant.Shift
import SeriesWire.Instant.Snap

/-! Calls of a timestamp that is changed in place, made one after the other.
A call that fails leaves the timestamp as it was, and the caller may go on.
-/

namespace SeriesWire.Timestamp

/-- What a caller may ask of a timestamp that is changed in place. -/
inductive Call where
  | update (other : Timestamp)
  | updateEpoch (epoch : Int64)
  | updateMillis (millis : Int64)
  | setMax
  | add (amount : Amount)
  | subtract (amount : Amount)
  | snap (interval : Int64) (unit : TimeUnit) (anchor : Weekday)
  deriving DecidableEq, Repr

/-- Why a call left the timestamp as it was. -/
inductive CallError where
  | shift (cause : ShiftError)
  | snap (cause : SnapError)
  deriving DecidableEq, Repr

def CallError.message : CallError → String
  | .shift cause => cause.message
  | .snap cause => cause.message

/-- What a call makes of a timestamp. -/
def called (t : Timestamp) : Call → Except CallError Timestamp
  | .update other => .ok other
  | .updateEpoch epoch => .ok (.ofEpoch epoch)
  | .updateMillis millis => .ok (.ofMillis millis)
  | .setMax => .ok max
  | .add amount => (t.add amount).mapError .shift
  | .subtract amount => (t.subtract amount).mapError .shift
  | .snap interval unit anchor => (t.snap interval unit anchor).mapError .snap

def step (t : Timestamp) (call : Call) : Timestamp × Except CallError Unit :=
  match t.called call with
  | .ok next => (next, .ok ())
  | .error cause => (t, .error cause)

/-- A call that succeeds leaves what it makes of the timestamp. -/
theorem step_eq_ok_iff {t next : Timestamp} {call : Call}
    : t.step call = (next, .ok ()) ↔ t.called call = .ok next := by
  unfold step
  split <;> simp_all

theorem step_succeeds_iff {t : Timestamp} {call : Call}
    : (t.step call).2 = .ok () ↔ ∃ next, t.called call = .ok next := by
  unfold step
  split <;> simp_all

/-- A call that fails leaves the timestamp as it was. -/
theorem step_eq_error_iff {t left : Timestamp} {call : Call} {cause : CallError}
    : t.step call = (left, .error cause) ↔ t.called call = .error cause ∧ left = t := by
  unfold step
  split <;> grind

/-- The answers to calls made one after the other, whether they fail or not. -/
def run (t : Timestamp) : List Call → Timestamp × List (Except CallError Unit)
  | [] => (t, [])
  | call :: rest =>
    let (next, answer) := t.step call
    let (last, answers) := next.run rest
    (last, answer :: answers)

end SeriesWire.Timestamp
