/-! Days of the week, counted from Sunday. -/

namespace SeriesWire

inductive Weekday where
  | sunday
  | monday
  | tuesday
  | wednesday
  | thursday
  | friday
  | saturday
  deriving DecidableEq, Repr

namespace Weekday

def daysFromSunday : Weekday → Int
  | .sunday => 0
  | .monday => 1
  | .tuesday => 2
  | .wednesday => 3
  | .thursday => 4
  | .friday => 5
  | .saturday => 6

/-- The weekday a number of days after a Sunday. -/
def afterSunday (days : Int) : Weekday :=
  match (days % 7).toNat with
  | 0 => .sunday
  | 1 => .monday
  | 2 => .tuesday
  | 3 => .wednesday
  | 4 => .thursday
  | 5 => .friday
  | _ => .saturday

def abbreviation : Weekday → String
  | .sunday => "Sun"
  | .monday => "Mon"
  | .tuesday => "Tue"
  | .wednesday => "Wed"
  | .thursday => "Thu"
  | .friday => "Fri"
  | .saturday => "Sat"

theorem daysFromSunday_range (weekday : Weekday)
    : 0 ≤ weekday.daysFromSunday ∧ weekday.daysFromSunday < 7 := by
  cases weekday <;> decide

theorem daysFromSunday_inj {first second : Weekday}
    : first.daysFromSunday = second.daysFromSunday ↔ first = second := by
  cases first <;> cases second <;> decide

/-- Counting back from a weekday gives the residue that it was found by. -/
theorem daysFromSunday_afterSunday (days : Int)
    : (afterSunday days).daysFromSunday = days % 7 := by
  have hl := Int.emod_nonneg days (show (7 : Int) ≠ 0 by decide)
  have hu := Int.emod_lt_of_pos days (show (0 : Int) < 7 by decide)
  unfold afterSunday
  generalize days % 7 = r at *
  obtain rfl | rfl | rfl | rfl | rfl | rfl | rfl
      : r = 0 ∨ r = 1 ∨ r = 2 ∨ r = 3 ∨ r = 4 ∨ r = 5 ∨ r = 6 := by omega
  all_goals rfl

end Weekday

end SeriesWire
