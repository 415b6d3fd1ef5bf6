import SeriesWire.Proofs.Instant.DurationReader
import SeriesWire.Proofs.Instant.Shift

/-! What the ISO 8601 text of an amount tells about it.
Only the whole seconds of a span show the sign of its fraction. Where they are zero, the fraction
reads as a positive one, whichever sign the hours and minutes have.
-/

namespace SeriesWire.Amount

open Iso8601

-----------------------------------------------------------------------------------------
-- The components of a span
-----------------------------------------------------------------------------------------

def hours (nanos : Int) : Int :=
  (wholeSeconds nanos).tdiv 3600

def minutes (nanos : Int) : Int :=
  ((wholeSeconds nanos).tmod 3600).tdiv 60

def seconds (nanos : Int) : Int :=
  (wholeSeconds nanos).tmod 60

/-- The components and the fraction make up the span, and none of them is against another. -/
theorem clock_parts (nanos : Int)
    : 3600000000000 * hours nanos + 60000000000 * minutes nanos + 1000000000 * seconds nanos
        + restNanos nanos = nanos
      ∧ (0 ≤ hours nanos ∧ 0 ≤ minutes nanos ∧ 0 ≤ seconds nanos ∧ 0 ≤ restNanos nanos
        ∨ hours nanos ≤ 0 ∧ minutes nanos ≤ 0 ∧ seconds nanos ≤ 0 ∧ restNanos nanos ≤ 0)
      ∧ (restNanos nanos).natAbs < 1000000000 := by
  obtain ⟨ofSeconds, aboveSecond, belowSecond, rest⟩ :=
    truncated_parts nanos (show (0 : Int) < 1000000000 by decide)
  obtain ⟨ofHours, aboveHour, belowHour, _⟩ :=
    truncated_parts (wholeSeconds nanos) (show (0 : Int) < 3600 by decide)
  obtain ⟨ofMinutes, aboveMinute, belowMinute, _⟩ :=
    truncated_parts ((wholeSeconds nanos).tmod 3600) (show (0 : Int) < 60 by decide)
  rw [Int.tmod_tmod_of_dvd _ (by decide)] at ofMinutes aboveMinute belowMinute
  change 1000000000 * wholeSeconds nanos + restNanos nanos = nanos at ofSeconds
  change 3600 * hours nanos + (wholeSeconds nanos).tmod 3600 = wholeSeconds nanos at ofHours
  change 60 * minutes nanos + seconds nanos = (wholeSeconds nanos).tmod 3600 at ofMinutes
  change -1000000000 < restNanos nanos ∧ restNanos nanos < 1000000000 at rest
  refine ⟨by omega, ?_, by omega⟩
  rcases Int.le_total 0 nanos with above | below
  · obtain ⟨whole, first⟩ := aboveSecond above
    obtain ⟨hour, left⟩ := aboveHour whole
    exact .inl ⟨hour, (aboveMinute left).1, (aboveMinute left).2, first⟩
  · obtain ⟨whole, first⟩ := belowSecond below
    obtain ⟨hour, left⟩ := belowHour whole
    exact .inr ⟨hour, (belowMinute left).1, (belowMinute left).2, first⟩

/-- The billionths of the component with the seconds. The fraction has the sign of the seconds, and
none without them.
-/
def shownSeconds (seconds rest : Int) : Int :=
  seconds * 1000000000 + (if seconds = 0 then (rest.natAbs : Int) else rest)

theorem shows_component (mark : Char) (letter : String) (single : letter.toList = [mark])
    (count : Int)
    : Shows natural? mark (component count letter).toList count := by
  rw [component]
  split
  · rename_i zero
    exact .inl ⟨rfl, zero⟩
  · rw [String.toList_append, single]
    exact .inr ⟨_, rfl, fun _ => numeral_of_mem_toString, signed?_natural count⟩

theorem shows_secondsText (seconds : Int) {rest : Int} (below : rest.natAbs < 1000000000)
    (signs : 0 ≤ seconds ∧ 0 ≤ rest ∨ seconds ≤ 0 ∧ rest ≤ 0)
    : Shows billionths? 'S' (secondsText seconds rest).toList (shownSeconds seconds rest) := by
  rw [secondsText]
  split
  · rename_i zero
    rw [zero.1, zero.2]
    exact .inl ⟨rfl, rfl⟩
  · right
    split
    · rename_i whole
      have reads := @signed?_toString billionths? seconds [] _
        (by rw [List.append_nil, billionths?_whole])
      rw [List.append_nil] at reads
      refine ⟨(toString seconds).toList, ?_, fun _ => numeral_of_mem_toString, reads.trans ?_⟩
      · simp only [String.toList_append]
        rfl
      · rw [Option.some.injEq, shownSeconds, whole]
        split <;> split <;> omega
    · have reads := signed?_toString (billionths?_places seconds.natAbs below)
      have point : (toString ".").toList = ['.'] := rfl
      refine ⟨_, ?_, ?_, reads.trans ?_⟩
      · simp only [String.toList_append, String.toList_ofList, point]
        rw [List.append_assoc (toString seconds).toList, List.singleton_append]
        rfl
      · intro c member
        rcases List.mem_append.mp member with number | fraction
        · exact numeral_of_mem_toString number
        · exact numeral_of_mem_places fraction
      · rw [Option.some.injEq, shownSeconds]
        split <;> split <;> omega

-----------------------------------------------------------------------------------------
-- Reading an amount
-----------------------------------------------------------------------------------------

/-- The time components of a span's text are its own, up to the sign of the fraction. -/
theorem time?_iso8601_span (nanos : Int)
    : time? (iso8601 (.span nanos))
      = some (hours nanos, minutes nanos, shownSeconds (seconds nanos) (restNanos nanos)) := by
  by_cases zero : nanos = 0
  · rw [zero]
    decide
  · obtain ⟨_, signs, below⟩ := clock_parts nanos
    have reads := components?_of_shows (by decide) (by decide)
      (shows_component 'H' "H" rfl (hours nanos))
      (shows_component 'M' "M" rfl (minutes nanos))
      (shows_secondsText (seconds nanos) below (by omega))
    have text : (iso8601 (.span nanos)).toList
        = ['P'] ++ 'T' :: ((component (hours nanos) "H").toList
          ++ ((component (minutes nanos) "M").toList
            ++ (secondsText (seconds nanos) (restNanos nanos)).toList)) := by
      simp only [iso8601, if_neg zero, String.toList_append, List.append_assoc]
      rfl
    rw [time?, text, cut?_append (by decide)]
    exact reads

section Period

variable (years months days : Int32)

theorem toList_iso8601_period {years months days : Int32}
    (filled : ¬ (years = 0 ∧ months = 0 ∧ days = 0))
    : (iso8601 (.period years months days)).toList
      = 'P' :: ((component years.toInt "Y").toList
        ++ ((component months.toInt "M").toList ++ (component days.toInt "D").toList)) := by
  simp only [iso8601, if_neg filled, String.toList_append, List.append_assoc]
  rfl

theorem date?_iso8601_period
    : date? (iso8601 (.period years months days))
      = some (years.toInt, months.toInt, days.toInt) := by
  by_cases zero : years = 0 ∧ months = 0 ∧ days = 0
  · obtain ⟨rfl, rfl, rfl⟩ := zero
    decide
  · have reads := components?_of_shows (by decide) (by decide)
      (shows_component 'Y' "Y" rfl years.toInt)
      (shows_component 'M' "M" rfl months.toInt)
      (shows_component 'D' "D" rfl days.toInt)
    rw [date?, toList_iso8601_period zero, List.head?_cons, if_pos rfl, List.tail_cons]
    exact reads

theorem time?_iso8601_period
    : time? (iso8601 (.period years months days)) = none := by
  by_cases zero : years = 0 ∧ months = 0 ∧ days = 0
  · obtain ⟨rfl, rfl, rfl⟩ := zero
    decide
  · have untimed : 'T' ∉ (iso8601 (.period years months days)).toList := by
      have early : 'T' ∉ (component years.toInt "Y").toList :=
        (shows_component 'Y' "Y" rfl _).not_mem (by decide) (by decide)
      have middle : 'T' ∉ (component months.toInt "M").toList :=
        (shows_component 'M' "M" rfl _).not_mem (by decide) (by decide)
      have late : 'T' ∉ (component days.toInt "D").toList :=
        (shows_component 'D' "D" rfl _).not_mem (by decide) (by decide)
      rw [toList_iso8601_period zero]
      simp only [List.mem_cons, List.mem_append, not_or]
      exact ⟨by decide, early, middle, late⟩
    rw [time?, cut?_eq_none untimed]
    rfl

end Period

/-- The amount that a duration text stands for: a span if it has a time, and a period otherwise. -/
def ofIso8601? (text : String) : Option Amount :=
  match time? text with
  | some (hours, minutes, nanos) =>
    some (.span (hours * 3600000000000 + minutes * 60000000000 + nanos))
  | none => do
    let (years, months, days) ← date? text
    let years ← (narrow32 years).toOption
    let months ← (narrow32 months).toOption
    let days ← (narrow32 days).toOption
    return .period years months days

/-- The text shows the sign of every component. -/
def SignShown : Amount → Prop
  | .span nanos => seconds nanos ≠ 0 ∨ 0 ≤ restNanos nanos
  | .period _ _ _ => True

/-- The amount that the text shows. A negative fraction without seconds is counted the other way. -/
def shown : Amount → Amount
  | .span nanos =>
    .span (if seconds nanos = 0 ∧ restNanos nanos < 0 then nanos - 2 * restNanos nanos else nanos)
  | .period years months days => .period years months days

theorem shown_eq_self_iff (amount : Amount)
    : amount.shown = amount ↔ amount.SignShown := by
  cases amount with
  | span nanos =>
      simp only [shown, SignShown, span.injEq]
      split <;> omega
  | period years months days => exact iff_of_true rfl trivial

theorem ofIso8601?_iso8601 (amount : Amount)
    : ofIso8601? amount.iso8601 = some amount.shown := by
  cases amount with
  | span nanos =>
      have total := (clock_parts nanos).1
      rw [ofIso8601?, time?_iso8601_span]
      simp only [shown, shownSeconds, Option.some.injEq, span.injEq]
      split <;> split <;> omega
  | period years months days =>
      have narrowed (n : Int32) : narrow32 n.toInt = .ok n := narrow32_eq_ok_iff.mpr rfl
      rw [ofIso8601?, time?_iso8601_period]
      simp only [date?_iso8601_period, Option.bind_eq_bind, Option.bind_some, narrowed]
      rfl

-----------------------------------------------------------------------------------------
-- Equal texts
-----------------------------------------------------------------------------------------

/-- Less than a second is written without its sign. -/
theorem iso8601_span_neg {nanos : Int} (short : nanos.natAbs < 1000000000)
    : iso8601 (.span (-nanos)) = iso8601 (.span nanos) := by
  have inSecond := truncated_parts nanos (show (0 : Int) < 1000000000 by decide)
  have whole : wholeSeconds nanos = 0 := by
    rw [wholeSeconds]
    omega
  have negated : wholeSeconds (-nanos) = 0 := by
    rw [wholeSeconds, Int.neg_tdiv, ← wholeSeconds, whole, Int.neg_zero]
  have rest : restNanos (-nanos) = -restNanos nanos := Int.neg_tmod ..
  simp only [iso8601, whole, negated, rest, secondsText, Int.neg_eq_zero, Int.natAbs_neg]

/-- The components of a text tell spans of a second or more apart, and shorter ones up to the sign.
-/
theorem iso8601_span_eq_iff (m n : Int)
    : iso8601 (.span m) = iso8601 (.span n) ↔ m = n ∨ m = -n ∧ n.natAbs < 1000000000 := by
  constructor
  · intro same
    have read := congrArg time? same
    rw [time?_iso8601_span, time?_iso8601_span, Option.some.injEq, Prod.mk.injEq,
      Prod.mk.injEq] at read
    obtain ⟨hour, minute, second⟩ := read
    have left := clock_parts m
    have right := clock_parts n
    simp only [shownSeconds] at second
    split at second <;> split at second <;> omega
  · intro equal
    rcases equal with rfl | ⟨rfl, short⟩
    · rfl
    · exact iso8601_span_neg short

/-- A text reads as the amount it was made of exactly if the amount is a period, or a span whose
fraction is not negative or has seconds in front of it that show the sign. From any other span it
reads as twice the fraction more. Two amounts have one text exactly if they are the same, or
opposite spans of less than a second.
-/
theorem iso8601_read_back (first second : Amount)
    : ofIso8601? first.iso8601 = some first.shown
      ∧ (ofIso8601? first.iso8601 = some first ↔ first.SignShown)
      ∧ (first.iso8601 = second.iso8601
        ↔ first = second
          ∨ ∃ nanos : Int,
              nanos.natAbs < 1000000000
              ∧ first = .span nanos
              ∧ second = .span (-nanos)) := by
  refine ⟨ofIso8601?_iso8601 first, ?_, ?_⟩
  · rw [ofIso8601?_iso8601, Option.some.injEq]
    exact shown_eq_self_iff first
  · constructor
    · intro same
      have read := congrArg ofIso8601? same
      rw [ofIso8601?_iso8601, ofIso8601?_iso8601, Option.some.injEq] at read
      cases first with
      | span m =>
          cases second with
          | span n =>
              rcases (iso8601_span_eq_iff m n).mp same with rfl | ⟨rfl, short⟩
              · exact .inl rfl
              · exact .inr ⟨-n, by omega, rfl, by rw [Int.neg_neg]⟩
          | period _ _ _ => cases read
      | period years months days =>
          cases second with
          | span _ => cases read
          | period _ _ _ => exact .inl read
    · intro equal
      rcases equal with rfl | ⟨nanos, short, rfl, rfl⟩
      · rfl
      · exact (iso8601_span_neg short).symm

/-- Half a second less than nothing has the text of half a second, and half a second less than minus
an hour reads as half a second more than it.
-/
theorem iso8601_unsigned
    : iso8601 (.span (-500000000)) = "PT0.5S"
      ∧ iso8601 (.span 500000000) = "PT0.5S"
      ∧ ofIso8601? (iso8601 (.span (-500000000))) ≠ some (.span (-500000000))
      ∧ iso8601 (.span (-3600500000000)) = "PT-1H0.5S"
      ∧ ofIso8601? (iso8601 (.span (-3600500000000))) = some (.span (-3599500000000)) := by
  decide

end SeriesWire.Amount
