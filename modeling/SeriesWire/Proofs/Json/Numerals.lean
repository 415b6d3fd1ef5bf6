import SeriesWire.Json.Grammar
import SeriesWire.Json.Scalar

/-! The texts of integers and of finite doubles are numbers of the grammar.
A digit string has no leading zero unless it is the zero itself, so a positional text may only place
the point behind a zero where no other digit stands before it.
-/

namespace SeriesWire.Json

open Grammar

-----------------------------------------------------------------------------------------
-- Digits
-----------------------------------------------------------------------------------------

theorem digits_toDigits (n : Nat) : Digits (Nat.toDigits 10 n) :=
  ⟨Nat.toDigits_ne_nil, fun _ member => Nat.isDigit_of_mem_toDigits (by decide) (by decide) member⟩

/-- The digits of a positive number begin with another digit than zero, by strong induction on the
number without its last digit. -/
theorem head?_toDigits_ne_zero {n : Nat} (positive : 0 < n)
    : (Nat.toDigits 10 n).head? ≠ some '0' := by
  induction n using Nat.strongRecOn with
  | ind n ih =>
      by_cases small : n < 10
      · rw [Nat.toDigits_of_lt_base small, List.head?_cons, ne_eq, Option.some.injEq,
          Nat.digitChar_eq_zero]
        exact Nat.ne_of_gt positive
      · obtain ⟨first, rest, led⟩ :=
          List.exists_cons_of_ne_nil (Nat.toDigits_ne_nil (n := n / 10) (b := 10))
        have earlier := ih (n / 10) (by omega) (by omega)
        rw [Nat.toDigits_of_base_le (by decide) (Nat.le_of_not_lt small), led]
        rwa [led] at earlier

/-- Digits are a whole number unless a zero leads others. -/
theorem whole_of_digits {text : List Char} (digits : Digits text)
    (unled : text.head? = some '0' → text = ['0'])
    : Whole text := by
  obtain ⟨first, rest, rfl⟩ := List.exists_cons_of_ne_nil digits.1
  by_cases zero : first = '0'
  · rw [unled (by rw [zero]; rfl)]
    exact .zero
  · exact .led (digits.2 first (by simp)) zero fun c member => digits.2 c (by simp [member])

theorem whole_toDigits (n : Nat) : Whole (Nat.toDigits 10 n) := by
  refine whole_of_digits (digits_toDigits n) fun led => ?_
  rcases Nat.eq_zero_or_pos n with rfl | positive
  · rfl
  · exact (head?_toDigits_ne_zero positive led).elim

theorem Digits.append {first second : List Char} (hf : Digits first)
    (hs : ∀ c ∈ second, c.isDigit)
    : Digits (first ++ second) := by
  refine ⟨by simp [hf.1], fun c member => ?_⟩
  rcases List.mem_append.mp member with before | behind
  · exact hf.2 c before
  · exact hs c behind

theorem isDigit_of_mem_zeros {count : Nat} {c : Char} (member : c ∈ List.replicate count '0')
    : c.isDigit := by
  rw [(List.mem_replicate.mp member).2]
  decide

-----------------------------------------------------------------------------------------
-- Integers
-----------------------------------------------------------------------------------------

/-- A whole number alone is a number, with or without a minus sign. -/
theorem number_of_whole {sign whole : List Char} (sign_eq : sign = [] ∨ sign = ['-'])
    (h : Whole whole)
    : Number (sign ++ whole) := by
  have number := Number.of sign_eq h .none .none
  simpa using number

theorem number_toString_int (value : Int) : Number (toString value).toList := by
  rw [Int.toString_eq_repr, Int.repr_eq_if]
  split
  · rw [Nat.toList_repr]
    exact number_of_whole (.inl rfl) (whole_toDigits _)
  · rw [String.toList_append, Nat.toList_repr]
    exact number_of_whole (.inr rfl) (whole_toDigits _)

-----------------------------------------------------------------------------------------
-- Doubles
-----------------------------------------------------------------------------------------

/-- Moving zeros into the exponent keeps a decimal from being zero, by induction on the places. -/
theorem digits_trim_ne_zero (places : Nat) {d : Decimal} (h : d.digits ≠ 0)
    : (Decimal.trim places d).digits ≠ 0 := by
  induction places generalizing d with
  | zero => exact h
  | succ places ih =>
      rw [Decimal.trim]
      split
      · exact ih (d := ⟨d.digits / 10, d.exponent + 1⟩) (by simp only; omega)
      · exact h

theorem shiftLeft_pos {n : Nat} (h : 0 < n) (count : Nat) : 0 < n <<< count := by
  rw [Nat.shiftLeft_eq]
  exact Nat.mul_pos h (Nat.pow_pos (by decide))

/-- A multiple in an interval above zero is not zero. -/
theorem ne_zero_of_inside {b : Decimal.Basin} {quarter step n : Nat} (above : 0 < b.low * quarter)
    (inside : (if b.closed then
        decide (b.low * quarter ≤ n * step ∧ n * step ≤ b.high * quarter)
      else decide (b.low * quarter < n * step ∧ n * step < b.high * quarter)) = true)
    : n ≠ 0 := by
  rintro rfl
  rw [Nat.zero_mul] at inside
  split at inside
  · have low := (of_decide_eq_true inside).1
    omega
  · have low := (of_decide_eq_true inside).1
    omega

/-- The interval of a positive double does not reach down to zero, so no point in it is zero. -/
theorem digits_nearestOn_ne_zero {b : Decimal.Basin} (positive : 0 < b.low) {exponent : Int}
    {d : Decimal} (h : b.nearestOn exponent = some d)
    : d.digits ≠ 0 := by
  have above : 0 < b.low * (Nat.pow 10 (-exponent).toNat <<< b.quarter.toNat) :=
    Nat.mul_pos positive (shiftLeft_pos (Nat.pow_pos (by decide)) _)
  simp only [Decimal.Basin.nearestOn] at h
  split at h
  · contradiction
  · rename_i inside _
    cases h
    exact ne_zero_of_inside above inside
  · cases h
    exact Nat.succ_ne_zero _
  · rename_i inside _
    have below := ne_zero_of_inside above inside
    split at h
    · cases h
      exact below
    · cases h
      exact Nat.succ_ne_zero _
    · cases h
      exact fun zero => below (Nat.eq_zero_of_add_eq_zero_right zero)

/-- A decimal without digits is zero itself, or it is no longer written positionally. -/
theorem exponent_shortest {x : Binary64} (h : (Decimal.shortest x).digits = 0)
    : (Decimal.shortest x).exponent = 0 ∨ 15 < (Decimal.shortest x).exponent := by
  rw [Decimal.shortest] at h ⊢
  split at h
  · rename_i zero
    rw [if_pos zero]
    exact .inl rfl
  · rename_i filled
    rw [if_neg filled]
    simp only at h ⊢
    have positive : 0 < (Decimal.Basin.of x).low := by
      simp only [Decimal.Basin.of]
      split <;> omega
    cases found : (List.range 17).findSome? fun (i : Nat) =>
        (Decimal.Basin.of x).nearestOn (Decimal.floorLog
          ((Decimal.Basin.of x).middle <<< (Decimal.Basin.of x).quarter.toNat)
          (1 <<< (-(Decimal.Basin.of x).quarter).toNat) - i) with
    | none => exact .inr (by decide)
    | some d =>
        rw [found, Option.getD_some] at h
        obtain ⟨i, _, hit⟩ := List.exists_of_findSome?_eq_some found
        exact (digits_trim_ne_zero 17 (digits_nearestOn_ne_zero positive hit) h).elim

/-- Digits with the point behind, among or before them. Only a single place may hold a zero in
front. -/
theorem number_positional {sign ds : List Char} {leading : Int}
    (sign_eq : sign = [] ∨ sign = ['-']) (digits : Digits ds)
    (unled : ds.head? = some '0' → leading ≤ 0)
    : Number (sign ++ positional ds leading) := by
  unfold positional
  split
  · have zeros : Digits (List.replicate (-leading - 1).toNat '0' ++ ds) := by
      refine ⟨by simp [digits.1], fun c member => ?_⟩
      rcases List.mem_append.mp member with before | behind
      · exact isDigit_of_mem_zeros before
      · exact digits.2 c behind
    have number := Number.of sign_eq .zero (.digits zeros) .none
    simpa using number
  · rename_i natural
    obtain ⟨first, rest, rfl⟩ := List.exists_cons_of_ne_nil digits.1
    have before : Whole (((first :: rest).take (leading.toNat + 1)).rightpad
        (leading.toNat + 1) '0') := by
      rw [List.take_succ_cons, List.rightpad]
      refine whole_of_digits ⟨by simp, fun c member => ?_⟩ fun led => ?_
      · rcases List.mem_append.mp member with own | zero
        · exact digits.2 c (List.cons_subset_cons first (List.take_subset _ _) own)
        · exact isDigit_of_mem_zeros zero
      · have single : leading.toNat = 0 := Int.toNat_eq_zero.mpr (unled led)
        have zero : first = '0' := Option.some.inj led
        simp [single, zero]
    have behind : Fraction ('.' ::
        if ((first :: rest).drop (leading.toNat + 1)).isEmpty then ['0']
        else (first :: rest).drop (leading.toNat + 1)) := by
      refine .digits ?_
      split
      · exact digits_toDigits 0
      · rename_i filled
        refine ⟨by simpa using filled, fun c member => ?_⟩
        exact digits.2 c (List.mem_of_mem_drop member)
    have number := Number.of sign_eq before behind .none
    simpa using number

theorem number_scientific {sign ds : List Char} {leading : Int}
    (sign_eq : sign = [] ∨ sign = ['-']) (digits : Digits ds)
    : Number (sign ++ scientific ds leading) := by
  unfold scientific
  obtain ⟨first, rest, rfl⟩ := List.exists_cons_of_ne_nil digits.1
  have before : Whole [first] :=
    whole_of_digits ⟨by simp, by simpa using digits.2 first⟩ (by simp)
  have behind : Fraction (if rest.isEmpty then [] else '.' :: rest) := by
    split
    · exact .none
    · rename_i filled
      exact .digits ⟨by simpa using filled, fun c member => digits.2 c (by simp [member])⟩
  have scale : Exponent ('e' :: ([if leading < 0 then '-' else '+']
      ++ Nat.toDigits 10 leading.natAbs)) := by
    refine .digits (.inl rfl) ?_ (digits_toDigits _)
    split
    · exact .inr (.inr rfl)
    · exact .inr (.inl rfl)
  have number := Number.of sign_eq before behind scale
  simpa using number

/-- A double is laid out as a number. Where its digits are a lone zero, it is written with one place
or with an exponent.
-/
theorem number_doubleLayout (x : Binary64) : Number (DoubleLayout.json.text x).toList := by
  rw [DoubleLayout.text]
  simp only [String.toList_ofList]
  have digits := digits_toDigits (Decimal.shortest x).digits
  have signed {sign : List Char} (sign_eq : sign = [] ∨ sign = ['-'])
      : Number (sign ++
          let ds := Nat.toDigits 10 (Decimal.shortest x).digits
          let leading := (Decimal.shortest x).exponent + ds.length - 1
          if DoubleLayout.json.least ≤ leading ∧ leading ≤ DoubleLayout.json.greatest then
            positional ds leading
          else scientific ds leading) := by
    simp only
    split
    · rename_i placed
      refine number_positional sign_eq digits fun led => ?_
      have zero : (Decimal.shortest x).digits = 0 := by
        rcases Nat.eq_zero_or_pos (Decimal.shortest x).digits with zero | positive
        · exact zero
        · exact (head?_toDigits_ne_zero positive led).elim
      rw [zero, Nat.toDigits_zero] at placed ⊢
      have bound := placed.2
      rcases exponent_shortest zero with none | far
      · simp [none]
      · simp [DoubleLayout.json] at bound
        omega
    · exact number_scientific sign_eq digits
  split
  · exact signed (.inr rfl)
  · exact signed (.inl rfl)

end SeriesWire.Json
