import Mathlib.Data.List.Forall2
import SeriesWire.Proofs.Series.Frames
import SeriesWire.Proofs.SortedMap.Tabulation

/-! Summaries stand under the aggregations of the first of them.
With named aggregations every value makes a row with one cell for each name, whatever aggregations
it has itself. Without names it makes one number, that of the first aggregation.
-/

namespace SeriesWire

open Json

namespace Summary

/-- The columns of a table of values: the aggregations of the first value that is not a gap, in
ascending order, and none if all values are gaps.
-/
structure Columns (values : List (Sample Summary)) (ids : List Int32) : Prop where
  ascending : ids.Pairwise (· < ·)
  chosen
    : ((∀ sample ∈ values, sample.value = none) ∧ ids = [])
      ∨ ∃ gaps time summary rest,
          values = gaps ++ ⟨time, some summary⟩ :: rest
          ∧ (∀ gap ∈ gaps, gap.value = none)
          ∧ ∀ id, id ∈ ids ↔ ∃ number, summary.values.get? id = some number

/-- A row under the given columns: null for a gap, and otherwise one cell for each of them, which is
null if the value lacks the aggregation.
-/
inductive Row (ids : List Int32) : Option Summary → Json → Prop
  | gap : Row ids none .null
  | cells {summary : Summary} {cells : List Json}
    (shown : List.Forall₂ (fun id cell => cell = Number.toJson? (summary.values.get? id)) ids cells)
    : Row ids (some summary) (.array cells)

/-- The number of a value under the first column. It is null for a gap, for a value that lacks the
aggregation, and if there is no column at all.
-/
inductive FirstCell (ids : List Int32) : Option Summary → Json → Prop
  | gap : FirstCell ids none .null
  | uncounted {summary : Summary} (none : ids = []) : FirstCell ids (some summary) .null
  | missing {summary : Summary} {id : Int32} {others : List Int32} (first : ids = id :: others)
    (missing : summary.values.get? id = none)
    : FirstCell ids (some summary) .null
  | number {summary : Summary} {id : Int32} {others : List Int32} {number : Number}
    (first : ids = id :: others) (present : summary.values.get? id = some number)
    : FirstCell ids (some summary) number.toJson

end Summary

/-- The frame got a member more, behind a comma if it was open before. -/
structure Frame.Gains (frame next : Frame) (name : String) (value : Json) : Prop where
  text
    : next.body.text
      = frame.body.text ++ (if frame.opened then "," else "") ++ quoted name ++ ":" ++ value.text
  opened : next.opened = true
  embedded : next.embedded = frame.embedded

theorem Frame.gains_holding (members : Members) (embedded : Bool) (name : String) (value : Json)
    : (holding members embedded).Gains (holding (members ++ [(name, value)]) embedded) name
        value where
  text := by
    refine (Members.text_append members [(name, value)]).trans ?_
    cases members <;> simp [holding, memberTexts, separated, String.append_assoc]
  opened := by simp [holding]
  embedded := rfl

namespace EntryContext

/-- Every list of values has columns. -/
theorem columns_aggregations (values : List (Sample Summary))
    : Summary.Columns values (aggregations values) := by
  unfold aggregations
  cases first : values.findSome? Sample.value with
  | none => exact ⟨.nil, .inl ⟨List.findSome?_eq_none_iff.mp first, rfl⟩⟩
  | some summary =>
      obtain ⟨gaps, ⟨time, _⟩, rest, rfl, rfl, none⟩ := List.findSome?_eq_some_iff.mp first
      refine ⟨?_, .inr ⟨gaps, time, summary, rest, rfl, none, fun id => SortedMap.mem_keys_iff⟩⟩
      refine List.pairwise_map.mpr (summary.values.ascending.imp ?_)
      intro earlier later lt
      exact Std.compare_eq_lt.mp lt

/-- Values have no other columns: the ids of the first value are in a known order. -/
theorem eq_aggregations {values : List (Sample Summary)} {ids : List Int32}
    (columns : Summary.Columns values ids)
    : ids = aggregations values := by
  unfold aggregations
  rcases columns.chosen with ⟨gaps, none⟩ | ⟨gaps, time, summary, rest, rfl, none, carried⟩
  · rw [List.findSome?_eq_none_iff.mpr gaps]
    exact none
  · rw [List.findSome?_append, List.findSome?_eq_none_iff.mpr none]
    have ascending := columns.ascending.imp fun {earlier later} lt => Std.compare_eq_lt.mpr lt
    refine eq_of_ascending ascending (List.pairwise_map.mpr summary.values.ascending) fun id => ?_
    exact (carried id).trans SortedMap.mem_keys_iff.symm

theorem columns_iff {values : List (Sample Summary)} {ids : List Int32}
    : Summary.Columns values ids ↔ ids = aggregations values := by
  constructor
  · exact eq_aggregations
  · rintro rfl
    exact columns_aggregations values

theorem row_summaryRow (ids : List Int32) (sample : Sample Summary)
    : Summary.Row ids sample.value (summaryRow ids sample) := by
  unfold summaryRow
  cases sample.value with
  | none => exact .gap
  | some summary =>
      exact .cells (List.forall₂_map_right_iff.mpr (List.forall₂_same.mpr fun _ _ => rfl))

theorem firstCell_pick (ids : List Int32) (sample : Sample Summary)
    : Summary.FirstCell ids sample.value (Number.toJson? (pick ids.head? sample)) := by
  obtain ⟨time, value⟩ := sample
  cases value with
  | none => exact .gap
  | some summary =>
      cases ids with
      | nil => exact .uncounted rfl
      | cons id others =>
          change Summary.FirstCell _ _ (Number.toJson? (summary.values.get? id))
          cases found : summary.values.get? id with
          | none => exact .missing rfl found
          | some number => exact .number rfl found

variable {ctx : EntryContext} {samples : List (Sample Summary)}

/-- With named aggregations a summary is written as soon as there is a column. -/
theorem summaryMembers_of_columns (layout : ctx.layout = .named)
    (columns : aggregations (ctx.window samples) ≠ [])
    : ctx.summaryMembers samples
      = [("NumericSummaryType",
          ctx.namedSummary (ctx.window samples) (aggregations (ctx.window samples)))] := by
  have filled : ctx.window samples ≠ [] := by
    intro empty
    rw [empty] at columns
    exact columns rfl
  simp only [summaryMembers, layout, List.isEmpty_iff, filled, columns, if_false]

/-- Without names a summary is written as soon as there is a value. -/
theorem summaryMembers_of_values (layout : ctx.layout = .first) (filled : ctx.window samples ≠ [])
    : ctx.summaryMembers samples
      = [("NumericType", ctx.aligned ((ctx.window samples).map fun sample =>
          (sample.time,
            Number.toJson? (pick (aggregations (ctx.window samples)).head? sample))))] := by
  simp only [summaryMembers, layout, List.isEmpty_iff, filled, if_false]

/-- Behind whatever strands, a summary with a value in the window is written under the aggregations
of its first value that is not a gap. With named aggregations, if there are any, it shows their
names and one row for each value in order; without names it shows one number for each value in
order. On a grid these stand bare, and otherwise under the times of their values.
-/
theorem encodeSummary_rows {ids : List Int32} (before : List Strand)
    (filled : ctx.window samples ≠ []) (columns : Summary.Columns (ctx.window samples) ids)
    : ∃ encoding,
        Encoding.ofStrands ctx before = .ok encoding
        ∧ (ctx.layout = .named
          → ids ≠ []
          → ∃ next names rows,
              ctx.encodeSummary samples encoding.frame = .ok (next, true)
              ∧ encoding.frame.Gains next "NumericSummaryType"
                (.object [("aggregations", .array names), ("data", .array rows)])
              ∧ List.Forall₂
                (fun id name =>
                  name = (ctx.rollup.bind fun rollup => rollup.names.get? id).elim .null .string)
                ids names
              ∧ List.Forall₂
                (fun sample row => ∃ cells,
                  Summary.Row ids sample.value cells
                  ∧ row = if ctx.grid.isSome then cells else .object [(ctx.key sample.time, cells)])
                (ctx.window samples) rows)
        ∧ (ctx.layout = .first
          → ∃ next values numbers,
              ctx.encodeSummary samples encoding.frame = .ok (next, true)
              ∧ encoding.frame.Gains next "NumericType" values
              ∧ List.Forall₂ (fun sample number => Summary.FirstCell ids sample.value number)
                (ctx.window samples) numbers
              ∧ values
                = if ctx.grid.isSome then .array numbers
                  else .object (((ctx.window samples).map fun sample => ctx.key sample.time).zip
                    numbers)) := by
  obtain rfl := columns_iff.mp columns
  let gathered := Gathering.ofStrands ctx before
  have written := ctx.encodeSummary_holding gathered.body gathered.embedded samples
  refine ⟨_, Encoding.ofStrands_eq ctx before, fun layout columns => ?_, fun layout => ?_⟩
  · rw [summaryMembers_of_columns layout columns] at written
    refine ⟨_, _, _, written, Frame.gains_holding gathered.body gathered.embedded _ _, ?_, ?_⟩
    · refine List.forall₂_map_right_iff.mpr (List.forall₂_same.mpr fun id _ => ?_)
      unfold aggregationName
      cases ctx.rollup.bind fun rollup => rollup.names.get? id <;> rfl
    · refine List.forall₂_map_right_iff.mpr (List.forall₂_same.mpr fun sample _ => ?_)
      exact ⟨_, row_summaryRow _ sample, rfl⟩
  · rw [summaryMembers_of_values layout filled] at written
    refine ⟨_, _, (ctx.window samples).map fun sample =>
        Number.toJson? (pick (aggregations (ctx.window samples)).head? sample),
      written, Frame.gains_holding gathered.body gathered.embedded _ _, ?_, ?_⟩
    · exact List.forall₂_map_right_iff.mpr (List.forall₂_same.mpr fun sample _ =>
        firstCell_pick _ sample)
    · simp only [aligned, List.map_map, List.zip_map', Function.comp_def]

/-- Names for the aggregations, and no grid. -/
def named : EntryContext where
  start := ⟨0, 0⟩
  stop := ⟨100, 0⟩
  grid := none
  options := .standard
  layout := .named
  rollup := some .standard

/-- The sum and the count. -/
def sumAndCount : Summary :=
  ⟨.ofList [(0, .int 10), (1, .int 2)]⟩

/-- The count and an aggregation that has no name. -/
def countAndOther : Summary :=
  ⟨.ofList [(1, .int 3), (7, .int 9)]⟩

/-- A gap, a value with two aggregations, and one that lacks the first of them and has another. -/
def uneven : List (Sample Summary) :=
  [⟨⟨10, 0⟩, none⟩, ⟨⟨20, 0⟩, some sumAndCount⟩, ⟨⟨30, 0⟩, some countAndOther⟩]

/-- Behind the gap the columns are the sum and the count, and every row has both of them. -/
theorem encodeSummary_rows_uneven
    : named.window uneven ≠ []
      ∧ Summary.Columns (named.window uneven) [0, 1]
      ∧ ∃ encoding next,
          Encoding.ofStrands named [.status none []] = .ok encoding
          ∧ named.encodeSummary uneven encoding.frame = .ok (next, true)
          ∧ encoding.frame.Gains next "NumericSummaryType"
            (.object [
              ("aggregations", .array [.string "sum", .string "count"]),
              ("data", .array [
                .object [(named.key ⟨10, 0⟩, .null)],
                .object [(named.key ⟨20, 0⟩, .array [.int 10, .int 2])],
                .object [(named.key ⟨30, 0⟩, .array [.null, .int 3])]])]) := by
  have inside : named.window uneven = uneven := by decide
  have filled : named.window uneven ≠ [] := by decide
  have columns : Summary.Columns (named.window uneven) [0, 1] := columns_iff.mpr (by decide)
  obtain ⟨encoding, before, table, _⟩ := encodeSummary_rows [.status none []] filled columns
  obtain ⟨next, names, rows, written, gains, labels, shown⟩ := table rfl (by decide)
  rw [inside] at shown
  rcases labels with _ | ⟨rfl, _ | ⟨rfl, _ | _⟩⟩
  rcases shown with _ | ⟨⟨_, first, rfl⟩, _ | ⟨⟨_, second, rfl⟩, _ | ⟨⟨_, third, rfl⟩, _ | _⟩⟩⟩
  cases first
  rcases second with _ | ⟨_ | ⟨rfl, _ | ⟨rfl, _ | _⟩⟩⟩
  rcases third with _ | ⟨_ | ⟨rfl, _ | ⟨rfl, _ | _⟩⟩⟩
  exact ⟨filled, columns, encoding, next, before, written, gains⟩

end EntryContext

end SeriesWire
