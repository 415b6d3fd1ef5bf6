import SeriesWire.Proofs.Instant.GridPoints
import SeriesWire.Proofs.Series.Frames
import SeriesWire.Proofs.Series.Leading

/-! Where the values of a grid stand in the arrays that are written for them.
The window drops what lies before the query. Of the points of a grid that can only be the first, and
it is if the query starts behind it: every other value then stands one place ahead of its point.
-/

namespace SeriesWire

namespace Grid

variable {α : Type}

/-- The samples stand at the points of the grid, one at each from the first on. -/
def Carries (grid : Grid) (samples : List (Sample α)) : Prop :=
  samples.map (fun sample => some sample.time) = (List.range samples.length).map grid.point?

/-- The number of points that come before a query: none if it starts on a boundary, and one
otherwise. -/
def skipped (grid : Grid) (start : Timestamp) : Nat :=
  if grid.start = start then 0 else 1

theorem Carries.point? {grid : Grid} {samples : List (Sample α)} (carries : grid.Carries samples)
    {place : Nat} {sample : Sample α} (found : samples[place]? = some sample)
    : grid.point? place = some sample.time := by
  have inside := (List.getElem?_eq_some_iff.mp found).1
  have same := congrArg (·[place]?) carries
  simpa [List.getElem?_map, found, List.getElem?_range inside] using same.symm

variable {grid : Grid} {start : Timestamp} {samples : List (Sample α)}

/-- Samples on a grid are in order of time. -/
theorem Carries.ascending (carries : grid.Carries samples) (laid : grid.Laid start)
    : samples.Pairwise fun a b => a.time < b.time := by
  apply List.pairwise_iff_getElem.mpr
  intro first second hfirst hsecond before
  have earlier := carries.point? (List.getElem?_eq_getElem hfirst)
  have later := carries.point? (List.getElem?_eq_getElem hsecond)
  exact laid.ascending first second _ _ before earlier later

/-- Of the samples on a grid only the first comes before the query, and only if it is not at its
start.
-/
theorem Carries.dropWhile_early (carries : grid.Carries samples) (laid : grid.Laid start)
    : samples.dropWhile (fun sample => sample.time < start)
      = samples.drop (grid.skipped start) := by
  cases samples with
  | nil => simp
  | cons sample rest =>
      have place : (sample :: rest)[0]? = some sample := rfl
      have head : grid.start = sample.time := Option.some.inj (carries.point? place)
      have kept : rest.dropWhile (fun sample => sample.time < start) = rest := by
        cases rest with
        | nil => rfl
        | cons next rest =>
            have second : (sample :: next :: rest)[1]? = some next := rfl
            have later := laid.others 0 next.time (carries.point? second)
            simp [Std.not_lt.mpr (Std.le_of_lt later)]
      unfold skipped
      split
      · rename_i boundary
        simp [← head, boundary, Std.lt_irrefl]
      · rename_i inside
        have early := Std.lt_of_le_of_ne laid.first inside
        simpa [← head, early] using kept

end Grid

namespace EntryContext

variable {ctx : EntryContext} {grid : Grid}

/-- The items of an array stand for samples: each for the sample that comes so many places later, as
long as it is not behind the query. -/
def Shows {α : Type} (ctx : EntryContext) (ahead : Nat) (samples : List (Sample α))
    (item : Sample α → Json) (items : List Json) : Prop :=
  ∀ place : Nat,
    items[place]?
      = (samples[ahead + place]?.filter fun sample => sample.time ≤ ctx.stop).map item

/-- The items of the window stand as many places ahead as points come before the query. -/
theorem shows_window {α : Type} {samples : List (Sample α)} (carries : grid.Carries samples)
    (laid : grid.Laid ctx.start) (item : Sample α → Json)
    : ctx.Shows (grid.skipped ctx.start) samples item ((ctx.window samples).map item) := by
  intro place
  have ascending : samples.Pairwise fun a b => decide (b.time ≤ ctx.stop) = true
      → decide (a.time ≤ ctx.stop) = true := by
    apply (carries.ascending laid).imp
    intro a b earlier inside
    exact decide_eq_true (Std.le_trans (Std.le_of_lt earlier) (of_decide_eq_true inside))
  rw [List.getElem?_map, window, carries.dropWhile_early laid,
    getElem?_takeWhile (ascending.sublist (List.drop_sublist _ _)), List.getElem?_drop]

-----------------------------------------------------------------------------------------
-- Entries
-----------------------------------------------------------------------------------------

/-- An array as the only member, and none if it is empty. -/
def listed (name : String) (items : List Json) : Members :=
  if items.isEmpty then [] else [(name, .array items)]

/-- The one entry of a series that has the given members, and none if it has no members. -/
def lone (id : SeriesName) (members : Members) : List Json :=
  if members.isEmpty then [] else [.object (id.members true ++ members)]

theorem listed_aligned (shared : ctx.grid = some grid) {α : Type} (values : List (Sample α))
    (item : Sample α → Json)
    : (if values.isEmpty then []
        else [("NumericType", ctx.aligned (values.map fun sample => (sample.time, item sample)))])
      = listed "NumericType" (values.map item) := by
  simp [listed, aligned, shared, Function.comp_def]

theorem numericMembers_of_grid (shared : ctx.grid = some grid) (samples : List (Sample Number))
    : ctx.numericMembers samples
      = listed "NumericType"
        ((ctx.window samples).map fun sample => Number.toJson? sample.value) :=
  listed_aligned shared (ctx.window samples) fun sample => Number.toJson? sample.value

theorem summaryMembers_of_first (shared : ctx.grid = some grid) (layout : ctx.layout = .first)
    (samples : List (Sample Summary))
    : ctx.summaryMembers samples
      = listed "NumericType"
        ((ctx.window samples).map fun sample =>
          Number.toJson? (pick (aggregations (ctx.window samples)).head? sample)) := by
  rw [← listed_aligned shared, summaryMembers, layout]

/-- Without any sample there is no aggregation, so only the aggregations matter. -/
theorem summaryMembers_of_named (shared : ctx.grid = some grid) (layout : ctx.layout = .named)
    (samples : List (Sample Summary))
    : ctx.summaryMembers samples
      = if (aggregations (ctx.window samples)).isEmpty then []
        else
          [("NumericSummaryType", .object [
            ("aggregations", .array ((aggregations (ctx.window samples)).map ctx.aggregationName)),
            ("data", .array
              ((ctx.window samples).map (summaryRow (aggregations (ctx.window samples)))))])] := by
  simp only [summaryMembers, layout, namedSummary, shared, Option.isSome_some, if_true]
  cases ctx.window samples with
  | nil => rfl
  | cons sample rest => rfl

/-- A series of one strand of numbers has the members of the strand. -/
theorem entries_singleton {strand : Strand} {members : Members}
    (added : Gathering.empty.addStrand ctx strand = ⟨members, false, []⟩)
    (visible : strand.hidesMetric = false) (id : SeriesName)
    : ctx.entries id [strand] = lone id members := by
  have gathered : Gathering.ofStrands ctx [strand] = ⟨members, false, []⟩ := added
  cases members <;> simp [entries, lone, gathered, visible]

theorem entries_numeric (id : SeriesName) (samples : List (Sample Number))
    : ctx.entries id [.numeric samples] = lone id (ctx.numericMembers samples) :=
  entries_singleton rfl rfl id

theorem entries_summary (id : SeriesName) (samples : List (Sample Summary))
    : ctx.entries id [.summary samples] = lone id (ctx.summaryMembers samples) :=
  entries_singleton rfl rfl id

/-- On a grid, the items of the array that is written for a series stand in the order of the points.
If the query starts on a boundary every item is at the place of its point; if it starts inside of an
interval the array lacks the announced first point, and every item is one place ahead.
-/
theorem entries_on_grid {interval : Int64} {unit : TimeUnit} {zone : Option String}
    (normal : ctx.start.Normalized)
    (counted : unit = .weeks → interval.toInt * 7 ≤ Int32.maxValue.toInt)
    (made : Grid.fixed ctx.start ctx.stop interval unit zone = .ok grid)
    (shared : ctx.grid = some grid) (id : SeriesName)
    : (∀ samples, grid.Carries samples →
        ∃ items,
          ctx.Shows (grid.skipped ctx.start) samples
            (fun sample => Number.toJson? sample.value) items
          ∧ ctx.entries id [.numeric samples] = lone id (listed "NumericType" items)
          ∧ ctx.Encodes id [.numeric samples] (lone id (listed "NumericType" items)))
      ∧ ∀ samples, grid.Carries samples →
        let ids := aggregations (ctx.window samples)
        (ctx.layout = .first →
          ∃ items,
            ctx.Shows (grid.skipped ctx.start) samples
              (fun sample => Number.toJson? (pick ids.head? sample)) items
            ∧ ctx.entries id [.summary samples] = lone id (listed "NumericType" items)
            ∧ ctx.Encodes id [.summary samples] (lone id (listed "NumericType" items)))
        ∧ (ctx.layout = .named →
          ∃ items,
            ctx.Shows (grid.skipped ctx.start) samples (summaryRow ids) items
            ∧ let members := if ids.isEmpty then []
                else [("NumericSummaryType", .object [
                  ("aggregations", .array (ids.map ctx.aggregationName)),
                  ("data", .array items)])]
              ctx.entries id [.summary samples] = lone id members
              ∧ ctx.Encodes id [.summary samples] (lone id members)) := by
  have laid := Grid.laid_of_fixed normal counted made
  refine ⟨fun samples carries => ?_, fun samples carries => ⟨fun layout => ?_, fun layout => ?_⟩⟩
  · refine ⟨_, shows_window carries laid _, encodes_of_entries_eq ?_⟩
    rw [entries_numeric, numericMembers_of_grid shared]
  · refine ⟨_, shows_window carries laid _, encodes_of_entries_eq ?_⟩
    rw [entries_summary, summaryMembers_of_first shared layout]
  · refine ⟨_, shows_window carries laid _, encodes_of_entries_eq ?_⟩
    rw [entries_summary, summaryMembers_of_named shared layout]

-----------------------------------------------------------------------------------------
-- A query that starts inside of an interval
-----------------------------------------------------------------------------------------

/-- Every ten seconds of the first half minute. -/
def tens : Grid where
  start := ⟨0, 0⟩
  stop := ⟨25, 0⟩
  step := some (.span 10000000000)
  label := "10s"
  zone := none
  unit := some .seconds

/-- A query from the fifth second. -/
def fromFive : EntryContext where
  start := ⟨5, 0⟩
  stop := ⟨25, 0⟩
  grid := some tens
  options := .standard
  layout := .named
  rollup := none

/-- One, two and three at the points of the grid. -/
def oneTwoThree : List (Sample Number) :=
  [⟨⟨0, 0⟩, some (.int 1)⟩, ⟨⟨10, 0⟩, some (.int 2)⟩, ⟨⟨20, 0⟩, some (.int 3)⟩]

/-- The values of the query stand one place ahead of their points. -/
theorem entries_on_grid_fromFive
    : fromFive.start.Normalized
      ∧ Grid.fixed fromFive.start fromFive.stop 10 .seconds none = .ok tens
      ∧ fromFive.grid = some tens
      ∧ tens.Carries oneTwoThree
      ∧ ∃ items,
          fromFive.Shows 1 oneTwoThree (fun sample => Number.toJson? sample.value) items
          ∧ fromFive.entries ⟨"m", .empty, []⟩ [.numeric oneTwoThree]
            = lone ⟨"m", .empty, []⟩ (listed "NumericType" items)
          ∧ fromFive.Encodes ⟨"m", .empty, []⟩ [.numeric oneTwoThree]
            (lone ⟨"m", .empty, []⟩ (listed "NumericType" items)) := by
  have normal : fromFive.start.Normalized := by
    unfold Timestamp.Normalized
    decide
  have made : Grid.fixed fromFive.start fromFive.stop 10 .seconds none = .ok tens := rfl
  have carries : tens.Carries oneTwoThree := rfl
  have counted : TimeUnit.seconds = .weeks → (10 : Int64).toInt * 7 ≤ Int32.maxValue.toInt := nofun
  exact ⟨normal, made, rfl, carries,
    (entries_on_grid normal counted made rfl ⟨"m", .empty, []⟩).1 oneTwoThree carries⟩

/-- The announced grid starts at the epoch, where the value is one, but the array starts with two.
-/
theorem entries_fromFive
    : Grid.fixed fromFive.start fromFive.stop 10 .seconds none = .ok tens
      ∧ tens.Carries oneTwoThree
      ∧ fromFive.entries ⟨"m", .empty, []⟩ [.numeric oneTwoThree]
        = lone ⟨"m", .empty, []⟩ [("NumericType", .array [.int 2, .int 3])]
      ∧ fromFive.Encodes ⟨"m", .empty, []⟩ [.numeric oneTwoThree]
        (lone ⟨"m", .empty, []⟩ [("NumericType", .array [.int 2, .int 3])])
      ∧ ¬∃ items,
          fromFive.Shows 0 oneTwoThree (fun sample => Number.toJson? sample.value) items
          ∧ fromFive.entries ⟨"m", .empty, []⟩ [.numeric oneTwoThree]
            = lone ⟨"m", .empty, []⟩ (listed "NumericType" items) := by
  have written : fromFive.entries ⟨"m", .empty, []⟩ [.numeric oneTwoThree]
      = lone ⟨"m", .empty, []⟩ [("NumericType", .array [.int 2, .int 3])] := rfl
  refine ⟨rfl, rfl, written, (encodes_of_entries_eq written).2, ?_⟩
  rintro ⟨items, shows, same⟩
  rw [written] at same
  cases items with
  | nil => cases shows 0
  | cons item rest =>
      have one : item = .int 1 := Option.some.inj (shows 0)
      simp [lone, listed, one, Json.int] at same

end EntryContext

end SeriesWire
