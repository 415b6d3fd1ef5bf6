import SeriesWire.Series.Result

/-! What the entries of a result depend on besides the values: the query window, the grid of the
result, the options, and how summaries are shown.
-/

namespace SeriesWire

/-- How results are rendered. -/
structure Options where
  /-- Keys are milliseconds instead of seconds. -/
  millis : Bool
  /-- Results of more series than this are rendered series by series; zero never does. -/
  parallelThreshold : Nat
  /-- Shards without an identity fail the query. -/
  strictIds : Bool
  deriving DecidableEq, Repr

def Options.standard : Options :=
  ⟨false, 0, false⟩

/-- Whether a result of so many series is rendered series by series. -/
def Options.splits (options : Options) (series : Nat) : Bool :=
  0 < options.parallelThreshold ∧ options.parallelThreshold < series

/-- Whether a summary shows every aggregation with its name, or only the first as plain numbers. -/
inductive SummaryLayout where
  | named
  | first
  deriving DecidableEq, Repr

def SummaryLayout.ofKind : SourceKind → SummaryLayout
  | .summarizer => .named
  | .other => .first

structure EntryContext where
  start : Timestamp
  stop : Timestamp
  grid : Option Grid
  options : Options
  layout : SummaryLayout
  rollup : Option Rollup

namespace EntryContext

def ofResult (result : QueryResult) (start stop : Timestamp) (options : Options) : EntryContext :=
  { start, stop, options
    grid := result.grid
    layout := .ofKind result.kind
    rollup := result.rollup }

/-- The name that a value gets for its time. -/
def key (ctx : EntryContext) (time : Timestamp) : String :=
  if ctx.options.millis then s!"{time.millis}" else s!"{time.epoch}"

/-- Passes over the samples before the query and stops at the first sample behind it. Both ends
belong to the window. -/
def window {α : Type} (ctx : EntryContext) (samples : List (Sample α)) : List (Sample α) :=
  (samples.dropWhile fun sample => sample.time < ctx.start).takeWhile fun sample =>
    sample.time ≤ ctx.stop

/-- Values on a grid stand in a list, others under the names of their times. -/
def aligned (ctx : EntryContext) (values : List (Timestamp × Json)) : Json :=
  if ctx.grid.isSome then .array (values.map Prod.snd)
  else .object (values.map fun (time, value) => (ctx.key time, value))

end EntryContext

end SeriesWire
