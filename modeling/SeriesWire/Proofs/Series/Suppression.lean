import SeriesWire.Proofs.Series.Frames

/-! A series without values is not written at all.
Each kind of strand has its own rule for being void, and the summaries have one for each layout. A
series writes nothing exactly if all its strands are void, and exactly then it is told to have no
values, because numbers open their frame only to write into it.
-/

namespace SeriesWire

open Json

namespace Strand

/-- The strand has nothing to show in the window. -/
def Void (ctx : EntryContext) : Strand → Prop
  | .numeric samples => ctx.window samples = []
  | .summary samples =>
      ctx.window samples = []
      ∨ ctx.layout = .named
        ∧ ((∀ sample ∈ ctx.window samples, sample.value = none)
          ∨ ∃ summary,
              (ctx.window samples).findSome? Sample.value = some summary
              ∧ summary.values.keys = [])
  | .array samples =>
      ctx.grid = none
      ∨ ∀ sample ∈ ctx.window samples, ∀ dense,
          sample.value = some dense → ¬dense.offset < dense.stop
  | .status _ values => values = []
  | .events values => values = []

/-- There are no columns if all values are gaps, or if the first other one has no aggregation. -/
theorem aggregations_eq_nil_iff (values : List (Sample Summary))
    : EntryContext.aggregations values = []
      ↔ (∀ sample ∈ values, sample.value = none)
        ∨ ∃ summary, values.findSome? Sample.value = some summary ∧ summary.values.keys = [] := by
  unfold EntryContext.aggregations
  cases first : values.findSome? Sample.value with
  | none => simpa using List.findSome?_eq_none_iff.mp first
  | some summary =>
      obtain ⟨sample, member, value⟩ := List.exists_of_findSome?_eq_some first
      have filled : ¬∀ sample ∈ values, sample.value = none := by
        intro gaps
        rw [gaps sample member] at value
        cases value
      simp [filled]

theorem summaryMembers_eq_nil_iff (ctx : EntryContext) (samples : List (Sample Summary))
    : ctx.summaryMembers samples = [] ↔ (Strand.summary samples).Void ctx := by
  rw [Void, ← aggregations_eq_nil_iff, EntryContext.summaryMembers]
  cases values : ctx.window samples with
  | nil => simp
  | cons sample rest =>
      cases layout : ctx.layout with
      | first => simp
      | named => simp

theorem arrayMembers_eq_nil_iff (ctx : EntryContext) (samples : List (Sample DenseArray))
    : ctx.arrayMembers samples = [] ↔ (Strand.array samples).Void ctx := by
  rw [Void, EntryContext.arrayMembers]
  cases shared : ctx.grid with
  | none => simp
  | some grid =>
      simp only [Option.isNone_some, Bool.false_eq_true, if_false, List.filterMap_eq_nil_iff,
        reduceCtorEq, false_or]
      refine forall₂_congr fun sample _ => ?_
      cases sample.value with
      | none => simp
      | some dense => simp

/-- A void strand adds nothing, and every other one does, by the kinds of strands. -/
theorem void_iff (ctx : EntryContext) (strand : Strand)
    : strand.Void ctx ↔ strand.numbers ctx = [] ∧ strand.records = [] := by
  cases strand with
  | numeric samples =>
      simp only [Void, numbers, records, EntryContext.numericMembers, and_true]
      cases ctx.window samples <;> simp
  | summary samples => simp [numbers, records, summaryMembers_eq_nil_iff]
  | array samples => simp [numbers, records, arrayMembers_eq_nil_iff]
  | status nameSpace values => simp [Void, numbers, records]
  | events values => simp [Void, numbers, records]

instance (ctx : EntryContext) (strand : Strand) : Decidable (strand.Void ctx) :=
  decidable_of_iff ((strand.numbers ctx).isEmpty ∧ strand.records.isEmpty)
    (by rw [void_iff, List.isEmpty_iff, List.isEmpty_iff])

end Strand

namespace EntryContext

variable (ctx : EntryContext) (id : SeriesName) (strands : List Strand)

theorem outcome_wroteValues_iff
    : (ctx.outcome strands).wroteValues = false ↔ ∀ strand ∈ strands, strand.Void ctx := by
  rw [outcome, Gathering.ofStrands_eq, Bool.not_eq_false', List.isEmpty_iff,
    Strand.firstBody_eq_nil_iff, List.flatMap_eq_nil_iff, List.flatMap_eq_nil_iff]
  constructor
  · rintro ⟨numbers, records⟩ strand member
    exact (strand.void_iff ctx).mpr ⟨numbers strand member, records strand member⟩
  · intro void
    have each (strand : Strand) (member : strand ∈ strands) :=
      (strand.void_iff ctx).mp (void strand member)
    exact ⟨fun strand member => (each strand member).1, fun strand member => (each strand member).2⟩

/-- The tokens of the entries start with a brace if there are any. -/
theorem tokensAround_cases
    : (ctx.outcome strands).wroteValues = false ∧ ctx.tokensAround id strands = []
      ∨ (ctx.outcome strands).wroteValues = true
        ∧ ∃ rest, ctx.tokensAround id strands = .openObject :: rest := by
  simp only [outcome, tokensAround, Gathering.bodies]
  cases (Gathering.ofStrands ctx strands).body with
  | nil => exact .inl ⟨rfl, rfl⟩
  | cons member members => exact .inr ⟨rfl, _, rfl⟩

/-- Where values may be written one after the other, a series can be written. -/
theorem encodeSeries_takes {draft : Draft} (takes : draft.cursor.TakesValues)
    : ∃ next, ctx.encodeSeries id strands draft = .ok (next, ctx.outcome strands) := by
  obtain ⟨added, next, writes⟩ := takes.writes_flatMap
    (fun body : Members => entryAround (id.members !(strands.any Strand.hidesMetric)) body.text)
    (Gathering.ofStrands ctx strands).bodies fun body => ⟨_, spells_entryAround _ body⟩
  refine ⟨⟨draft.text ++ added, next⟩, ?_⟩
  rw [encodeSeries_eq_map, Draft.writeAll_eq_map_start draft.text draft.cursor, tokensAround,
    writes]
  rfl

/-- Whatever is written for a series, it is empty exactly if the series is told to have no values.
-/
theorem encodeSeries_empty_iff {draft next : Draft} {told : SeriesOutcome}
    (written : ctx.encodeSeries id strands draft = .ok (next, told))
    : ∃ added,
        next.text = draft.text ++ added
        ∧ told = ctx.outcome strands
        ∧ (added = "" ↔ told.wroteValues = false) := by
  rw [encodeSeries_eq_map, Draft.writeAll_eq_map_start draft.text draft.cursor] at written
  obtain ⟨_, behind, same⟩ := map_eq_ok_iff.mp written
  obtain ⟨added, writes, rfl⟩ := map_eq_ok_iff.mp behind
  obtain ⟨rfl, rfl⟩ := Prod.mk.inj same
  refine ⟨added.text, rfl, rfl, ?_⟩
  rcases ctx.tokensAround_cases id strands with ⟨silent, none⟩ | ⟨told, rest, some⟩
  · rw [none] at writes
    obtain rfl := Except.ok.inj writes
    simp [silent, Draft.start]
  · rw [some] at writes
    simp [told, Writes.ne_empty_of_openObject writes]

/-- Behind other strands, the numbers of a strand are told to be written exactly if they add to the
text of the frame, and that is exactly if the strand is not void.
-/
theorem encodeNumbers_wrote_iff (before : List Strand) {strand : Strand}
    (numeric : strand.hidesMetric = false)
    : ∃ encoding next wrote added,
        Encoding.ofStrands ctx before = .ok encoding
        ∧ ctx.encodeNumbers encoding.frame strand = .ok (next, wrote)
        ∧ next.body.text = encoding.frame.body.text ++ added
        ∧ (wrote = true ↔ added ≠ "")
        ∧ (wrote = false ↔ strand.Void ctx) := by
  have numbersOnly : strand.records = [] := by
    cases strand with
    | numeric | summary | array => rfl
    | status | events => cases numeric
  let gathered := Gathering.ofStrands ctx before
  refine ⟨_, _, _, separated gathered.body.length (memberTexts (strand.numbers ctx)),
    Encoding.ofStrands_eq ctx before, ctx.encodeNumbers_holding _ _ strand,
    Members.text_append _ _, ?_, ?_⟩
  · rw [Ne, separated_eq_empty_iff fun _ => ne_empty_of_mem_memberTexts, memberTexts_eq_nil_iff,
      Bool.not_eq_true', List.isEmpty_eq_false_iff]
  · rw [Bool.not_eq_false', List.isEmpty_iff, strand.void_iff, and_iff_left numbersOnly]

/-- Wherever a series is written, it adds nothing to the text exactly if it is told to have no
values, and that is exactly if all its strands are void. It can be written where values follow each
other, and a void one anywhere. Of each strand of numbers it is told rightly whether it wrote
anything into the frame that the strands before it left.
-/
theorem encodeSeries_silent_iff (draft : Draft)
    : (draft.cursor.TakesValues ∨ (∀ strand ∈ strands, strand.Void ctx)
        → ∃ written, ctx.encodeSeries id strands draft = .ok written)
      ∧ (∀ next outcome,
          ctx.encodeSeries id strands draft = .ok (next, outcome)
          → ∃ added,
              next.text = draft.text ++ added
              ∧ (added = "" ↔ outcome.wroteValues = false)
              ∧ (outcome.wroteValues = false ↔ ∀ strand ∈ strands, strand.Void ctx))
      ∧ ∀ before strand after,
          strands = before ++ strand :: after
          → strand.hidesMetric = false
          → ∃ encoding next wrote added,
              Encoding.ofStrands ctx before = .ok encoding
              ∧ ctx.encodeNumbers encoding.frame strand = .ok (next, wrote)
              ∧ next.body.text = encoding.frame.body.text ++ added
              ∧ (wrote = true ↔ added ≠ "")
              ∧ (wrote = false ↔ strand.Void ctx) := by
  refine ⟨?_, fun next outcome written => ?_, fun before strand _ _ numeric => ?_⟩
  · rintro (takes | void)
    · obtain ⟨next, written⟩ := ctx.encodeSeries_takes id strands takes
      exact ⟨_, written⟩
    · have silent := (ctx.outcome_wroteValues_iff strands).mpr void
      have none : ctx.tokensAround id strands = [] := by
        simpa [silent] using ctx.tokensAround_cases id strands
      rw [encodeSeries_eq_map, none]
      exact ⟨_, rfl⟩
  · obtain ⟨added, longer, rfl, empty_iff⟩ := ctx.encodeSeries_empty_iff id strands written
    exact ⟨added, longer, empty_iff, ctx.outcome_wroteValues_iff strands⟩
  · exact ctx.encodeNumbers_wrote_iff before numeric

/-- The first hundred seconds without a grid, with named aggregations. -/
def firstHundred : EntryContext where
  start := ⟨0, 0⟩
  stop := ⟨100, 0⟩
  grid := none
  options := .standard
  layout := .named
  rollup := none

/-- A number behind the window, a gap, a summary without aggregations in front of one that has some,
an array without a grid, and a namespace without a status.
-/
def nothing : List Strand :=
  [ .numeric [⟨⟨500, 0⟩, some (.int 1)⟩], .summary [⟨⟨10, 0⟩, none⟩],
    .summary [⟨⟨10, 0⟩, some ⟨.empty⟩⟩, ⟨⟨20, 0⟩, some ⟨SortedMap.empty.insert 0 (.int 3)⟩⟩],
    .array [⟨⟨10, 0⟩, some (.ofCells (.ints [1]))⟩], .status (some "prod") []]

/-- All of them are void, and the first gap of numbers behind them is not. -/
theorem encodeSeries_silent_iff_nothing
    : let gap : Strand := .numeric [⟨⟨10, 0⟩, none⟩]
      (∃ next outcome,
        firstHundred.encodeSeries ⟨"m", .empty, []⟩ nothing (.start .insideArray)
          = .ok (next, outcome)
        ∧ next.text = ""
        ∧ outcome.wroteValues = false)
      ∧ gap.hidesMetric = false
      ∧ ∃ encoding next added,
          Encoding.ofStrands firstHundred nothing = .ok encoding
          ∧ firstHundred.encodeNumbers encoding.frame gap = .ok (next, true)
          ∧ next.body.text = encoding.frame.body.text ++ added
          ∧ added ≠ "" := by
  intro gap
  refine ⟨?_, rfl, ?_⟩
  · obtain ⟨succeeds, told, _⟩ :=
      firstHundred.encodeSeries_silent_iff ⟨"m", .empty, []⟩ nothing (.start .insideArray)
    obtain ⟨⟨next, outcome⟩, written⟩ := succeeds (.inl (.array 0 []))
    obtain ⟨added, longer, silent, void_iff⟩ := told next outcome written
    have void : outcome.wroteValues = false := void_iff.mpr (by decide)
    obtain rfl := silent.mpr void
    exact ⟨next, outcome, written, longer, void⟩
  · obtain ⟨_, _, each⟩ :=
      firstHundred.encodeSeries_silent_iff ⟨"m", .empty, []⟩ (nothing ++ [gap]) (.start .root)
    obtain ⟨encoding, next, wrote, added, before, told, longer, wrote_iff, void_iff⟩ :=
      each nothing gap [] rfl rfl
    have shown : wrote = true := by
      rw [← Bool.not_eq_false, void_iff]
      decide
    subst shown
    exact ⟨encoding, next, added, before, told, longer, wrote_iff.mp rfl⟩

end EntryContext

end SeriesWire
