import SeriesWire.Entry.Series

/-! What the strands of a series gather, and the entries that it makes.
One entry holds all its numbers and its first record, which is the first status or event of all
strands; every other one makes an entry of its own. Numbers stay where their strand stands, and so
does the first record. A series without values makes no entry.
-/

namespace SeriesWire

-----------------------------------------------------------------------------------------
-- Entries as trees
-----------------------------------------------------------------------------------------

/-! The members that numbers add; they are windowed and may add nothing. -/

namespace EntryContext

def numericMembers (ctx : EntryContext) (samples : List (Sample Number)) : Members :=
  let values := ctx.window samples
  if values.isEmpty then []
  else
    [("NumericType",
      ctx.aligned (values.map fun sample => (sample.time, Number.toJson? sample.value)))]

def summaryMembers (ctx : EntryContext) (samples : List (Sample Summary)) : Members :=
  let values := ctx.window samples
  let ids := aggregations values
  if values.isEmpty then []
  else
    match ctx.layout with
    | .first =>
      let first (sample : Sample Summary) : Json := Number.toJson? (pick ids.head? sample)
      [("NumericType", ctx.aligned (values.map fun sample => (sample.time, first sample)))]
    | .named => if ids.isEmpty then [] else [("NumericSummaryType", ctx.namedSummary values ids)]

/-- Each array with a range of its own adds a member. Arrays have no times, so without a grid they
add nothing. -/
def arrayMembers (ctx : EntryContext) (samples : List (Sample DenseArray)) : Members :=
  if ctx.grid.isNone then []
  else
    (ctx.window samples).filterMap fun sample => do
      let array ← sample.value
      if array.offset < array.stop then
        some ("NumericType", .array (array.range.map Number.toJson?))
      else none

end EntryContext

/-- What a series has to say: the members of its first entry, whether they include a status or an
event, and the members of the further entries. -/
structure Gathering where
  body : Members
  embedded : Bool
  further : List Members

namespace Gathering

def empty : Gathering :=
  ⟨[], false, []⟩

/-- Adds numbers, which always belong to the first entry. -/
def addNumbers (gathering : Gathering) (members : Members) : Gathering :=
  { gathering with body := gathering.body ++ members }

/-- Adds a status or an event. -/
def addRecord (gathering : Gathering) (fields : Members) : Gathering :=
  if gathering.embedded then { gathering with further := gathering.further ++ [fields] }
  else { gathering with body := gathering.body ++ fields, embedded := true }

def addStrand (ctx : EntryContext) (gathering : Gathering) : Strand → Gathering
  | .numeric samples => gathering.addNumbers (ctx.numericMembers samples)
  | .summary samples => gathering.addNumbers (ctx.summaryMembers samples)
  | .array samples => gathering.addNumbers (ctx.arrayMembers samples)
  | .status _ values => (values.map Status.members).foldl addRecord gathering
  | .events values => (values.map Event.members).foldl addRecord gathering

def ofStrands (ctx : EntryContext) (strands : List Strand) : Gathering :=
  strands.foldl (addStrand ctx) empty

end Gathering

namespace EntryContext

/-- The entries of the strands of a series with the given identity. -/
def entries (ctx : EntryContext) (id : SeriesName) (strands : List Strand) : List Json :=
  let gathering := Gathering.ofStrands ctx strands
  let identity := id.members !(strands.any Strand.hidesMetric)
  -- Further entries follow a first one, because the first status or event fills it.
  let bodies := if gathering.body.isEmpty then [] else gathering.body :: gathering.further
  bodies.map fun body => .object (identity ++ body)

/-- What these entries reveal. -/
def outcome (ctx : EntryContext) (strands : List Strand) : SeriesOutcome :=
  { wroteValues := !(Gathering.ofStrands ctx strands).body.isEmpty
    wasStatus := strands.any Strand.isStatus
    nameSpace := strands.findSome? Strand.nameSpace? }

end EntryContext

-----------------------------------------------------------------------------------------
-- Numbers and records
-----------------------------------------------------------------------------------------

namespace Strand

/-- The members that a strand adds for its numbers. -/
def numbers (ctx : EntryContext) : Strand → Members
  | .numeric samples => ctx.numericMembers samples
  | .summary samples => ctx.summaryMembers samples
  | .array samples => ctx.arrayMembers samples
  | _ => []

/-- The fields of the statuses or events of a strand. -/
def records : Strand → List Members
  | .status _ values => values.map Status.members
  | .events values => values.map Event.members
  | _ => []

/-- A strand without records leaves the place for the first one to those behind it. -/
def unrecorded (strand : Strand) : Bool :=
  strand.records.isEmpty

/-- The numbers of strands in order, with their first record at the place of its strand. -/
def firstBody (ctx : EntryContext) (strands : List Strand) : Members :=
  (strands.takeWhile unrecorded).flatMap (numbers ctx)
    ++ (strands.flatMap records).head?.getD []
    ++ (strands.dropWhile unrecorded).flatMap (numbers ctx)

/-- A strand with records has no numbers. -/
theorem numbers_eq_nil (ctx : EntryContext) {strand : Strand} (recorded : strand.unrecorded = false)
    : strand.numbers ctx = [] := by
  cases strand with
  | numeric samples => cases recorded
  | summary samples => cases recorded
  | array samples => cases recorded
  | status nameSpace values => rfl
  | events values => rfl

/-- A record has fields. -/
theorem ne_nil_of_mem_records {strand : Strand} {fields : Members}
    (record : fields ∈ strand.records)
    : fields ≠ [] := by
  cases strand with
  | numeric samples => cases record
  | summary samples => cases record
  | array samples => cases record
  | status nameSpace values =>
      obtain ⟨status, _, rfl⟩ := List.mem_map.mp record
      exact List.cons_ne_nil _ _
  | events values =>
      obtain ⟨event, _, rfl⟩ := List.mem_map.mp record
      simp [Event.members]

end Strand

namespace Gathering

/-- A strand has either numbers or records. -/
theorem addStrand_eq (ctx : EntryContext) (gathering : Gathering) (strand : Strand)
    : gathering.addStrand ctx strand
      = strand.records.foldl addRecord (gathering.addNumbers (strand.numbers ctx)) := by
  cases strand with
  | numeric samples => rfl
  | summary samples => rfl
  | array samples => rfl
  | status nameSpace values => simp [addStrand, addNumbers, Strand.numbers, Strand.records]
  | events values => simp [addStrand, addNumbers, Strand.numbers, Strand.records]

/-- Behind the first record all others are set aside, by induction on them. -/
theorem addRecords_embedded (body : Members) (further records : List Members)
    : records.foldl addRecord ⟨body, true, further⟩ = ⟨body, true, further ++ records⟩ := by
  induction records generalizing further with
  | nil => simp
  | cons fields rest ih =>
      rw [List.foldl_cons, addRecord, if_pos rfl, ih, List.append_assoc, List.singleton_append]

/-- The first record is taken into the body. -/
theorem addRecords_eq (body : Members) (records : List Members)
    : records.foldl addRecord ⟨body, false, []⟩
      = ⟨body ++ records.head?.getD [], !records.isEmpty, records.tail⟩ := by
  cases records with
  | nil => simp
  | cons fields rest =>
      rw [List.foldl_cons, addRecord, if_neg Bool.false_ne_true, addRecords_embedded]
      simp

/-- Strands behind the first record add their numbers and set all their records aside, by induction
on them.
-/
theorem addStrands_embedded (ctx : EntryContext) (body : Members) (further : List Members)
    (strands : List Strand)
    : strands.foldl (addStrand ctx) ⟨body, true, further⟩
      = ⟨body ++ strands.flatMap (Strand.numbers ctx), true,
          further ++ strands.flatMap Strand.records⟩ := by
  induction strands generalizing body further with
  | nil => simp
  | cons strand rest ih =>
      rw [List.foldl_cons, addStrand_eq, addNumbers, addRecords_embedded, ih]
      simp

/-- Strand by strand until the first record is found, by induction on the strands. -/
theorem addStrands_eq (ctx : EntryContext) (body : Members) (strands : List Strand)
    : strands.foldl (addStrand ctx) ⟨body, false, []⟩
      = ⟨body ++ Strand.firstBody ctx strands, !(strands.flatMap Strand.records).isEmpty,
          (strands.flatMap Strand.records).tail⟩ := by
  induction strands generalizing body with
  | nil => simp [Strand.firstBody]
  | cons strand rest ih =>
      rw [List.foldl_cons, addStrand_eq, addNumbers, addRecords_eq]
      cases recorded : strand.unrecorded with
      | true =>
          have none : strand.records = [] := List.isEmpty_iff.mp recorded
          simp [none, ih, Strand.firstBody, recorded]
      | false =>
          have filled : strand.records ≠ [] := by simpa [Strand.unrecorded] using recorded
          obtain ⟨first, others, some⟩ := List.exists_cons_of_ne_nil filled
          simp [some, addStrands_embedded, Strand.firstBody, recorded,
            Strand.numbers_eq_nil ctx recorded]

/-- The body is that of the first entry, and the records behind the first are kept in order. -/
theorem ofStrands_eq (ctx : EntryContext) (strands : List Strand)
    : ofStrands ctx strands
      = ⟨Strand.firstBody ctx strands, !(strands.flatMap Strand.records).isEmpty,
          (strands.flatMap Strand.records).tail⟩ :=
  addStrands_eq ctx [] strands

end Gathering

namespace Strand

/-- Up to their order the members of the first entry are all numbers and the first record. -/
theorem firstBody_perm (ctx : EntryContext) (strands : List Strand)
    : (firstBody ctx strands).Perm
        (strands.flatMap (numbers ctx) ++ (strands.flatMap records).head?.getD []) := by
  have split := congrArg (List.flatMap (numbers ctx))
    (@List.takeWhile_append_dropWhile _ unrecorded strands)
  rw [List.flatMap_append] at split
  rw [firstBody, ← split, List.append_assoc, List.append_assoc]
  exact List.perm_append_comm.append_left _

/-- The first entry says nothing exactly if there is neither a number nor a record. -/
theorem firstBody_eq_nil_iff (ctx : EntryContext) (strands : List Strand)
    : firstBody ctx strands = []
      ↔ strands.flatMap (numbers ctx) = [] ∧ strands.flatMap records = [] := by
  have filled (fields : Members) (record : fields ∈ strands.flatMap records) : fields ≠ [] := by
    obtain ⟨strand, _, found⟩ := List.mem_flatMap.mp record
    exact ne_nil_of_mem_records found
  rw [← List.perm_nil, (firstBody_perm ctx strands).congr_left, List.perm_nil,
    List.append_eq_nil_iff]
  refine and_congr_right' ?_
  cases records : strands.flatMap records with
  | nil => simp
  | cons first rest => simpa using filled first (by simp [records])

end Strand

/-- A series with neither numbers nor records has no entry. Otherwise the first record shares an
entry with the numbers, and every other one has its own.
-/
theorem EntryContext.entries_eq (ctx : EntryContext) (id : SeriesName) (strands : List Strand)
    : ctx.entries id strands
      = if strands.flatMap (Strand.numbers ctx) = [] ∧ strands.flatMap Strand.records = [] then []
        else
          (Strand.firstBody ctx strands :: (strands.flatMap Strand.records).tail).map fun body =>
            .object (id.members (!strands.any Strand.hidesMetric) ++ body) := by
  rw [entries, Gathering.ofStrands_eq]
  simp only [List.isEmpty_iff, Strand.firstBody_eq_nil_iff]
  split <;> rfl

end SeriesWire
