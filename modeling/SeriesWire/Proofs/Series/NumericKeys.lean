import SeriesWire.Proofs.Result.SourceEntry
import SeriesWire.Proofs.Series.DistinctNames

/-! The keys of the plain numbers in the entries of a series.
They stand in the objects under one name, in the order of the strands, and each is the key of a time
in the window. Identities, statuses and events have no member of this name.
-/

namespace SeriesWire

/-- The key of a time in the unit that the options ask for. -/
def Options.key (options : Options) (time : Timestamp) : String :=
  if options.millis then s!"{time.millis}" else s!"{time.epoch}"

theorem EntryContext.key_eq (ctx : EntryContext)
    : ctx.key = ctx.options.key :=
  rfl

-----------------------------------------------------------------------------------------
-- Members of one name
-----------------------------------------------------------------------------------------

/-- The values of the members that have a name. -/
def Members.valuesOf (name : String) (members : Members) : List Json :=
  (members.filter fun member => member.1 = name).map Prod.snd

namespace Members

variable {members : Members} {name : String}

theorem valuesOf_append (name : String) (members more : Members)
    : valuesOf name (members ++ more) = valuesOf name members ++ valuesOf name more := by
  rw [valuesOf, List.filter_append, List.map_append]
  rfl

theorem valuesOf_singleton (name : String) (value : Json)
    : valuesOf name [(name, value)] = [value] := by
  simp [valuesOf]

theorem valuesOf_eq_nil (fresh : name ∉ members.map Prod.fst)
    : valuesOf name members = [] := by
  rw [valuesOf, List.filter_eq_nil_iff.mpr, List.map_nil]
  intro member found same
  exact fresh (List.mem_map.mpr ⟨member, found, of_decide_eq_true same⟩)

end Members

namespace Json

/-- The values of an object under a name. -/
def valuesOf (name : String) : Json → List Json
  | .object members => Members.valuesOf name members
  | _ => []

def items : Json → List Json
  | .array items => items
  | _ => []

def names : Json → List String
  | .object members => members.map Prod.fst
  | _ => []

/-- The keys of the plain numbers in a data entry. -/
def numericKeys (entry : Json) : List String :=
  (entry.valuesOf "NumericType").flatMap names

/-- The keys of the plain numbers in the data of a result. -/
def resultKeys (result : Json) : List String :=
  ((result.valuesOf "data").flatMap items).flatMap numericKeys

end Json

/-- The keys of a result are those of its data entries. -/
theorem SourceEntry.resultKeys_toJson (entry : SourceEntry)
    : entry.toJson.resultKeys = entry.series.flatten.flatMap Json.numericKeys := by
  have before : "data" ∉ entry.heading.map Prod.fst := by
    cases grid : entry.grid <;> simp [heading, grid]
  have behind : "data" ∉ entry.ending.map Prod.fst := by
    cases nameSpace : entry.nameSpace <;> simp [ending, nameSpace]
  have data : entry.toJson.valuesOf "data" = [.array entry.series.flatten] := by
    rw [toJson, Json.valuesOf, ← List.singleton_append, Members.valuesOf_append,
      Members.valuesOf_append, Members.valuesOf_eq_nil before, Members.valuesOf_singleton,
      Members.valuesOf_eq_nil behind]
    rfl
  rw [Json.resultKeys, data, List.flatMap_singleton]
  rfl

-----------------------------------------------------------------------------------------
-- Strands
-----------------------------------------------------------------------------------------

/-- Values on a grid have no keys, and others those of their times. -/
theorem EntryContext.names_aligned {α : Type} (ctx : EntryContext) (samples : List (Sample α))
    (item : Sample α → Json)
    : (ctx.aligned (samples.map fun sample => (sample.time, item sample))).names
      = (if ctx.grid.isSome then [] else samples.map Sample.time).map ctx.key := by
  rw [aligned]
  split
  · rfl
  · rw [Json.names, List.map_map, List.map_map, List.map_map]
    rfl

namespace Strand

variable {ctx : EntryContext}

/-- Plain numbers have the keys of their times whether they are shown or there are none to show. -/
theorem keys_plain {α : Type} (values : List (Sample α)) (item : Sample α → Json)
    : (Members.valuesOf "NumericType"
          (if values.isEmpty then []
            else
              [("NumericType",
                ctx.aligned (values.map fun sample => (sample.time, item sample)))])).flatMap
          Json.names
      = (if ctx.grid.isSome then [] else values.map Sample.time).map ctx.key := by
  rw [← ctx.names_aligned values item]
  cases values with
  | nil =>
      rw [ctx.names_aligned]
      simp [Members.valuesOf]
  | cons first rest => simp [Members.valuesOf]

/-- The keys of a strand, by cases on its kind. -/
theorem keys_numbers (strand : Strand)
    : (Members.valuesOf "NumericType" (strand.numbers ctx)).flatMap Json.names
      = (strand.namedTimes ctx).map ctx.key := by
  cases strand with
  | numeric samples => exact keys_plain (ctx.window samples) _
  | summary samples =>
      cases layout : ctx.layout with
      | first =>
          simp only [numbers, EntryContext.summaryMembers, namedTimes, layout]
          simpa using @keys_plain ctx _ (ctx.window samples) _
      | named =>
          have other : "NumericType" ∉ ((Strand.summary samples).numbers ctx).map Prod.fst := by
            rw [names_numbers]
            simp [plainCount, layout]
          rw [Members.valuesOf_eq_nil other]
          simp [namedTimes, layout]
  | array samples =>
      apply List.flatMap_eq_nil_iff.mpr
      intro value found
      obtain ⟨member, listed, rfl⟩ := List.mem_map.mp found
      obtain ⟨array, rfl⟩ := mem_arrayMembers (List.mem_filter.mp listed).1
      rfl
  | status nameSpace values => rfl
  | events values => rfl

/-- The keys of strands in order, by induction on them. -/
theorem keys_flatMap_numbers (ctx : EntryContext) (strands : List Strand)
    : (Members.valuesOf "NumericType" (strands.flatMap (numbers ctx))).flatMap Json.names
      = (strands.flatMap (namedTimes ctx)).map ctx.key := by
  induction strands with
  | nil => rfl
  | cons strand rest ih =>
      rw [List.flatMap_cons, List.flatMap_cons, Members.valuesOf_append, List.flatMap_append, ih,
        List.map_append, strand.keys_numbers]

end Strand

-----------------------------------------------------------------------------------------
-- Entries
-----------------------------------------------------------------------------------------

theorem Apart.valuesOf_numbers {fields : Members} (apart : Apart fields)
    : Members.valuesOf "NumericType" fields = [] := by
  apply Members.valuesOf_eq_nil
  intro found
  exact apart.fresh "NumericType" found (List.mem_append_right _ (by decide))

theorem SeriesName.valuesOf_numbers (id : SeriesName) (withMetric : Bool)
    : Members.valuesOf "NumericType" (id.members withMetric) = [] := by
  apply Members.valuesOf_eq_nil
  intro found
  exact not_mem_identityNames "NumericType" (by decide) ((id.sublist_names withMetric).subset found)

/-- An identity in front of the members of an entry adds no keys. -/
theorem SeriesName.numericKeys_entry (id : SeriesName) (withMetric : Bool) (body : Members)
    : Json.numericKeys (.object (id.members withMetric ++ body))
      = (Members.valuesOf "NumericType" body).flatMap Json.names := by
  rw [Json.numericKeys, Json.valuesOf, Members.valuesOf_append, id.valuesOf_numbers,
    List.nil_append]

/-- All keys of the first entry are those of the numbers around its record. -/
theorem Strand.keys_firstBody (ctx : EntryContext) (strands : List Strand)
    : (Members.valuesOf "NumericType" (firstBody ctx strands)).flatMap Json.names
      = (strands.flatMap (namedTimes ctx)).map ctx.key := by
  have around := congrArg (List.flatMap (numbers ctx))
    (@List.takeWhile_append_dropWhile _ unrecorded strands)
  rw [List.flatMap_append] at around
  rw [← keys_flatMap_numbers, ← around, firstBody, Members.valuesOf_append, Members.valuesOf_append,
    Members.valuesOf_append, (apart_head strands).valuesOf_numbers, List.append_nil]

/-- The keys in the entries of a series are those of the times that its strands show. -/
theorem EntryContext.numericKeys_entries (ctx : EntryContext) (id : SeriesName)
    (strands : List Strand)
    : (ctx.entries id strands).flatMap Json.numericKeys
      = (strands.flatMap (Strand.namedTimes ctx)).map ctx.key := by
  rw [entries_eq]
  split
  · rename_i silent
    have numbers := Strand.keys_flatMap_numbers ctx strands
    rw [silent.1] at numbers
    exact numbers
  · have later : ((strands.flatMap Strand.records).tail.map fun body =>
          Json.object (id.members (!strands.any Strand.hidesMetric) ++ body)).flatMap
            Json.numericKeys = [] := by
      apply List.flatMap_eq_nil_iff.mpr
      intro item found
      obtain ⟨body, record, rfl⟩ := List.mem_map.mp found
      have apart := Strand.apart_of_mem_flatMap (List.mem_of_mem_tail record)
      rw [id.numericKeys_entry, apart.valuesOf_numbers]
      rfl
    rw [List.map_cons, List.flatMap_cons, later, List.append_nil, id.numericKeys_entry,
      Strand.keys_firstBody]

end SeriesWire
