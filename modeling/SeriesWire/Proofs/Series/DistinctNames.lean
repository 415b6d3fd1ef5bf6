import Mathlib
import SeriesWire.Proofs.Instant.Order
import SeriesWire.Proofs.Series.Frames

/-! When the names in the entries of a series are distinct.
Its identity, its first status or event and its numbers share one object. Only the first record is
taken into it, so records never repeat a name. Numbers have no such rule: every strand of numbers
adds its member, and two times of a strand may be named alike.
-/

namespace SeriesWire

-----------------------------------------------------------------------------------------
-- Trees
-----------------------------------------------------------------------------------------

/-- Nowhere in the tree does an object give two of its members one name. -/
inductive Json.Unrepeated : Json → Prop
  | scalar (value : Json.Scalar) : Unrepeated (.scalar value)
  | array {items : List Json} (each : ∀ item ∈ items, Unrepeated item) : Unrepeated (.array items)
  | object {members : Members} (names : (members.map Prod.fst).Nodup)
    (each : ∀ member ∈ members, Unrepeated member.2)
    : Unrepeated (.object members)

namespace Json

theorem unrepeated_object_iff {members : Members}
    : (Json.object members).Unrepeated
      ↔ (members.map Prod.fst).Nodup ∧ ∀ member ∈ members, member.2.Unrepeated := by
  constructor
  · intro unrepeated
    cases unrepeated with
    | object names each => exact ⟨names, each⟩
  · rintro ⟨names, each⟩
    exact .object names each

/-- An array of values without parts. -/
theorem unrepeated_array_map {α : Type} (values : List α) {item : α → Json}
    (each : ∀ value, (item value).Unrepeated)
    : (Json.array (values.map item)).Unrepeated := by
  refine .array fun json member => ?_
  obtain ⟨value, _, rfl⟩ := List.mem_map.mp member
  exact each value

/-- An object whose members are named after what they come from. -/
theorem unrepeated_object_map_iff {α : Type} (values : List α) (name : α → String)
    {item : α → Json} (each : ∀ value, (item value).Unrepeated)
    : (Json.object (values.map fun value => (name value, item value))).Unrepeated
      ↔ (values.map name).Nodup := by
  rw [unrepeated_object_iff, List.map_map]
  refine and_iff_left fun member found => ?_
  obtain ⟨value, _, rfl⟩ := List.mem_map.mp found
  exact each value

end Json

/-- The names of a map are in strictly ascending order. -/
theorem SortedMap.nodup_keys {κ α : Type} [Ord κ] [Std.ReflOrd κ] (map : SortedMap κ α)
    : map.keys.Nodup := by
  refine List.pairwise_map.mpr (map.ascending.imp ?_)
  intro first second before same
  simp [same] at before

theorem Number.unrepeated_toJson? (number : Option Number) : (toJson? number).Unrepeated := by
  rcases number with _ | _ | _
  · exact .scalar _
  · exact .scalar _
  · exact .scalar _

-----------------------------------------------------------------------------------------
-- Identities, statuses and events
-----------------------------------------------------------------------------------------

/-- The names that identify a series, and those of its numbers. -/
def identityNames : List String :=
  ["metric", "tags", "aggregateTags"]

def numberNames : List String :=
  ["NumericType", "NumericSummaryType"]

theorem not_mem_identityNames : ∀ name ∈ numberNames, name ∉ identityNames := by
  decide

/-- The fields of a record: names of their own, each of them once. -/
structure Apart (fields : Members) : Prop where
  names : (fields.map Prod.fst).Nodup
  fresh : ∀ name ∈ fields.map Prod.fst, name ∉ identityNames ++ numberNames
  values : ∀ member ∈ fields, member.2.Unrepeated

theorem Apart.nil : Apart [] :=
  ⟨List.nodup_nil, nofun, nofun⟩

/-- The names of a record are some of those that its kind has. -/
theorem Apart.of_sublist {fields : Members} {names : List String}
    (some : (fields.map Prod.fst).Sublist names) (distinct : names.Nodup)
    (fresh : ∀ name ∈ names, name ∉ identityNames ++ numberNames)
    (values : ∀ member ∈ fields, member.2.Unrepeated)
    : Apart fields :=
  ⟨distinct.sublist some, fun name member => fresh name (some.subset member), values⟩

def Status.names : List String :=
  ["statusCodeArray", "statusCode", "timestampArray", "lastUpdateTime", "statusType", "message",
    "application"]

theorem Status.apart (status : Status) : Apart status.members := by
  obtain ⟨code, codes, updated, times, kind, message, application⟩ := status
  refine .of_sublist ?_ (by decide : Status.names.Nodup) (by decide) ?_
  · have names (first second : String)
        (some : [first, second].Sublist
          ["statusCodeArray", "statusCode", "timestampArray", "lastUpdateTime"])
        : [first, second, "statusType", "message", "application"].Sublist Status.names :=
      some.append (.refl _)
    cases codes with
    | none =>
        cases times with
        | none => exact names "statusCode" "lastUpdateTime" (by decide)
        | some times => exact names "statusCode" "timestampArray" (by decide)
    | some codes =>
        cases times with
        | none => exact names "statusCodeArray" "lastUpdateTime" (by decide)
        | some times => exact names "statusCodeArray" "timestampArray" (by decide)
  · intro member found
    simp only [Status.members, List.mem_cons, List.not_mem_nil, or_false] at found
    rcases found with rfl | rfl | rfl | rfl | rfl
    · cases codes with
      | none => exact .scalar _
      | some codes => exact Json.unrepeated_array_map codes fun code => .scalar _
    · cases times with
      | none => exact .scalar _
      | some times => exact Json.unrepeated_array_map times fun time => .scalar _
    · exact .scalar _
    · exact .scalar _
    · exact .scalar _

def Event.names : List String :=
  ["namespace", "source", "title", "message", "priority", "timestamp", "endTimestamp", "userId",
    "ongoing", "eventId", "parentId", "childId", "additionalProps"]

/-- An optional member has its name or does not exist. -/
theorem sublist_name {α : Type} (value : Option α) (name : String) (item : α → Json)
    : ((value.map fun value => (name, item value)).toList.map Prod.fst).Sublist [name] := by
  cases value with
  | none => exact List.nil_sublist _
  | some value => exact .refl _

/-- The value of an optional member. -/
theorem unrepeated_optional {α : Type} {value : Option α} {name : String} {item : α → Json}
    (each : ∀ value, (item value).Unrepeated)
    : ∀ member ∈ (value.map fun value => (name, item value)).toList, member.2.Unrepeated := by
  intro member found
  obtain ⟨known, _, rfl⟩ := Option.map_eq_some_iff.mp (Option.mem_toList.mp found)
  exact each known

theorem Event.apart (event : Event) : Apart event.members := by
  refine .of_sublist ?_ (by decide : Event.names.Nodup) (by decide) ?_
  · simp only [Event.members, List.map_append]
    exact (((List.Sublist.refl _).append (sublist_name _ _ _)).append (sublist_name _ _ _)).append
      (sublist_name _ _ _)
  · have texts (ids : List String) : (Json.array (ids.map .string)).Unrepeated :=
      Json.unrepeated_array_map ids fun id => .scalar _
    have properties (map : SortedMap String Json)
        : (Json.object (map.entries.map fun entry =>
            (entry.1, .string (propertyText entry.2)))).Unrepeated :=
      (Json.unrepeated_object_map_iff map.entries Prod.fst fun _ => .scalar _).mpr map.nodup_keys
    intro member found
    simp only [Event.members, List.mem_append] at found
    rcases found with ((plain | parents) | children) | additional
    · simp only [List.mem_cons, List.not_mem_nil, or_false] at plain
      rcases plain with rfl | rfl | rfl | rfl | rfl | rfl | rfl | rfl | rfl | rfl <;>
        exact .scalar _
    · exact unrepeated_optional texts member parents
    · exact unrepeated_optional texts member children
    · exact unrepeated_optional properties member additional

/-- The names of an identity. -/
theorem SeriesName.sublist_names (id : SeriesName) (withMetric : Bool)
    : ((id.members withMetric).map Prod.fst).Sublist identityNames := by
  cases withMetric with
  | true => exact .refl _
  | false => exact List.sublist_cons_self _ _

theorem SeriesName.unrepeated_values (id : SeriesName) (withMetric : Bool)
    : ∀ member ∈ id.members withMetric, member.2.Unrepeated := by
  have tags : (Json.object (id.tags.entries.map fun entry =>
      (entry.1, .string entry.2))).Unrepeated :=
    (Json.unrepeated_object_map_iff id.tags.entries Prod.fst fun _ => .scalar _).mpr
      id.tags.nodup_keys
  have aggregated : (Json.array (id.aggregated.map .string)).Unrepeated :=
    Json.unrepeated_array_map id.aggregated fun tag => .scalar _
  intro member found
  rcases List.mem_append.mp found with metric | others
  · cases withMetric with
    | true => exact List.mem_singleton.mp metric ▸ .scalar _
    | false => cases metric
  · simp only [List.mem_cons, List.not_mem_nil, or_false] at others
    rcases others with rfl | rfl
    · exact tags
    · exact aggregated

-----------------------------------------------------------------------------------------
-- Numbers
-----------------------------------------------------------------------------------------

/-- The unit in which times are named. -/
def EntryContext.tick (ctx : EntryContext) (time : Timestamp) : Int64 :=
  if ctx.options.millis then time.millis else time.epoch

/-- Times are named alike only if they are the same in the unit of the names. -/
theorem EntryContext.key_inj {ctx : EntryContext} {time other : Timestamp}
    : ctx.key time = ctx.key other ↔ ctx.tick time = ctx.tick other := by
  have named (time : Timestamp) : ctx.key time = (ctx.tick time).toInt.repr := by
    unfold key tick
    split <;> rfl
  rw [named, named, Int.repr_inj, Int64.toInt_inj]

theorem EntryContext.nodup_keys_iff (ctx : EntryContext) (times : List Timestamp)
    : (times.map ctx.key).Nodup ↔ (times.map ctx.tick).Nodup := by
  simp only [List.Nodup, List.pairwise_map, ne_eq, key_inj]

namespace Strand

/-- How many members with plain numbers a strand adds: one for numbers in the window, or one for
each array.
-/
def plainCount (ctx : EntryContext) : Strand → Nat
  | .numeric samples => if (ctx.window samples).isEmpty then 0 else 1
  | .summary samples =>
    if (ctx.window samples).isEmpty ∨ ctx.layout = .named then 0 else 1
  | .array samples =>
    if ctx.grid.isNone then 0
    else (ctx.window samples).countP fun sample =>
      sample.value.any fun array => array.offset < array.stop
  | _ => 0

/-- How many members with named aggregations a strand adds. -/
def namedCount (ctx : EntryContext) : Strand → Nat
  | .summary samples =>
    if (EntryContext.aggregations (ctx.window samples)).isEmpty ∨ ctx.layout = .first then 0 else 1
  | _ => 0

/-- The times by which the plain numbers of a strand are named. -/
def namedTimes (ctx : EntryContext) : Strand → List Timestamp
  | .numeric samples =>
    if ctx.grid.isSome then [] else (ctx.window samples).map Sample.time
  | .summary samples =>
    if ctx.grid.isSome ∨ ctx.layout = .named then [] else (ctx.window samples).map Sample.time
  | _ => []

/-- The times of the numbers of a strand. -/
def times : Strand → List Timestamp
  | .numeric samples => samples.map Sample.time
  | .summary samples => samples.map Sample.time
  | .array samples => samples.map Sample.time
  | _ => []

variable {ctx : EntryContext}

theorem namedTimes_sublist (strand : Strand)
    : (strand.namedTimes ctx).Sublist strand.times := by
  have window {α : Type} (samples : List (Sample α))
      : ((ctx.window samples).map Sample.time).Sublist (samples.map Sample.time) :=
    ((List.takeWhile_sublist _).trans (List.dropWhile_sublist _)).map Sample.time
  cases strand with
  | numeric samples =>
      simp only [namedTimes, times]
      split
      · exact List.nil_sublist _
      · exact window samples
  | summary samples =>
      simp only [namedTimes, times]
      split
      · exact List.nil_sublist _
      · exact window samples
  | array samples => exact List.nil_sublist _
  | status nameSpace values => exact .refl _
  | events values => exact .refl _

/-- Members of one name, as many as are shown, by induction on what they come from. -/
theorem names_filterMap {α : Type} {shown : α → Bool} {member : α → Option (String × Json)}
    {name : String}
    (each : ∀ item, (member item).map Prod.fst = if shown item then some name else none)
    (items : List α)
    : (items.filterMap member).map Prod.fst = List.replicate (items.countP shown) name := by
  induction items with
  | nil => rfl
  | cons item rest ih =>
      have here := each item
      cases added : member item with
      | none =>
          have hidden : shown item = false := by simpa [added] using here
          rw [List.filterMap_cons_none added, List.countP_cons_of_neg (by simp [hidden]), ih]
      | some found =>
          have visible : shown item = true := by
            by_contra hidden
            simp [added, hidden] at here
          have named : found.1 = name := by simpa [added, visible] using here
          rw [List.filterMap_cons_some added, List.countP_cons_of_pos visible, List.map_cons, ih,
            named, List.replicate_succ]

theorem names_arrayMembers (samples : List (Sample DenseArray))
    : (ctx.arrayMembers samples).map Prod.fst
      = List.replicate ((Strand.array samples).plainCount ctx) "NumericType" := by
  cases shared : ctx.grid with
  | none => simp [EntryContext.arrayMembers, plainCount, shared]
  | some grid =>
      simp only [EntryContext.arrayMembers, plainCount, shared, Option.isNone_some,
        Bool.false_eq_true, if_false]
      refine names_filterMap (fun sample => ?_) _
      obtain ⟨time, _ | array⟩ := sample
      · rfl
      · by_cases filled : array.offset < array.stop
        · simp [filled]
        · simp [filled]

theorem names_summaryMembers (samples : List (Sample Summary))
    : (ctx.summaryMembers samples).map Prod.fst
      = List.replicate ((Strand.summary samples).plainCount ctx) "NumericType"
        ++ List.replicate ((Strand.summary samples).namedCount ctx) "NumericSummaryType" := by
  simp only [EntryContext.summaryMembers, plainCount, namedCount]
  by_cases silent : (ctx.window samples).isEmpty
  · have none : EntryContext.aggregations (ctx.window samples) = [] := by
      rw [List.isEmpty_iff.mp silent]
      rfl
    simp [silent, none]
  · cases layout : ctx.layout with
    | first => simp [silent]
    | named =>
        by_cases unnamed : (EntryContext.aggregations (ctx.window samples)).isEmpty
        · simp [silent, unnamed]
        · simp [silent, unnamed]

/-- What a strand adds is counted by the two names. -/
theorem names_numbers (strand : Strand)
    : (strand.numbers ctx).map Prod.fst
      = List.replicate (strand.plainCount ctx) "NumericType"
        ++ List.replicate (strand.namedCount ctx) "NumericSummaryType" := by
  cases strand with
  | numeric samples =>
      simp only [numbers, EntryContext.numericMembers, plainCount, namedCount]
      split <;> rfl
  | summary samples => exact names_summaryMembers samples
  | array samples =>
      have none : namedCount ctx (.array samples) = 0 := rfl
      rw [none, List.replicate_zero, List.append_nil]
      exact names_arrayMembers samples
  | status nameSpace values => rfl
  | events values => rfl

/-- Values on a grid have no names, and others have the names of their times. -/
theorem unrepeated_aligned_iff {α : Type} (values : List (Sample α)) {item : Sample α → Json}
    (each : ∀ value, (item value).Unrepeated)
    : (ctx.aligned (values.map fun sample => (sample.time, item sample))).Unrepeated
      ↔ ((if ctx.grid.isSome then [] else values.map Sample.time).map ctx.tick).Nodup := by
  rw [EntryContext.aligned, List.map_map, List.map_map]
  split
  · exact iff_of_true (Json.unrepeated_array_map values each) List.nodup_nil
  · refine (Json.unrepeated_object_map_iff values (fun sample => ctx.key sample.time) each).trans ?_
    have times := ctx.nodup_keys_iff (values.map Sample.time)
    rwa [List.map_map] at times

/-- Plain numbers are one member, unless there are none. -/
theorem unrepeated_plain_iff {α : Type} (values : List (Sample α)) {item : Sample α → Json}
    (each : ∀ value, (item value).Unrepeated)
    : (∀ member ∈ (if values.isEmpty then []
          else [("NumericType", ctx.aligned (values.map fun sample => (sample.time, item sample)))]
          : Members),
        member.2.Unrepeated)
      ↔ ((if ctx.grid.isSome then [] else values.map Sample.time).map ctx.tick).Nodup := by
  rw [← unrepeated_aligned_iff values each]
  cases values with
  | nil =>
      refine iff_of_true nofun ?_
      rw [unrepeated_aligned_iff [] each]
      simp
  | cons first rest => simp

/-- A row stands under a single name, so named aggregations never repeat one. -/
theorem unrepeated_namedSummary (values : List (Sample Summary)) (ids : List Int32)
    : (ctx.namedSummary values ids).Unrepeated := by
  have name (id : Int32) : (ctx.aggregationName id).Unrepeated := by
    unfold EntryContext.aggregationName
    split
    · exact .scalar _
    · exact .scalar _
  have cells (sample : Sample Summary) : (EntryContext.summaryRow ids sample).Unrepeated := by
    unfold EntryContext.summaryRow
    split
    · exact .scalar _
    · exact Json.unrepeated_array_map ids fun id => Number.unrepeated_toJson? _
  refine .object (by decide : ["aggregations", "data"].Nodup) fun member found => ?_
  simp only [List.mem_cons, List.not_mem_nil, or_false] at found
  rcases found with rfl | rfl
  · exact Json.unrepeated_array_map ids name
  · refine Json.unrepeated_array_map values fun sample => ?_
    split
    · exact cells sample
    · refine .object (List.nodup_singleton _) fun row single => ?_
      exact List.mem_singleton.mp single ▸ cells sample

/-- Each array is written in its range. -/
theorem mem_arrayMembers {samples : List (Sample DenseArray)} {member : String × Json}
    (found : member ∈ ctx.arrayMembers samples)
    : ∃ array : DenseArray,
        member = ("NumericType", .array (array.range.map Number.toJson?)) := by
  unfold EntryContext.arrayMembers at found
  split at found
  · cases found
  · obtain ⟨sample, _, added⟩ := List.mem_filterMap.mp found
    cases value : sample.value with
    | none => simp [value] at added
    | some array =>
        simp only [value, Option.bind_eq_bind, Option.bind_some] at added
        split at added
        · exact ⟨array, (Option.some.inj added).symm⟩
        · cases added

/-- The numbers of a strand repeat no name exactly if no two of its times are named alike. -/
theorem unrepeated_numbers_iff (strand : Strand)
    : (∀ member ∈ strand.numbers ctx, member.2.Unrepeated)
      ↔ ((strand.namedTimes ctx).map ctx.tick).Nodup := by
  cases strand with
  | numeric samples =>
      exact unrepeated_plain_iff (ctx.window samples) fun sample =>
        Number.unrepeated_toJson? sample.value
  | summary samples =>
      simp only [numbers, EntryContext.summaryMembers, namedTimes]
      cases layout : ctx.layout with
      | first =>
          have plain := @unrepeated_plain_iff ctx _ (ctx.window samples) _ fun sample =>
            Number.unrepeated_toJson?
              (EntryContext.pick (EntryContext.aggregations (ctx.window samples)).head? sample)
          simpa using plain
      | named =>
          refine iff_of_true (fun member found => ?_) (by simp)
          split at found
          · cases found
          · dsimp only at found
            split at found
            · cases found
            · exact List.mem_singleton.mp found ▸ unrepeated_namedSummary _ _
  | array samples =>
      refine iff_of_true (fun member found => ?_) List.nodup_nil
      obtain ⟨array, rfl⟩ := mem_arrayMembers found
      exact Json.unrepeated_array_map array.range Number.unrepeated_toJson?
  | status nameSpace values => exact iff_of_true (List.forall_mem_nil _) List.nodup_nil
  | events values => exact iff_of_true (List.forall_mem_nil _) List.nodup_nil

theorem mem_numberNames {strand : Strand} {name : String}
    (number : name ∈ (strand.numbers ctx).map Prod.fst)
    : name ∈ numberNames := by
  rw [names_numbers] at number
  rcases List.mem_append.mp number with plain | named
  · exact List.eq_of_mem_replicate plain ▸ by decide
  · exact List.eq_of_mem_replicate named ▸ by decide

theorem mem_numberNames_of_flatMap {strands : List Strand} {name : String}
    (number : name ∈ (strands.flatMap (numbers ctx)).map Prod.fst)
    : name ∈ numberNames := by
  rw [List.map_flatMap] at number
  obtain ⟨strand, _, found⟩ := List.mem_flatMap.mp number
  exact mem_numberNames found

/-- All numbers have distinct names if both names are used at most once. -/
theorem nodup_names_iff (strands : List Strand)
    : ((strands.flatMap (numbers ctx)).map Prod.fst).Nodup
      ↔ (strands.map (plainCount ctx)).sum ≤ 1 ∧ (strands.map (namedCount ctx)).sum ≤ 1 := by
  have counted (name : String)
      : ((strands.flatMap (numbers ctx)).map Prod.fst).count name
        = (strands.map fun strand =>
            (List.replicate (strand.plainCount ctx) "NumericType"
              ++ List.replicate (strand.namedCount ctx) "NumericSummaryType").count name).sum := by
    simp only [List.map_flatMap, List.count_flatMap, names_numbers, Function.comp_def]
  rw [List.nodup_iff_count_le_one]
  constructor
  · intro once
    have plain := once "NumericType"
    have named := once "NumericSummaryType"
    simp only [counted, List.count_append, List.count_replicate] at plain named
    exact ⟨by simpa using plain, by simpa using named⟩
  · rintro ⟨plain, named⟩ name
    simp only [counted, List.count_append, List.count_replicate]
    by_cases isPlain : "NumericType" = name
    · subst isPlain
      simpa using plain
    · by_cases isNamed : "NumericSummaryType" = name
      · subst isNamed
        simpa using named
      · simp [isPlain, isNamed]

theorem apart_of_mem_records {strand : Strand} {fields : Members} (record : fields ∈ strand.records)
    : Apart fields := by
  cases strand with
  | numeric samples => cases record
  | summary samples => cases record
  | array samples => cases record
  | status nameSpace values =>
      obtain ⟨status, _, rfl⟩ := List.mem_map.mp record
      exact status.apart
  | events values =>
      obtain ⟨event, _, rfl⟩ := List.mem_map.mp record
      exact event.apart

theorem apart_of_mem_flatMap {strands : List Strand} {fields : Members}
    (record : fields ∈ strands.flatMap records)
    : Apart fields := by
  obtain ⟨strand, _, found⟩ := List.mem_flatMap.mp record
  exact apart_of_mem_records found

/-- The first record of the strands, if there is one. -/
theorem apart_head (strands : List Strand) : Apart ((strands.flatMap records).head?.getD []) := by
  cases found : strands.flatMap records with
  | nil => exact Apart.nil
  | cons first rest =>
      have record : first ∈ strands.flatMap records := found ▸ List.mem_cons_self
      exact apart_of_mem_flatMap record

end Strand

-----------------------------------------------------------------------------------------
-- Entries
-----------------------------------------------------------------------------------------

/-- An entry repeats a name only in its numbers. -/
theorem unrepeated_entry_iff (id : SeriesName) (withMetric : Bool) {body numbers fields : Members}
    (gathered : body.Perm (numbers ++ fields)) (apart : Apart fields)
    (plain : ∀ name ∈ numbers.map Prod.fst, name ∈ numberNames)
    : (Json.object (id.members withMetric ++ body)).Unrepeated
      ↔ (numbers.map Prod.fst).Nodup ∧ ∀ member ∈ numbers, member.2.Unrepeated := by
  have identity := id.sublist_names withMetric
  have apartFromIdentity (name : String) (found : name ∈ (id.members withMetric).map Prod.fst)
      (other : String) (member : other ∈ (numbers ++ fields).map Prod.fst)
      : name ≠ other := by
    rintro rfl
    have known := identity.subset found
    rw [List.map_append, List.mem_append] at member
    rcases member with number | field
    · exact not_mem_identityNames name (plain name number) known
    · exact apart.fresh name field (List.mem_append_left _ known)
  have apartFromNumbers (name : String) (number : name ∈ numbers.map Prod.fst)
      (other : String) (field : other ∈ fields.map Prod.fst)
      : name ≠ other := by
    rintro rfl
    exact apart.fresh name field (List.mem_append_right _ (plain name number))
  have names : ((id.members withMetric ++ body).map Prod.fst).Nodup
      ↔ (numbers.map Prod.fst).Nodup := by
    rw [((gathered.append_left _).map Prod.fst).nodup_iff, List.map_append, List.nodup_append,
      List.map_append, List.nodup_append, ← List.map_append]
    exact ⟨fun distinct => distinct.2.1.1, fun distinct =>
      ⟨(by decide : identityNames.Nodup).sublist identity,
        ⟨distinct, apart.names, apartFromNumbers⟩, apartFromIdentity⟩⟩
  have values : (∀ member ∈ id.members withMetric ++ body, member.2.Unrepeated)
      ↔ ∀ member ∈ numbers, member.2.Unrepeated := by
    simp only [List.mem_append, gathered.mem_iff]
    constructor
    · exact fun each member number => each member (.inr (.inl number))
    · rintro each member (identity | number | field)
      · exact id.unrepeated_values withMetric member identity
      · exact each member number
      · exact apart.values member field
  rw [Json.unrepeated_object_iff, names, values]

namespace EntryContext

/-- The instant is a whole number of the units in which times are named. -/
def Whole (ctx : EntryContext) (time : Timestamp) : Prop :=
  time.Normalized
  ∧ (ctx.tick time).toInt * (if ctx.options.millis then 1000000 else 1000000000) = time.instant

/-- Ascending times that are whole in the unit of the names are named apart. -/
theorem nodup_ticks {ctx : EntryContext} {times : List Timestamp}
    (ascending : times.Pairwise (· < ·)) (whole : ∀ time ∈ times, ctx.Whole time)
    : (times.map ctx.tick).Nodup := by
  rw [List.Nodup, List.pairwise_map]
  refine List.Pairwise.imp_of_mem ?_ ascending
  intro first second isFirst isSecond before same
  obtain ⟨firstNormal, firstWhole⟩ := whole first isFirst
  obtain ⟨secondNormal, secondWhole⟩ := whole second isSecond
  have later := (Timestamp.lt_iff_instant firstNormal secondNormal).mp before
  rw [← firstWhole, ← secondWhole, same] at later
  exact lt_irrefl _ later

/-- The entries of a series repeat no name exactly if its numbers do not. -/
theorem unrepeated_entries_iff_numbers (ctx : EntryContext) (id : SeriesName)
    (strands : List Strand)
    : (∀ entry ∈ ctx.entries id strands, entry.Unrepeated)
      ↔ ((strands.flatMap (Strand.numbers ctx)).map Prod.fst).Nodup
        ∧ ∀ member ∈ strands.flatMap (Strand.numbers ctx), member.2.Unrepeated := by
  have lone (fields : Members) (later : fields ∈ (strands.flatMap Strand.records).tail)
      : (Json.object (id.members (!strands.any Strand.hidesMetric) ++ fields)).Unrepeated := by
    have alone : fields.Perm ([] ++ fields) := .refl _
    have apart := Strand.apart_of_mem_flatMap (List.mem_of_mem_tail later)
    exact (unrepeated_entry_iff id _ alone apart nofun).mpr ⟨List.nodup_nil, nofun⟩
  rw [entries_eq]
  split
  · rename_i silent
    simp [silent.1]
  · rw [← unrepeated_entry_iff id (!(strands.any Strand.hidesMetric))
      (Strand.firstBody_perm ctx strands) (Strand.apart_head strands)
      fun _ => Strand.mem_numberNames_of_flatMap]
    simp only [List.map_cons, List.forall_mem_cons, List.forall_mem_map]
    exact and_iff_left lone

/-- What is written for a series are its entries. They repeat a name exactly if they have two
members with plain numbers or two with named aggregations, or if two times of a strand are the same
in the unit of the names. That never happens to ascending times that are whole in this unit.
-/
theorem unrepeated_entries_iff (ctx : EntryContext) (id : SeriesName) (strands : List Strand)
    : ctx.Encodes id strands (ctx.entries id strands)
      ∧ ((∀ entry ∈ ctx.entries id strands, entry.Unrepeated)
        ↔ (strands.map (Strand.plainCount ctx)).sum ≤ 1
          ∧ (strands.map (Strand.namedCount ctx)).sum ≤ 1
          ∧ ∀ strand ∈ strands, ((strand.namedTimes ctx).map ctx.tick).Nodup)
      ∧ ((∀ strand ∈ strands,
          strand.times.Pairwise (· < ·) ∧ ∀ time ∈ strand.namedTimes ctx, ctx.Whole time)
        → ((∀ entry ∈ ctx.entries id strands, entry.Unrepeated)
          ↔ (strands.map (Strand.plainCount ctx)).sum ≤ 1
            ∧ (strands.map (Strand.namedCount ctx)).sum ≤ 1)) := by
  have values : (∀ member ∈ strands.flatMap (Strand.numbers ctx), member.2.Unrepeated)
      ↔ ∀ strand ∈ strands, ((strand.namedTimes ctx).map ctx.tick).Nodup := by
    simp only [← Strand.unrepeated_numbers_iff, List.mem_flatMap, forall_exists_index, and_imp]
    exact ⟨fun each strand found member number => each member strand found number,
      fun each member strand found number => each strand found member number⟩
  have exactly := ctx.unrepeated_entries_iff_numbers id strands
  rw [Strand.nodup_names_iff, values, and_assoc] at exactly
  refine ⟨ctx.encodes_entries id strands, exactly, fun regular => ?_⟩
  have apart (strand : Strand) (found : strand ∈ strands)
      : ((strand.namedTimes ctx).map ctx.tick).Nodup :=
    nodup_ticks ((regular strand found).1.sublist strand.namedTimes_sublist)
      (regular strand found).2
  exact exactly.trans ⟨fun each => ⟨each.1, each.2.1⟩, fun each => ⟨each.1, each.2, apart⟩⟩

/-- A query without a grid, in the given layout. -/
def unaligned (layout : SummaryLayout) : EntryContext where
  start := ⟨0, 0⟩
  stop := ⟨100, 0⟩
  grid := none
  options := .standard
  layout := layout
  rollup := none

/-- A status that says nothing. -/
def quiet : Status :=
  ⟨0, none, ⟨5, 0⟩, none, 1, "ok", "app"⟩

def twoNumbers : Strand :=
  .numeric [⟨⟨10, 0⟩, some (.int 1)⟩, ⟨⟨20, 0⟩, some (.int 2)⟩]

def oneSummary : Strand :=
  .summary [⟨⟨10, 0⟩, some ⟨SortedMap.empty.insert 0 (.int 3)⟩⟩]

/-- Numbers, named aggregations and two statuses make two entries that repeat no name. -/
theorem unrepeated_entries_mixed
    : let strands := [twoNumbers, oneSummary, .status none [quiet, quiet]]
      let entries := (unaligned .named).entries ⟨"m", .empty, []⟩ strands
      (∀ strand ∈ strands, strand.times.Pairwise (· < ·)
        ∧ ∀ time ∈ strand.namedTimes (unaligned .named), (unaligned .named).Whole time)
      ∧ (unaligned .named).Encodes ⟨"m", .empty, []⟩ strands entries
      ∧ entries.length = 2
      ∧ ∀ entry ∈ entries, entry.Unrepeated := by
  intro strands entries
  have regular : ∀ strand ∈ strands, strand.times.Pairwise (· < ·)
      ∧ ∀ time ∈ strand.namedTimes (unaligned .named), (unaligned .named).Whole time := by
    simp only [strands, Whole, Timestamp.Normalized]
    decide
  obtain ⟨written, _, exactly⟩ :=
    unrepeated_entries_iff (unaligned .named) ⟨"m", .empty, []⟩ strands
  exact ⟨regular, written, rfl, (exactly regular).mpr (by decide)⟩

/-- Numbers at two times within a second. -/
def halves : Strand :=
  .numeric [⟨⟨10, 0⟩, some (.int 1)⟩, ⟨⟨10, 500000000⟩, some (.int 2)⟩]

/-- A summary that is shown as plain numbers repeats the name of the numbers beside it, and two
times within a second share a name.
-/
theorem entries_repeated
    : let first := (unaligned .first).entries ⟨"m", .empty, []⟩ [twoNumbers, oneSummary]
      let second := (unaligned .first).entries ⟨"m", .empty, []⟩ [halves]
      (∀ strand ∈ [twoNumbers, oneSummary, halves], strand.times.Pairwise (· < ·))
      ∧ (unaligned .first).Encodes ⟨"m", .empty, []⟩ [twoNumbers, oneSummary] first
      ∧ Json.itemTexts first
        = ["\x7b\"metric\":\"m\",\"tags\":\x7b\x7d,\"aggregateTags\":[],"
          ++ "\"NumericType\":\x7b\"10\":1,\"20\":2\x7d,\"NumericType\":\x7b\"10\":3\x7d\x7d"]
      ∧ ¬(∀ entry ∈ first, entry.Unrepeated)
      ∧ (unaligned .first).Encodes ⟨"m", .empty, []⟩ [halves] second
      ∧ Json.itemTexts second
        = ["\x7b\"metric\":\"m\",\"tags\":\x7b\x7d,\"aggregateTags\":[],"
          ++ "\"NumericType\":\x7b\"10\":1,\"10\":2\x7d\x7d"]
      ∧ ¬(∀ entry ∈ second, entry.Unrepeated) := by
  intro first second
  refine ⟨by decide, encodes_entries _ _ _, by decide +kernel, fun each => ?_,
    encodes_entries _ _ _, by decide +kernel, fun each => ?_⟩
  · rw [unrepeated_entries_iff_numbers] at each
    exact absurd each.1 (by decide)
  · rw [unrepeated_entries_iff_numbers] at each
    have numbers := (Strand.unrepeated_numbers_iff halves).mp fun member number =>
      each.2 member (by simpa using number)
    exact absurd numbers (by decide)

end EntryContext

end SeriesWire
