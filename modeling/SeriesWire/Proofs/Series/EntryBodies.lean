import SeriesWire.Proofs.Series.DistinctNames

/-! Statuses and events become entries one by one.
The first of them shares an entry with all numbers, and every other one has its own, in order. All
entries name the series alike: the metric is missing in all of them as soon as there is a strand of
statuses or events, even an empty one.
-/

namespace SeriesWire

open Json

namespace SeriesName

theorem metric_mem_iff (id : SeriesName) (withMetric : Bool)
    : "metric" ∈ (id.members withMetric).map Prod.fst ↔ withMetric = true := by
  cases withMetric with
  | true => exact iff_of_true List.mem_cons_self rfl
  | false =>
      have others : "metric" ∉ ["tags", "aggregateTags"] := by decide
      exact iff_of_false others Bool.false_ne_true

/-- Members with other names do not touch the identity in front of them. -/
theorem filter_members (id : SeriesName) (withMetric : Bool) {body : Members}
    (fresh : ∀ name ∈ body.map Prod.fst, name ∉ identityNames)
    : (id.members withMetric ++ body).filter (fun member => member.1 ∈ identityNames)
      = id.members withMetric := by
  have known : (id.members withMetric).filter (fun member => member.1 ∈ identityNames)
      = id.members withMetric := by
    refine List.filter_eq_self.mpr fun member found => decide_eq_true ?_
    exact (id.sublist_names withMetric).subset (List.mem_map_of_mem found)
  have others : body.filter (fun member => member.1 ∈ identityNames) = [] := by
    refine List.filter_eq_nil_iff.mpr fun member found => ?_
    simpa using fresh member.1 (List.mem_map_of_mem found)
  rw [List.filter_append, known, others, List.append_nil]

end SeriesName

/-- The body of a first entry has none of the names of an identity. -/
theorem Strand.fresh_firstBody {ctx : EntryContext} {strands : List Strand} {name : String}
    (found : name ∈ (firstBody ctx strands).map Prod.fst)
    : name ∉ identityNames := by
  intro known
  have named := ((firstBody_perm ctx strands).map Prod.fst).mem_iff.mp found
  rw [List.map_append, List.mem_append] at named
  rcases named with number | field
  · exact not_mem_identityNames name (mem_numberNames_of_flatMap number) known
  · exact (apart_head strands).fresh name field (List.mem_append_left _ known)

namespace EntryContext

/-- Every status or event has an entry. Without one there is an entry as soon as there are numbers.
-/
theorem length_entries (ctx : EntryContext) (id : SeriesName) (strands : List Strand)
    : (ctx.entries id strands).length
      = if strands.flatMap (Strand.numbers ctx) = [] ∧ strands.flatMap Strand.records = [] then 0
        else max (strands.flatMap Strand.records).length 1 := by
  rw [entries_eq]
  split
  · rfl
  · rw [List.length_map, List.length_cons, List.length_tail]
    omega

/-- Whatever else an entry has, it names its series as all others do. -/
theorem exists_identity {ctx : EntryContext} {id : SeriesName} {strands : List Strand}
    {entry : Json} (member : entry ∈ ctx.entries id strands)
    : ∃ members,
        entry = .object members
        ∧ members.filter (fun member => member.1 ∈ identityNames)
          = id.members (!strands.any Strand.hidesMetric) := by
  rw [entries_eq] at member
  split at member
  · cases member
  · obtain ⟨body, found, rfl⟩ := List.mem_map.mp member
    refine ⟨_, rfl, id.filter_members _ fun name named => ?_⟩
    rcases List.mem_cons.mp found with rfl | later
    · exact Strand.fresh_firstBody named
    · have apart := Strand.apart_of_mem_flatMap (List.mem_of_mem_tail later)
      exact fun known => apart.fresh name named (List.mem_append_left _ known)

/-- Inside of any array a series is written as its entries, which are counted as further items, and
it is told to have values exactly if there are any. Their bodies are that of the first entry, which
has all numbers that the encoders of the strands write, and the first record in the order of the
strands, and then the other records one by one. They share the members that identify the series, and
the metric is among those exactly if no strand hides it.
-/
theorem encodeSeries_bodies (ctx : EntryContext) (id : SeriesName) (strands : List Strand)
    : let numbers := strands.flatMap (Strand.numbers ctx)
      let records := strands.flatMap Strand.records
      let entries := ctx.entries id strands
      let identity := id.members !(strands.any Strand.hidesMetric)
      (∀ text count outer,
        ctx.encodeSeries id strands ⟨text, ⟨⟨.array, count⟩ :: outer, false⟩⟩
          = .ok (⟨text ++ separated count (itemTexts entries),
              ⟨⟨.array, count + entries.length⟩ :: outer, false⟩⟩,
            { wroteValues := !entries.isEmpty
              wasStatus := strands.any Strand.isStatus
              nameSpace := strands.findSome? Strand.nameSpace? }))
      ∧ (∀ strand ∈ strands, ∀ body embedded,
          ctx.encodeNumbers (.holding body embedded) strand
            = .ok (.holding (body ++ strand.numbers ctx) embedded, !(strand.numbers ctx).isEmpty))
      ∧ entries
        = (if numbers = [] ∧ records = [] then []
          else (Strand.firstBody ctx strands :: records.tail).map fun body =>
            .object (identity ++ body))
      ∧ entries.length = (if numbers = [] ∧ records = [] then 0 else max records.length 1)
      ∧ (∀ entry ∈ entries, ∃ members,
          entry = .object members
          ∧ members.filter (fun member => member.1 ∈ identityNames) = identity)
      ∧ ("metric" ∈ identity.map Prod.fst ↔ ∀ strand ∈ strands, strand.hidesMetric = false) := by
  intro numbers records entries identity
  refine ⟨ctx.encodes_entries id strands, ?_, ctx.entries_eq id strands,
    ctx.length_entries id strands, fun entry => exists_identity, ?_⟩
  · exact fun strand _ body embedded => ctx.encodeNumbers_holding body embedded strand
  · rw [id.metric_mem_iff, Bool.not_eq_true', List.any_eq_false]
    simp only [Bool.not_eq_true]

/-- An event that says nothing. -/
def idle (title : String) : Event where
  nameSpace := "ns"
  source := "ci"
  title := title
  message := ""
  priority := "low"
  time := ⟨10, 0⟩
  stop := ⟨20, 0⟩
  user := "u1"
  ongoing := false
  id := "e1"
  parents := none
  children := none
  properties := none

/-- Numbers, events and statuses among each other. -/
def interleaved : List Strand :=
  [twoNumbers, .events [idle "first", idle "second"], oneSummary, .status none [],
    .status none [quiet]]

/-- Behind an item that is already there they make three entries, the first of which has the first
event between the numbers.
-/
theorem encodeSeries_bodies_interleaved
    : let ctx := unaligned .named
      let entries := ctx.entries ⟨"m", .empty, []⟩ interleaved
      ctx.encodeSeries ⟨"m", .empty, []⟩ interleaved ⟨"[1", ⟨[⟨.array, 1⟩], false⟩⟩
        = .ok (⟨"[1" ++ separated 1 (itemTexts entries), ⟨[⟨.array, 4⟩], false⟩⟩,
            ⟨true, true, none⟩)
      ∧ entries.length = 3
      ∧ (Strand.firstBody ctx interleaved).map Prod.fst
        = ["NumericType", "namespace", "source", "title", "message", "priority", "timestamp",
          "endTimestamp", "userId", "ongoing", "eventId", "NumericSummaryType"]
      ∧ ¬(∀ strand ∈ interleaved, strand.hidesMetric = false) := by
  intro ctx entries
  obtain ⟨written, _, _, counted, _, _⟩ := ctx.encodeSeries_bodies ⟨"m", .empty, []⟩ interleaved
  have three : entries.length = 3 := counted.trans (by decide)
  refine ⟨?_, three, by decide, by decide⟩
  rw [written, three]
  rfl

end EntryContext

end SeriesWire
