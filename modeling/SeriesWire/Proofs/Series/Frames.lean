import SeriesWire.Entry.Encoding
import SeriesWire.Proofs.Json.Spelling
import SeriesWire.Proofs.Series.Gathering

/-! Entries that are written strand by strand are the entries of the series.
A frame holds the text of the members gathered so far, and it is open exactly if there are any. So
what is written at the end, and what it is said to reveal, can be read off the members.
-/

namespace SeriesWire

open Json

/-- Members as they stand in a frame. -/
def Members.text (members : Members) : String :=
  String.intercalate "," (memberTexts members)

theorem Members.text_eq_empty_iff {members : Members} : members.text = "" ↔ members = [] := by
  rw [text, ← separated_zero, separated_eq_empty_iff fun _ => ne_empty_of_mem_memberTexts,
    memberTexts_eq_nil_iff]

/-- More members follow behind a comma, unless one of the two parts is empty. -/
theorem Members.text_append (members more : Members)
    : (members ++ more).text = members.text ++ separated members.length (memberTexts more) := by
  have whole := separated_append 0 (memberTexts members) (memberTexts more)
  rw [Nat.zero_add, length_memberTexts, separated_zero, separated_zero] at whole
  rw [text, text, memberTexts_append, whole]

-----------------------------------------------------------------------------------------
-- Frames
-----------------------------------------------------------------------------------------

namespace Frame

/-- The frame into which exactly these members were written. -/
def holding (members : Members) (embedded : Bool) : Frame :=
  ⟨⟨members.text, ⟨[⟨.object, members.length⟩], false⟩⟩, !members.isEmpty, embedded⟩

theorem write_holding (members : Members) (embedded : Bool) {more : Members} (filled : more ≠ [])
    : (holding members embedded).write more = .ok (holding (members ++ more) embedded) := by
  have written := Draft.writeAll_memberTokens more members.text [] members.length
  simp only [holding, write, written, Except.map, ← Members.text_append, List.length_append]
  simp [filled]

theorem embed_holding (members : Members) (embedded : Bool) {fields : Members}
    (filled : fields ≠ [])
    : (holding members embedded).embed fields = .ok (holding (members ++ fields) true) := by
  rw [embed, write_holding members embedded filled]
  rfl

end Frame

namespace EntryContext

variable (ctx : EntryContext) (members : Members) (embedded : Bool)

theorem encodeNumeric_holding (samples : List (Sample Number))
    : ctx.encodeNumeric samples (.holding members embedded)
      = .ok (.holding (members ++ ctx.numericMembers samples) embedded,
          !(ctx.numericMembers samples).isEmpty) := by
  simp only [encodeNumeric, numericMembers]
  split
  · simp
  · rw [Frame.write_holding members embedded (List.cons_ne_nil _ _)]
    rfl

theorem encodeSummary_holding (samples : List (Sample Summary))
    : ctx.encodeSummary samples (.holding members embedded)
      = .ok (.holding (members ++ ctx.summaryMembers samples) embedded,
          !(ctx.summaryMembers samples).isEmpty) := by
  simp only [encodeSummary, summaryMembers]
  cases (ctx.window samples).isEmpty with
  | true => simp
  | false =>
      cases layout : ctx.layout with
      | first => simp [Frame.write_holding, Except.map]
      | named =>
          cases (aggregations (ctx.window samples)).isEmpty with
          | true => simp
          | false => simp [Frame.write_holding, Except.map]

/-- The member of an array whose range is not empty. -/
def rangeMember (sample : Sample DenseArray) : Option (String × Json) := do
  let dense ← sample.value
  if dense.offset < dense.stop then
    some ("NumericType", .array (dense.range.map Number.toJson?))
  else none

/-- Arrays are written one after the other, by induction on the samples. -/
theorem foldlM_encodeRange_holding (samples : List (Sample DenseArray)) (wrote : Bool)
    : samples.foldlM encodeRange (.holding members embedded, wrote)
      = .ok (.holding (members ++ samples.filterMap rangeMember) embedded,
          wrote || !(samples.filterMap rangeMember).isEmpty) := by
  induction samples generalizing members wrote with
  | nil => simp [pure, Except.pure]
  | cons sample rest ih =>
      have step : encodeRange (.holding members embedded, wrote) sample
          = .ok (.holding (members ++ (rangeMember sample).toList) embedded,
              wrote || (rangeMember sample).isSome) := by
        simp only [encodeRange, rangeMember]
        cases sample.value with
        | none => simp
        | some dense =>
            by_cases range : dense.offset < dense.stop
            · simp [range, Frame.write_holding, Except.map]
            · simp [range]
      rw [List.foldlM_cons, step]
      simp only [bind, Except.bind, ih]
      cases member : rangeMember sample with
      | none => simp [member]
      | some found => simp [member]

theorem encodeArray_holding (samples : List (Sample DenseArray))
    : ctx.encodeArray samples (.holding members embedded)
      = .ok (.holding (members ++ ctx.arrayMembers samples) embedded,
          !(ctx.arrayMembers samples).isEmpty) := by
  rw [encodeArray, arrayMembers]
  split
  · simp
  · exact foldlM_encodeRange_holding members embedded (ctx.window samples) false

/-- A strand writes its numbers, and tells whether it has any. -/
theorem encodeNumbers_holding (strand : Strand)
    : ctx.encodeNumbers (.holding members embedded) strand
      = .ok (.holding (members ++ strand.numbers ctx) embedded,
          !(strand.numbers ctx).isEmpty) := by
  cases strand with
  | numeric samples => exact ctx.encodeNumeric_holding members embedded samples
  | summary samples => exact ctx.encodeSummary_holding members embedded samples
  | array samples => exact ctx.encodeArray_holding members embedded samples
  | status nameSpace values => simp [encodeNumbers, Strand.numbers]
  | events values => simp [encodeNumbers, Strand.numbers]

end EntryContext

-----------------------------------------------------------------------------------------
-- Strands
-----------------------------------------------------------------------------------------

/-- The members of each entry without its identity. -/
def Gathering.bodies (gathering : Gathering) : List Members :=
  if gathering.body.isEmpty then [] else gathering.body :: gathering.further

namespace Encoding

/-- What is written of a gathering. -/
def holding (gathering : Gathering) : Encoding :=
  ⟨.holding gathering.body gathering.embedded, gathering.further.map Members.text⟩

theorem empty_eq_holding : empty = holding .empty :=
  rfl

theorem addRecord_holding (gathering : Gathering) {fields : Members} (filled : fields ≠ [])
    : (holding gathering).addRecord fields = .ok (holding (gathering.addRecord fields)) := by
  obtain ⟨body, embedded, further⟩ := gathering
  cases embedded with
  | true =>
      have alone : draft .insideObject (memberTokens fields) = .ok (Members.text fields) := by
        have written := Draft.writeAll_memberTokens fields "" [] 0
        rw [draft, Cursor.insideObject, Draft.start, written, separated_zero]
        simp [Except.map, Members.text]
      simp [addRecord, Gathering.addRecord, holding, Frame.holding, alone, Except.map]
  | false =>
      have taken := Frame.embed_holding body false filled
      have free : (Frame.holding body false).embedded = false := rfl
      simp only [addRecord, Gathering.addRecord, holding, free, Bool.false_eq_true, if_false, taken]
      rfl

/-- Records are added one after the other, by induction on them. -/
theorem foldlM_addRecord_holding {records : List Members} (gathering : Gathering)
    (filled : ∀ fields ∈ records, fields ≠ [])
    : records.foldlM addRecord (holding gathering)
      = .ok (holding (records.foldl Gathering.addRecord gathering)) := by
  induction records generalizing gathering with
  | nil => rfl
  | cons fields rest ih =>
      rw [List.foldlM_cons, addRecord_holding gathering (filled fields List.mem_cons_self)]
      exact ih _ fun other member => filled other (List.mem_cons_of_mem fields member)

theorem addStrand_holding (ctx : EntryContext) (gathering : Gathering) (strand : Strand)
    : (holding gathering).addStrand ctx strand
      = .ok (holding (gathering.addStrand ctx strand)) := by
  have filled (fields : Members) (record : fields ∈ strand.records) : fields ≠ [] :=
    Strand.ne_nil_of_mem_records record
  have numbers := ctx.encodeNumbers_holding gathering.body gathering.embedded strand
  cases strand with
  | numeric | summary | array => simp only [addStrand, holding, numbers]; rfl
  | status nameSpace values => exact foldlM_addRecord_holding gathering filled
  | events values => exact foldlM_addRecord_holding gathering filled

/-- Strands are written one after the other, by induction on them. -/
theorem foldlM_addStrand_holding (ctx : EntryContext) (gathering : Gathering)
    (strands : List Strand)
    : strands.foldlM (addStrand ctx) (holding gathering)
      = .ok (holding (strands.foldl (Gathering.addStrand ctx) gathering)) := by
  induction strands generalizing gathering with
  | nil => rfl
  | cons strand rest ih =>
      rw [List.foldlM_cons, addStrand_holding]
      exact ih _

/-- Nothing is misplaced when strands are written, and what they leave is what they gather. -/
theorem ofStrands_eq (ctx : EntryContext) (strands : List Strand)
    : ofStrands ctx strands = .ok (holding (Gathering.ofStrands ctx strands)) := by
  rw [ofStrands, empty_eq_holding]
  exact foldlM_addStrand_holding ctx .empty strands

/-- Further entries follow a first one, because the first record opens the frame. -/
theorem bodies_holding (ctx : EntryContext) (strands : List Strand)
    : (holding (Gathering.ofStrands ctx strands)).bodies
      = (Gathering.ofStrands ctx strands).bodies.map Members.text := by
  have alone : (Gathering.ofStrands ctx strands).body = []
      → (Gathering.ofStrands ctx strands).further = [] := by
    rw [Gathering.ofStrands_eq, Strand.firstBody_eq_nil_iff]
    rintro ⟨_, none⟩
    rw [none, List.tail_nil]
  cases body : (Gathering.ofStrands ctx strands).body with
  | nil => simp [bodies, Gathering.bodies, holding, Frame.holding, body, alone body]
  | cons member rest => simp [bodies, Gathering.bodies, holding, Frame.holding, body]

end Encoding

-----------------------------------------------------------------------------------------
-- Entries
-----------------------------------------------------------------------------------------

namespace EntryContext

/-- Members that are spliced in behind others are written as if they had been written in place. -/
theorem writes_rawMembers (members : Members) (count : Nat) (outer : List Scope)
    : ∃ next,
        Writes ⟨⟨.object, count⟩ :: outer, false⟩ [.rawMembers members.text]
          (separated count (memberTexts members)) ⟨⟨.object, next⟩ :: outer, false⟩ := by
  cases members with
  | nil => exact ⟨count, rfl⟩
  | cons member rest =>
      have filled : (Members.text (member :: rest)).isEmpty = false := by
        simp [Members.text_eq_empty_iff]
      have planned : (⟨⟨.object, count⟩ :: outer, false⟩ : Cursor).plan
          (.rawMembers (Members.text (member :: rest)))
          = .ok ((Cursor.advance ⟨⟨.object, count⟩ :: outer, false⟩ ⟨.object, count⟩ outer).andWrite
              (Members.text (member :: rest))) := by
        rw [Cursor.plan, filled]
        rfl
      refine ⟨count + 1, ?_⟩
      have single := Writes.single planned
      rw [Plan.text_andWrite, Cursor.text_advance] at single
      rw [memberTexts, separated, String.append_assoc, append_separated]
      exact single

/-- The identity and fields that are already written make an entry. -/
theorem spells_entryAround (identity body : Members)
    : Spells (entryAround identity body.text) (Json.object (identity ++ body)).text := by
  refine Spells.enclosed .object (fun c => rfl) (fun c => rfl) fun outer => ?_
  have named := listsMembers_memberTokens identity outer 0
  obtain ⟨next, spliced⟩ := writes_rawMembers body (0 + (memberTexts identity).length) outer
  refine ⟨next, ?_⟩
  have both := named.append spliced
  rw [← separated_append, separated_zero, ← memberTexts_append] at both
  exact both

/-- The tokens of the entries of a series, around fields that are already written. -/
def tokensAround (ctx : EntryContext) (id : SeriesName) (strands : List Strand) : List Token :=
  (Gathering.ofStrands ctx strands).bodies.flatMap fun body =>
    entryAround (id.members !(strands.any Strand.hidesMetric)) body.text

variable (ctx : EntryContext) (id : SeriesName) (strands : List Strand)

/-- Only the place of the entries can be wrong. -/
theorem encodeSeries_eq_map (draft : Draft)
    : ctx.encodeSeries id strands draft
      = (draft.writeAll (ctx.tokensAround id strands)).map fun next =>
          (next, ctx.outcome strands) := by
  simp only [encodeSeries, Encoding.ofStrands_eq, Encoding.bodies_holding, bind, Except.bind,
    List.flatMap_map, tokensAround]
  rfl

theorem writes_tokensAround (count : Nat) (outer : List Scope)
    : Writes ⟨⟨.array, count⟩ :: outer, false⟩ (ctx.tokensAround id strands)
        (separated count (itemTexts (ctx.entries id strands)))
        ⟨⟨.array, count + (ctx.entries id strands).length⟩ :: outer, false⟩ := by
  have written := writes_spelled
    (spells_entryAround (id.members !(strands.any Strand.hidesMetric)))
    (Gathering.ofStrands ctx strands).bodies count outer
  rw [itemTexts_eq_map, entries, List.map_map, List.length_map]
  exact written

theorem lists_tokensAround
    : Lists (ctx.tokensAround id strands) (itemTexts (ctx.entries id strands)) := by
  intro outer count
  refine ⟨_, ?_, ctx.writes_tokensAround id strands count outer⟩
  rw [itemTexts_eq_map, List.map_eq_nil_iff, Nat.add_eq_zero_iff, List.length_eq_zero_iff]

/-- Entries are objects, so their text is not empty. -/
theorem itemTexts_entries_ne_empty {text : String}
    (member : text ∈ itemTexts (ctx.entries id strands))
    : text ≠ "" := by
  rw [itemTexts_eq_map, entries, List.map_map] at member
  obtain ⟨body, _, rfl⟩ := List.mem_map.mp member
  intro empty
  have size := congrArg String.length empty
  simp [Json.text, String.length_append] at size

/-- Inside of any array the series is written as these entries, behind a comma if there are items
before, and told to have values exactly if there are any.
-/
def Encodes (entries : List Json) : Prop :=
  ∀ text count outer,
    ctx.encodeSeries id strands ⟨text, ⟨⟨.array, count⟩ :: outer, false⟩⟩
      = .ok (⟨text ++ separated count (itemTexts entries),
          ⟨⟨.array, count + entries.length⟩ :: outer, false⟩⟩,
        { wroteValues := !entries.isEmpty
          wasStatus := strands.any Strand.isStatus
          nameSpace := strands.findSome? Strand.nameSpace? })

/-- Inside an array a series is written as its entries, behind a comma if there are items before.
It is told to have values if its gathering has, and it always succeeds.
-/
theorem encodeSeries_eq (text : String) (count : Nat) (outer : List Scope)
    : ctx.encodeSeries id strands ⟨text, ⟨⟨.array, count⟩ :: outer, false⟩⟩
      = .ok (⟨text ++ separated count (itemTexts (ctx.entries id strands)),
          ⟨⟨.array, count + (ctx.entries id strands).length⟩ :: outer, false⟩⟩,
        ctx.outcome strands) := by
  have written := ctx.writes_tokensAround id strands count outer
  rw [encodeSeries_eq_map, Draft.writeAll_eq_map_start, written]
  rfl

/-- A series is told to have values exactly if it has an entry, whatever its identity. -/
theorem wroteValues_outcome
    : (ctx.outcome strands).wroteValues = !(ctx.entries id strands).isEmpty := by
  simp only [entries, outcome]
  cases body : (Gathering.ofStrands ctx strands).body <;> simp

theorem encodes_entries : ctx.Encodes id strands (ctx.entries id strands) := by
  intro text count outer
  rw [encodeSeries_eq, ← wroteValues_outcome]
  rfl

variable {ctx id strands}

/-- What the entries are is what is written. -/
theorem encodes_of_entries_eq {entries : List Json} (known : ctx.entries id strands = entries)
    : ctx.entries id strands = entries ∧ ctx.Encodes id strands entries :=
  ⟨known, known ▸ ctx.encodes_entries id strands⟩

end EntryContext

end SeriesWire
