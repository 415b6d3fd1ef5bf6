import SeriesWire.Proofs.Series.Frames
import SeriesWire.Result.Render

/-! A rendered result is the text of a tree whose data are the entries of its series in order.
The tree is the same whether the series are written one after the other or each for itself.
-/

namespace SeriesWire

open Json

/-- An entry of the results: a source with its grid, the data entries of each of its series, and
a namespace.
-/
structure SourceEntry where
  source : String
  grid : Option Grid
  series : List (List Json)
  nameSpace : Option String

namespace SourceEntry

def shown (entry : SourceEntry) : Nat :=
  entry.series.countP fun entries => !entries.isEmpty

/-- What stands in front of the data. -/
def heading (entry : SourceEntry) : Members :=
  ("source", .string entry.source)
    :: (entry.grid.map fun grid => ("timeSpecification", grid.toJson)).toList

/-- What stands behind the data. -/
def ending (entry : SourceEntry) : Members :=
  (entry.nameSpace.map fun text => ("namespace", .string text)).toList

def toJson (entry : SourceEntry) : Json :=
  .object (entry.heading ++ ("data", .array entry.series.flatten) :: entry.ending)

/-- The tokens of an entry around tokens for its data. -/
def tokensAround (entry : SourceEntry) (data : List Token) : List Token :=
  .openObject
    :: (memberTokens entry.heading
      ++ (.name "data" :: (.openArray :: data ++ [.closeArray]) ++ memberTokens entry.ending))
    ++ [.closeObject]

/-- However the data are listed, the tokens around them spell the entry. -/
theorem spells_tokensAround (entry : SourceEntry) {data : List Token}
    (h : Lists data (itemTexts entry.series.flatten))
    : Spells (entry.tokensAround data) entry.toJson.text := by
  have listed := (listsMembers_memberTokens entry.heading).append
    ((h.spells_array.member "data").append (listsMembers_memberTokens entry.ending))
  have spelled := listed.spells_object
  simpa only [tokensAround, toJson, Json.text, memberTexts_eq_map, List.map_append, List.map_cons,
    List.cons_append, List.nil_append] using spelled

end SourceEntry

namespace EntryContext

variable (ctx : EntryContext) (series : List (SeriesName × List Strand))

/-- What the series reveal, in their order. -/
def outcomes : List SeriesOutcome :=
  series.map fun named => ctx.outcome named.2

/-- Series in place are written token by token, and what they reveal is kept in order, by induction
on them.
-/
theorem foldlM_encodeNext (draft : Draft) (told : List SeriesOutcome)
    : series.foldlM ctx.encodeNext (draft, told)
      = (draft.writeAll (series.flatMap fun named => ctx.tokensAround named.1 named.2)).map
          fun next => (next, told ++ ctx.outcomes series) := by
  induction series generalizing draft told with
  | nil => simp [outcomes, Draft.writeAll, Except.map, pure, Except.pure]
  | cons head rest ih =>
      rw [List.foldlM_cons, encodeNext, encodeSeries_eq_map, List.flatMap_cons,
        Draft.writeAll_append]
      cases draft.writeAll (ctx.tokensAround head.1 head.2) with
      | error misuse => rfl
      | ok next =>
          simp only [Except.map, bind, Except.bind, ih, outcomes, List.append_assoc,
            List.singleton_append, List.map_cons]

/-- For itself a series is written as its entries. -/
theorem encodeAlone_eq (named : SeriesName × List Strand)
    : ctx.encodeAlone named
      = .ok (String.intercalate "," (itemTexts (ctx.entries named.1 named.2)),
          ctx.outcome named.2) := by
  have alone := ctx.encodeSeries_eq named.1 named.2 "" 0 []
  rw [String.empty_append, separated_zero] at alone
  rw [encodeAlone, Draft.start, Cursor.insideArray, alone]
  rfl

theorem mapM_encodeAlone
    : series.mapM ctx.encodeAlone
      = .ok (series.map fun named =>
          (String.intercalate "," (itemTexts (ctx.entries named.1 named.2)),
            ctx.outcome named.2)) := by
  rw [funext ctx.encodeAlone_eq]
  exact List.mapM_pure

/-- The entries of a series that was written for itself are spliced in as if they had been written
in place. Without entries there is nothing to splice.
-/
theorem lists_splicedTokens (id : SeriesName) (strands : List Strand)
    : Lists (splicedTokens (String.intercalate "," (itemTexts (ctx.entries id strands))))
        (itemTexts (ctx.entries id strands)) := by
  have empty_iff := @separated_eq_empty_iff 0 _ fun _ => ctx.itemTexts_entries_ne_empty id strands
  rw [separated_zero] at empty_iff
  rw [splicedTokens]
  split
  · rename_i empty
    rw [empty_iff.mp (String.isEmpty_iff.mp empty)]
    exact .nil
  · rename_i filled
    exact lists_joined fun none => filled (String.isEmpty_iff.mpr (empty_iff.mpr none))

/-- Whether the series are written in place or spliced in, the data are tokens that list their
entries in order, wherever they are written, and what the series reveal is the same.
-/
theorem encodeData_eq
    : ∃ tokens,
        Lists tokens (itemTexts (series.flatMap fun named => ctx.entries named.1 named.2))
        ∧ ∀ draft,
            ctx.encodeData series draft
              = (draft.writeAll tokens).map fun next => (next, ctx.outcomes series) := by
  have texts : itemTexts (series.flatMap fun named => ctx.entries named.1 named.2)
      = series.flatMap fun named => itemTexts (ctx.entries named.1 named.2) := by
    simp only [itemTexts_eq_map, List.map_flatMap]
  rw [texts]
  unfold encodeData
  split
  · refine ⟨_, Lists.flatMap fun named _ => ctx.lists_splicedTokens named.1 named.2,
      fun draft => ?_⟩
    simp only [mapM_encodeAlone, bind, Except.bind, List.map_map, List.flatMap_map,
      Function.comp_def]
    generalize draft.writeAll _ = written
    cases written with
    | error misuse => rfl
    | ok next => rfl
  · refine ⟨_, Lists.flatMap fun named _ => ctx.lists_tokensAround named.1 named.2, fun draft => ?_⟩
    rw [foldlM_encodeNext, List.nil_append]

/-- A result is written as one value, whose data are tokens that list the entries of its series. -/
theorem encodeResult_eq (source : String)
    : ∃ data,
        Lists data (itemTexts (series.flatMap fun named => ctx.entries named.1 named.2))
        ∧ ctx.encodeResult source series
          = (draft .root (ctx.headTokens source ++ data
              ++ tailTokens ((ctx.outcomes series).findSome? SeriesOutcome.nameSpace))).map
                fun text => (text, ctx.outcomes series) := by
  obtain ⟨data, listed, encoded⟩ := ctx.encodeData_eq series
  refine ⟨data, listed, ?_⟩
  rw [encodeResult, draft, Draft.writeAll_append, Draft.writeAll_append]
  cases (Draft.start .root).writeAll (ctx.headTokens source) with
  | error misuse => rfl
  | ok opened =>
      simp only [bind, Except.bind, encoded]
      cases opened.writeAll data with
      | error misuse => rfl
      | ok written =>
          simp only [Except.map]
          cases written.writeAll _ <;> rfl

end EntryContext

namespace QueryResult

/-- The entry that a result makes with the identities of its series. -/
def entry (result : QueryResult) (ids : List SeriesName) (start stop : Timestamp)
    (options : Options) : SourceEntry :=
  let ctx := EntryContext.ofResult result start stop options
  { source := result.source
    grid := result.grid
    series := (ids.zip result.series).map fun (id, series) => ctx.entries id series.strands
    nameSpace := result.series.findSome? fun series => series.strands.findSome? Strand.nameSpace? }

variable (result : QueryResult) (ids : List SeriesName) (start stop : Timestamp)
  (options : Options)

/-- The series that are counted as having values are those that have entries. -/
theorem shown_entry
    : (result.entry ids start stop options).shown
      = ((EntryContext.ofResult result start stop options).outcomes
          (ids.zip (result.series.map Series.strands))).countP SeriesOutcome.wroteValues := by
  simp only [SourceEntry.shown, entry, EntryContext.outcomes, List.zip_map_right, List.countP_map,
    Function.comp_def, List.map_map, Prod.map]
  refine List.countP_congr fun named _ => ?_
  rw [EntryContext.wroteValues_outcome _ named.1]

theorem nameSpace_entry (matching : ids.length = result.series.length)
    : (result.entry ids start stop options).nameSpace
      = ((EntryContext.ofResult result start stop options).outcomes
          (ids.zip (result.series.map Series.strands))).findSome? SeriesOutcome.nameSpace := by
  have strands : (ids.zip (result.series.map Series.strands)).map Prod.snd
      = result.series.map Series.strands :=
    List.map_snd_zip (by simp [matching])
  have told (ctx : EntryContext)
      : ctx.outcomes (ids.zip (result.series.map Series.strands))
        = (result.series.map Series.strands).map ctx.outcome := by
    conv => rhs; rw [← strands, List.map_map]
    rfl
  rw [told, List.findSome?_map, List.findSome?_map]
  rfl

/-- The tokens of a result are those around its data. -/
theorem tokensAround_entry (data : List Token)
    : (EntryContext.ofResult result start stop options).headTokens result.source ++ data
        ++ EntryContext.tailTokens (result.entry ids start stop options).nameSpace
      = (result.entry ids start stop options).tokensAround data := by
  simp [EntryContext.headTokens, EntryContext.tailTokens, SourceEntry.tokensAround,
    SourceEntry.heading, SourceEntry.ending, memberTokens, tokens, Json.string, Token.string, entry,
    EntryContext.ofResult]

/-- A result with an identity for each of its series is rendered as the text of its entry, and as
many of its series count as have entries.
-/
theorem render_eq_entry (matching : ids.length = result.series.length)
    : result.render ids start stop options
      = .ok ⟨result.source, (result.entry ids start stop options).toJson.text,
          (result.entry ids start stop options).shown⟩ := by
  obtain ⟨data, hl, encoded⟩ := (EntryContext.ofResult result start stop options).encodeResult_eq
    (ids.zip (result.series.map Series.strands)) result.source
  have listed : Lists data
      (itemTexts (result.entry ids start stop options).series.flatten) := by
    simpa [entry, List.zip_map_right, List.flatMap_map, ← List.flatMap_def] using hl
  have drafted := ((result.entry ids start stop options).spells_tokensAround listed).draft_root
  rw [← tokensAround_entry, nameSpace_entry result ids start stop options matching] at drafted
  rw [drafted] at encoded
  rw [render, if_neg (not_not_intro matching), shown_entry]
  simp only [encoded, Except.map]

end QueryResult

end SeriesWire
