import SeriesWire.Delivery.Session

/-! Rendering commutes with the resolution of identities.
A result whose encoded identities a table knows is delivered as the result that carries the names
from the table in their places, and the first encoding that a table lacks fails the whole result.
-/

namespace SeriesWire

-----------------------------------------------------------------------------------------
-- Tables of encoded identities
-----------------------------------------------------------------------------------------

namespace Resolver

variable (insertions : List (EncodedId × SeriesName))

/-- The table after insertions, made in order. -/
def ofInsertions : Resolver :=
  insertions.foldl (fun table insertion => table.insert insertion.1 insertion.2) .empty

/-- What an encoding was given by the last of the insertions that are for it. -/
def lastInserted? (id : EncodedId) : Option SeriesName :=
  (insertions.reverse.find? fun insertion => insertion.1 = id).map Prod.snd

variable {insertions}

theorem get?_insert (table : Resolver) (key id : EncodedId) (name : SeriesName)
    : (table.insert key name).get? id = if key = id then some name else table.get? id := by
  by_cases same : key = id
  · subst same
    simp [insert, get?]
  · have other : (id == key) = false := by simpa using fun h => same h.symm
    simp [insert, get?, List.lookup_cons, other, same]

/-- A later insertion counts before the first one. -/
theorem lastInserted?_cons (insertion : EncodedId × SeriesName) (id : EncodedId)
    : lastInserted? (insertion :: insertions) id
      = (lastInserted? insertions id).or
          (if insertion.1 = id then some insertion.2 else none) := by
  rw [lastInserted?, List.reverse_cons, List.find?_append, Option.map_or, List.find?_singleton]
  by_cases same : insertion.1 = id
  · simp [lastInserted?, same]
  · simp [lastInserted?, same]

/-- Insertions into any table, by induction on them: what they leave alone is looked up in it. -/
theorem get?_foldl_insert (table : Resolver) (id : EncodedId)
    : (insertions.foldl (fun table insertion => table.insert insertion.1 insertion.2) table).get? id
      = (lastInserted? insertions id).or (table.get? id) := by
  induction insertions generalizing table with
  | nil => rfl
  | cons insertion rest ih =>
      rw [List.foldl_cons, ih, get?_insert, lastInserted?_cons, Option.or_assoc]
      congr 1
      split <;> rfl

/-- The last insertion for an encoding wins. -/
theorem get?_ofInsertions (id : EncodedId)
    : (ofInsertions insertions).get? id = lastInserted? insertions id :=
  (get?_foldl_insert .empty id).trans Option.or_none

theorem lastInserted?_eq_none_iff {id : EncodedId}
    : lastInserted? insertions id = none ↔ id ∉ insertions.map Prod.fst := by
  simp only [lastInserted?, Option.map_eq_none_iff, List.find?_eq_none, List.mem_reverse,
    decide_eq_true_iff, List.mem_map]
  constructor
  · rintro unmatched ⟨insertion, inserted, same⟩
    exact unmatched insertion inserted same
  · intro absent insertion inserted same
    exact absent ⟨insertion, inserted, same⟩

end Resolver

-----------------------------------------------------------------------------------------
-- Names in the places of encoded identities
-----------------------------------------------------------------------------------------

/-- The encoded identity of a series that has no readable one. -/
def Series.encoded? (series : Series) : Option EncodedId :=
  match series.id with
  | .named _ => none
  | .encoded id => some id

/-- The encoded identities of a result, in the order of its series. -/
def QueryResult.encodedIds (result : QueryResult) : List EncodedId :=
  result.series.filterMap Series.encoded?

/-- The identity with the name that insertions gave to its encoding. -/
def SeriesId.withName (insertions : List (EncodedId × SeriesName)) : SeriesId → SeriesId
  | .named name => .named name
  | .encoded id => ((Resolver.lastInserted? insertions id).map .named).getD (.encoded id)

def Series.withName (insertions : List (EncodedId × SeriesName)) (series : Series) : Series :=
  { series with id := series.id.withName insertions }

/-- The result with names in the places of the encoded identities that insertions gave a name. -/
def QueryResult.withNames (insertions : List (EncodedId × SeriesName)) (result : QueryResult)
    : QueryResult :=
  { result with series := result.series.map (Series.withName insertions) }

variable {insertions : List (EncodedId × SeriesName)}

theorem SeriesId.resolve_unknown {id : EncodedId} (unknown : id ∉ insertions.map Prod.fst)
    : (encoded id).resolve (some (.ofInsertions insertions)) = .error (.unknown id) := by
  rw [resolve, Resolver.get?_ofInsertions, Resolver.lastInserted?_eq_none_iff.mpr unknown]

namespace Series

/-- An encoding that a table knows is read as the name that stands in its place. -/
theorem exists_withName {series : Series}
    (known : ∀ id, series.encoded? = some id → id ∈ insertions.map Prod.fst)
    : ∃ name,
        series.withName insertions = ⟨.named name, series.strands⟩
        ∧ series.id.resolve (some (.ofInsertions insertions)) = .ok name := by
  cases series with
  | mk id strands =>
      cases id with
      | named name => exact ⟨name, rfl, rfl⟩
      | encoded id =>
          cases found : Resolver.lastInserted? insertions id with
          | none => exact absurd (known id rfl) (Resolver.lastInserted?_eq_none_iff.mp found)
          | some name =>
              refine ⟨name, ?_, ?_⟩
              · simp [withName, SeriesId.withName, found]
              · simp [SeriesId.resolve, Resolver.get?_ofInsertions, found]

/-- Series that a table knows have the same names with the table and with the names in its place,
by induction on the series.
-/
theorem mapM_resolve_withName {series : List Series}
    (known : ∀ one ∈ series, ∀ id, one.encoded? = some id → id ∈ insertions.map Prod.fst)
    (resolver : Option Resolver)
    : (series.map (withName insertions)).mapM (fun one => one.id.resolve resolver)
      = series.mapM fun one => one.id.resolve (some (.ofInsertions insertions)) := by
  induction series with
  | nil => rfl
  | cons first rest ih =>
      obtain ⟨firstKnown, restKnown⟩ := List.forall_mem_cons.mp known
      obtain ⟨name, renamed, resolved⟩ := exists_withName firstKnown
      rw [List.map_cons, List.mapM_cons, List.mapM_cons, ih restKnown, resolved, renamed]
      rfl

/-- The first encoding that a table lacks fails the series, whatever follows it. -/
theorem mapM_resolve_unknown {series : List Series} {id : EncodedId}
    (first : (series.filterMap encoded?).find? (fun id => id ∉ insertions.map Prod.fst) = some id)
    : series.mapM (fun one => one.id.resolve (some (.ofInsertions insertions)))
      = .error (.unknown id) := by
  induction series with
  | nil => cases first
  | cons one rest ih =>
      rw [List.mapM_cons]
      cases here : one.id with
      | named name =>
          rw [List.filterMap_cons_none (by simp [encoded?, here])] at first
          rw [ih first]
          rfl
      | encoded other =>
          rw [List.filterMap_cons_some (b := other) (by simp [encoded?, here])] at first
          by_cases known : other ∈ insertions.map Prod.fst
          · rw [List.find?_cons_of_neg (by simpa using known)] at first
            have inserted : ∀ id, one.encoded? = some id → id ∈ insertions.map Prod.fst := by
              simpa [encoded?, here] using known
            obtain ⟨name, _, resolved⟩ := exists_withName inserted
            rw [← here, resolved, ih first]
            rfl
          · rw [List.find?_cons_of_pos (by simpa using known)] at first
            cases first
            rw [SeriesId.resolve_unknown known]
            rfl

end Series

namespace QueryResult

variable {result : QueryResult}

theorem forall_encodedIds_iff {P : EncodedId → Prop}
    : (∀ id ∈ result.encodedIds, P id)
      ↔ ∀ series ∈ result.series, ∀ id, series.encoded? = some id → P id := by
  simp only [encodedIds, List.mem_filterMap]
  constructor
  · intro all series listed id encoded
    exact all id ⟨series, listed, encoded⟩
  · rintro all id ⟨series, listed, encoded⟩
    exact all series listed id encoded

theorem idForm_eq_byte_iff
    : result.idForm = .byte ↔ result.encodedIds ≠ [] := by
  have encoded (series : Series) : series.id.form = .byte ↔ ¬series.encoded? = none := by
    cases h : series.id <;> simp [SeriesId.form, Series.encoded?, h]
  simp [idForm, encodedIds, encoded]

/-- Names in the places of all encodings leave none of them. -/
theorem encodedIds_withNames (known : ∀ id ∈ result.encodedIds, id ∈ insertions.map Prod.fst)
    : (result.withNames insertions).encodedIds = [] := by
  rw [encodedIds, List.filterMap_eq_nil_iff]
  intro named member
  obtain ⟨series, listed, rfl⟩ := List.mem_map.mp member
  obtain ⟨name, renamed, _⟩ :=
    Series.exists_withName (forall_encodedIds_iff.mp known series listed)
  rw [renamed]
  rfl

/-- The names of the series are the same with the table and, with the names in place, without it. -/
theorem resolve_withNames (known : ∀ id ∈ result.encodedIds, id ∈ insertions.map Prod.fst)
    (resolver : Option Resolver)
    : (result.withNames insertions).resolve (result.withNames insertions).idForm resolver
      = result.resolve result.idForm (some (.ofInsertions insertions)) := by
  have unencoded : (result.withNames insertions).idForm ≠ .byte := by
    intro byte
    exact idForm_eq_byte_iff.mp byte (encodedIds_withNames known)
  have names := Series.mapM_resolve_withName (forall_encodedIds_iff.mp known) resolver
  rw [resolve, resolve, if_neg (by simp [unencoded]), if_neg (by simp), withNames, names]

theorem resolve_unknown {id : EncodedId}
    (first : result.encodedIds.find? (fun id => id ∉ insertions.map Prod.fst) = some id)
    : result.resolve result.idForm (some (.ofInsertions insertions))
      = .error (.resolution (.unknown id)) := by
  rw [resolve, if_neg (by simp), Series.mapM_resolve_unknown first]
  rfl

/-- Apart from the names given for its series, a rendered result does not show identities. -/
theorem render_withNames (names : List SeriesName) (start stop : Timestamp) (options : Options)
    : (result.withNames insertions).render names start stop options
      = result.render names start stop options := by
  simp only [render, withNames, List.length_map, List.map_map]
  rfl

end QueryResult

-----------------------------------------------------------------------------------------
-- Delivery
-----------------------------------------------------------------------------------------

namespace Session

variable {session : Session} {result : QueryResult}

theorem rendered_withNames (table : session.query.resolver = some (.ofInsertions insertions))
    (known : ∀ id ∈ result.encodedIds, id ∈ insertions.map Prod.fst)
    : session.rendered (result.withNames insertions) = session.rendered result := by
  have resolved := QueryResult.resolve_withNames known session.query.resolver
  simp only [rendered, resolved, ← table, QueryResult.render_withNames]

/-- Where whole results are still taken, a result that does not resolve fails with this cause. -/
theorem serialize_unresolved (taken : session.closing = false)
    (unshared : session.usedShards = false) {cause : DeliveryError}
    (failed : result.resolve result.idForm session.query.resolver = .error cause)
    : session.serialize result = (session, .error cause) := by
  have unrendered : session.rendered result = .error cause := by
    simp [rendered, taken, unshared, failed, bind, Except.bind]
  rw [serialize, unrendered]

/-- Delivering whole results commutes with the resolution of their identities. Where whole results
are still taken, a result of which the table knows all encodings is delivered as the result with the
names from the table in their places: with the same reply, the same bytes and the same stats,
however its series are rendered. If the table lacks encodings, the first series that has one of them
is the failure, and nothing is delivered. Without a table every encoding is a wrong argument.
-/
theorem serialize_withNames (session : Session) (result : QueryResult)
    (taken : session.closing = false) (unshared : session.usedShards = false)
    : (∀ insertions, session.query.resolver = some (.ofInsertions insertions) →
        ((∀ id ∈ result.encodedIds, id ∈ insertions.map Prod.fst) →
          (result.withNames insertions).encodedIds = []
          ∧ session.serialize result = session.serialize (result.withNames insertions))
        ∧ ((∃ id ∈ result.encodedIds, id ∉ insertions.map Prod.fst) →
          ∃ id,
            result.encodedIds.find? (fun id => id ∉ insertions.map Prod.fst) = some id
            ∧ session.serialize result = (session, .error (.resolution (.unknown id)))))
      ∧ (session.query.resolver = none →
          result.encodedIds ≠ [] →
          session.serialize result
            = (session, .error (.invalid (.missingResolver result.source)))) := by
  refine ⟨?_, ?_⟩
  · intro insertions table
    refine ⟨?_, ?_⟩
    · intro known
      refine ⟨QueryResult.encodedIds_withNames known, ?_⟩
      rw [serialize, serialize, rendered_withNames table known]
    · rintro ⟨missing, listed, unknown⟩
      cases first : result.encodedIds.find? (fun id => id ∉ insertions.map Prod.fst) with
      | none => exact absurd unknown (by simpa using List.find?_eq_none.mp first missing listed)
      | some id =>
          refine ⟨id, rfl, serialize_unresolved taken unshared ?_⟩
          rw [table]
          exact QueryResult.resolve_unknown first
  · intro untabled encoded
    apply serialize_unresolved taken unshared
    rw [untabled, QueryResult.resolve, if_pos ⟨QueryResult.idForm_eq_byte_iff.mpr encoded, rfl⟩]

/-- A series with a readable identity among series with encoded ones, one of them twice. -/
def blended : QueryResult where
  node := "node"
  dataSource := "ds"
  kind := .other
  grid := none
  rollup := none
  series := [.named (.ofMetric "cpu"), .encoded ⟨[1]⟩, .encoded ⟨[2]⟩, .encoded ⟨[1]⟩].map
    fun id => ⟨id, [.numeric [⟨.ofEpoch 5, some (.int 1)⟩]]⟩

/-- The first encoding is given another name at the end. -/
def relabelling : List (EncodedId × SeriesName) :=
  [(⟨[1]⟩, .ofMetric "tape"), (⟨[2]⟩, .ofMetric "mem"), (⟨[1]⟩, .ofMetric "disk")]

/-- The first ten seconds with a table, before any result. -/
def resolving (resolver : Option Resolver) : Session where
  query := ⟨.ofEpoch 0, .ofEpoch 10, .off, [], .empty, resolver⟩
  options := .standard
  document := .start .unlimited
  shards := .empty
  usedWhole := false
  usedShards := false
  closing := false
  stats := ⟨0, 0, 0, 0⟩

/-- Four series are delivered under three names, each with its number. With only the last insertion
the table lacks the encoding of the third series, and without a table the result is refused.
-/
theorem serialize_withNames_blended
    : ((blended.withNames relabelling).series.map Series.id
        = ["cpu", "disk", "mem", "disk"].map fun metric => .named (.ofMetric metric))
      ∧ (resolving (some (.ofInsertions relabelling))).serialize blended
        = (resolving (some (.ofInsertions relabelling))).serialize (blended.withNames relabelling)
      ∧ replyOf ((resolving (some (.ofInsertions relabelling))).serialize blended).2 = .done
      ∧ (let entry (metric : String) := "\x7b\"metric\":\"" ++ metric
            ++ "\",\"tags\":\x7b\x7d,\"aggregateTags\":[],\"NumericType\":\x7b\"5\":1\x7d\x7d"
        ((resolving (some (.ofInsertions relabelling))).serialize
            blended).1.document.writer.stream.accepted
          = ("\x7b\"results\":[\x7b\"source\":\"node:ds\",\"data\":["
            ++ String.intercalate "," (["cpu", "disk", "mem", "disk"].map entry) ++ "]\x7d").toUTF8)
      ∧ ((resolving (some (.ofInsertions relabelling))).serialize blended).1.stats.serialized = 4
      ∧ ((resolving (some (.ofInsertions (relabelling.drop 2)))).serialize blended).2
        = .error (.resolution (.unknown ⟨[2]⟩))
      ∧ ((resolving none).serialize blended).2
        = .error (.invalid (.missingResolver blended.source)) := by
  have whole := (serialize_withNames (resolving (some (.ofInsertions relabelling))) blended rfl
    rfl).1 relabelling rfl
  have part := (serialize_withNames (resolving (some (.ofInsertions (relabelling.drop 2)))) blended
    rfl rfl).1 (relabelling.drop 2) rfl
  have untabled := (serialize_withNames (resolving none) blended rfl rfl).2 rfl (by decide)
  obtain ⟨missing, first, failed⟩ := part.2 (by decide)
  have known : missing = ⟨[2]⟩ := Option.some.inj (first.symm.trans (by decide))
  refine ⟨by decide, (whole.1 (by decide)).2, by decide +kernel,
    Stream.eq_of_toList_eq (by decide +kernel), by decide +kernel, ?_, ?_⟩
  · rw [failed, known]
  · rw [untabled]

end Session

end SeriesWire
