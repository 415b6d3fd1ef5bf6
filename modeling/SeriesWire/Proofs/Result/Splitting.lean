import SeriesWire.Proofs.Result.SourceEntry

/-! Whether a result is rendered series by series is not seen in its text.
The threshold only decides who writes the entries of a series. Which entries those are depends on
the window, the grid and the resolution of the keys.
-/

namespace SeriesWire

open Json

/-- The options with another threshold for rendering series by series. -/
def Options.splitAbove (options : Options) (threshold : Nat) : Options :=
  { options with parallelThreshold := threshold }

/-- Both ways of rendering are chosen: a threshold of zero never splits, and one below the number
of series does.
-/
theorem Options.splits_splitAbove (options : Options) (threshold series : Nat)
    : (options.splitAbove threshold).splits series = true
      ↔ 0 < threshold ∧ threshold < series :=
  decide_eq_true_iff

namespace QueryResult

variable (result : QueryResult) (ids : List SeriesName) (start stop : Timestamp)
  (options : Options)

/-- The members that a strand adds are read from the window, the grid and the keys. -/
theorem addStrand_splitAbove (threshold : Nat) (gathering : Gathering) (strand : Strand)
    : gathering.addStrand (.ofResult result start stop (options.splitAbove threshold)) strand
      = gathering.addStrand (.ofResult result start stop options) strand := by
  cases strand with
  | numeric samples => rfl
  | summary samples => rfl
  | array samples => rfl
  | status nameSpace values => rfl
  | events values => rfl

theorem entries_splitAbove (threshold : Nat) (id : SeriesName) (strands : List Strand)
    : (EntryContext.ofResult result start stop (options.splitAbove threshold)).entries id strands
      = (EntryContext.ofResult result start stop options).entries id strands := by
  have added : Gathering.addStrand (.ofResult result start stop (options.splitAbove threshold))
      = Gathering.addStrand (.ofResult result start stop options) := by
    funext gathering strand
    exact addStrand_splitAbove result start stop options threshold gathering strand
  rw [EntryContext.entries, EntryContext.entries, Gathering.ofStrands, Gathering.ofStrands, added]

/-- The entry of a result is the same for every threshold. -/
theorem entry_splitAbove (threshold : Nat)
    : result.entry ids start stop (options.splitAbove threshold)
      = result.entry ids start stop options := by
  simp only [entry, entries_splitAbove]

/-- A result whose series are written one after the other and the same result whose series are
written each for itself and put together are the same rendered result: the same source, the text of
the same entry, and as many series as have data in it, for every threshold. That holds whatever the
series make of their strands, no entry, one or several, and whether or not one of them brings a
namespace.
-/
theorem render_splitAbove (matching : ids.length = result.series.length) (threshold : Nat)
    : result.render ids start stop (options.splitAbove threshold)
      = .ok ⟨result.source, (result.entry ids start stop options).toJson.text,
          (result.entry ids start stop options).shown⟩ := by
  rw [render_eq_entry result ids start stop (options.splitAbove threshold) matching,
    entry_splitAbove]

/-- A series behind the window, one with a single value and one with two statuses of a namespace. -/
def mixed : QueryResult where
  node := "node"
  dataSource := "ds"
  kind := .other
  grid := none
  rollup := none
  series :=
    let status (message : String) : Status := ⟨0, none, .ofEpoch 1, none, 1, message, "app"⟩
    [ ⟨.named (.ofMetric "late"), [.numeric [⟨.ofEpoch 500, some (.int 1)⟩]]⟩,
      ⟨.named (.ofMetric "cpu"), [.numeric [⟨.ofEpoch 5, some (.int 1)⟩]]⟩,
      ⟨.named (.ofMetric "health"), [.status (some "prod") [status "up", status "down"]]⟩]

/-- Three series with no entry, one entry and two entries under a namespace: the threshold two
splits them, zero does not, and the text is the same. Two series count.
-/
theorem render_splitAbove_mixed
    : (Options.standard.splitAbove 2).splits mixed.series.length = true
      ∧ (Options.standard.splitAbove 0).splits mixed.series.length = false
      ∧ let ids := [.ofMetric "late", .ofMetric "cpu", .ofMetric "health"]
        let rendered : RenderedResult :=
          { source := "node:ds"
            text := "\x7b\"source\":\"node:ds\",\"data\":["
              ++ "\x7b\"metric\":\"cpu\",\"tags\":\x7b\x7d,\"aggregateTags\":[],"
              ++ "\"NumericType\":\x7b\"5\":1\x7d\x7d,"
              ++ "\x7b\"tags\":\x7b\x7d,\"aggregateTags\":[],\"statusCode\":0,"
              ++ "\"lastUpdateTime\":1000,\"statusType\":1,\"message\":\"up\","
              ++ "\"application\":\"app\"\x7d,"
              ++ "\x7b\"tags\":\x7b\x7d,\"aggregateTags\":[],\"statusCode\":0,"
              ++ "\"lastUpdateTime\":1000,\"statusType\":1,\"message\":\"down\","
              ++ "\"application\":\"app\"\x7d"
              ++ "],\"namespace\":\"prod\"\x7d"
            series := 2 }
        mixed.render ids (.ofEpoch 0) (.ofEpoch 100) (Options.standard.splitAbove 2) = .ok rendered
        ∧ mixed.render ids (.ofEpoch 0) (.ofEpoch 100) (Options.standard.splitAbove 0)
          = .ok rendered := by
  have splits := (Options.standard.splits_splitAbove 2 mixed.series.length).mpr (by decide)
  refine ⟨splits, by decide, ?_⟩
  intro ids rendered
  have same := render_splitAbove mixed ids (.ofEpoch 0) (.ofEpoch 100) Options.standard (by decide)
  have written : (RenderedResult.mk mixed.source
      (mixed.entry ids (.ofEpoch 0) (.ofEpoch 100) .standard).toJson.text
      (mixed.entry ids (.ofEpoch 0) (.ofEpoch 100) .standard).shown) = rendered := by
    decide +kernel
  exact ⟨(same 2).trans (congrArg _ written), (same 0).trans (congrArg _ written)⟩

end QueryResult

end SeriesWire
