import SeriesWire.Proofs.Shard.Ledger

/-! The table of a ledger, source by source and hash by hash.
Filing nests three insertions. Each level only looks at the shards of its own key, so the table is
determined by the filings of every slot.
-/

namespace SeriesWire

/-- Once there is a value, every item updates it, by induction on the items. -/
theorem foldl_update_some {α β : Type} (update : Option α → β → α) (items : List β) (value : α)
    : items.foldl (fun found item => some (update found item)) (some value)
      = some (items.foldl (fun value item => update (some value) item) value) := by
  induction items generalizing value with
  | nil => rfl
  | cons item rest ih => exact ih _

/-- Where nothing is remembered the last item decides. -/
theorem foldl_overwrite {α β : Type} (value : β → α) (items : List β)
    : items.foldl (fun _ item => some (value item)) none = items.getLast?.map value := by
  cases items with
  | nil => rfl
  | cons item rest =>
      induction rest generalizing item with
      | nil => rfl
      | cons next rest ih => simpa [List.getLast?_cons_cons] using ih next

namespace Filing

def fragment (filing : Filing) : String :=
  ShardTable.fragment filing.records

/-- The shelves of a source with a further fragment. -/
def addTo (shelves : SortedMap UInt64 Shelf) (filing : Filing) : SortedMap UInt64 Shelf :=
  shelves.insert filing.key.hash
    (((shelves.get? filing.key.hash).getD (.empty filing.key)).add filing.start filing.fragment)

end Filing

namespace Ledger

/-- Filing touches the shelves of one source, by induction on the filings. -/
theorem sources_foldl_file (filings : Ledger) (table : ShardTable)
    : (filings.foldl (fun table filing =>
          table.file filing.offer.shard (ShardTable.fragment filing.records)) table).sources
      = filings.foldl (fun sources filing =>
          sources.insert filing.source
            (Filing.addTo ((sources.get? filing.source).getD .empty) filing)) table.sources := by
  induction filings generalizing table with
  | nil => rfl
  | cons filing rest ih => exact ih _

/-- The fragments of filings on one shelf, by induction on the filings. -/
theorem fragments_foldl_add (filings : Ledger) (shelf : Shelf)
    : (filings.foldl (fun shelf filing => shelf.add filing.start filing.fragment) shelf).fragments
      = filings.foldl (fun fragments filing => fragments.insert filing.start filing.fragment)
          shelf.fragments := by
  induction filings generalizing shelf with
  | nil => rfl
  | cons filing rest ih => exact ih _

theorem key_foldl_add (filings : Ledger) (shelf : Shelf)
    : (filings.foldl (fun shelf filing => shelf.add filing.start filing.fragment) shelf).key
      = shelf.key := by
  induction filings generalizing shelf with
  | nil => rfl
  | cons filing rest ih => exact ih _

/-- Filings of one slot, put on an empty shelf one after the other. -/
def shelve (filings : Ledger) (key : HashKey) : Shelf :=
  filings.foldl (fun shelf filing => shelf.add filing.start filing.fragment) (.empty key)

/-- A shelf keeps the last fragment of every start. -/
theorem get?_fragments_shelve (filings : Ledger) (key : HashKey) (start : Timestamp)
    : (shelve filings key).fragments.get? start
      = (filings.filter fun filing => filing.start = start).getLast?.map Filing.fragment := by
  rw [shelve, fragments_foldl_add,
    SortedMap.get?_foldl_insert Filing.start fun _ filing => filing.fragment]
  exact foldl_overwrite Filing.fragment _

/-- There is a last filing for exactly the starts that occur in the slot. -/
theorem mem_starts_iff {ledger : Ledger} {slot : String × UInt64} {start : Timestamp}
    : start ∈ ledger.starts slot ↔ ∃ last, (ledger.ofStart slot start).getLast? = some last := by
  rw [starts, mem_inOrder, List.mem_map]
  constructor
  · rintro ⟨filing, member, rfl⟩
    have found : filing ∈ ledger.ofStart slot filing.start := by simp [ofStart, member]
    exact Option.ne_none_iff_exists'.mp
      (mt List.getLast?_eq_none_iff.mp (List.ne_nil_of_mem found))
  · rintro ⟨last, h⟩
    have found := List.mem_filter.mp (List.mem_of_getLast? h)
    exact ⟨last, found.1, by simpa using found.2⟩

theorem recordsAt_of_last {ledger : Ledger} {slot : String × UInt64} {start : Timestamp}
    {last : Filing} (h : (ledger.ofStart slot start).getLast? = some last)
    : ledger.recordsAt slot start = last.records := by
  rw [recordsAt, h]
  rfl

/-- Among the filings of a slot there is a last one for exactly the starts that occur. -/
theorem fragment_recordsAt (ledger : Ledger) (slot : String × UInt64) (start : Timestamp)
    : (ledger.ofStart slot start).getLast?.map Filing.fragment
      = if start ∈ (ledger.ofSlot slot).map Filing.start then
          some (ShardTable.fragment (ledger.recordsAt slot start))
        else none := by
  have occurs : start ∈ (ledger.ofSlot slot).map Filing.start ↔ start ∈ ledger.starts slot :=
    mem_inOrder.symm
  simp only [occurs]
  split
  · rename_i present
    obtain ⟨last, h⟩ := mem_starts_iff.mp present
    rw [h, recordsAt_of_last h]
    rfl
  · rename_i absent
    rw [mem_starts_iff, not_exists] at absent
    rw [Option.eq_none_iff_forall_ne_some.mpr absent]
    rfl

/-- The shelf of a slot holds the last fragment of every start, under the key of the first shard. -/
theorem shelve_ofSlot (ledger : Ledger) (slot : String × UInt64) {first : Filing} {rest : Ledger}
    (h : ledger.ofSlot slot = first :: rest)
    : shelve (ledger.ofSlot slot) first.key = ledger.shelf slot := by
  have key : (shelve (ledger.ofSlot slot) first.key).key = (ledger.shelf slot).key := by
    rw [shelve, key_foldl_add, shelf, Ledger.key, h]
    rfl
  have fragments : (shelve (ledger.ofSlot slot) first.key).fragments
      = (ledger.shelf slot).fragments := by
    refine SortedMap.eq_tabulate fun start => ?_
    rw [get?_fragments_shelve, ← fragment_recordsAt, ofStart]
  exact congrArg₂ Shelf.mk key fragments

def shelves (ledger : Ledger) (source : String) : SortedMap UInt64 Shelf :=
  .tabulate ((ledger.filter fun filing => filing.source = source).map fun filing =>
    filing.key.hash) fun hash => ledger.shelf (source, hash)

theorem mem_hashes_iff {ledger : Ledger} {source : String} {hash : UInt64}
    : hash ∈ ((ledger.filter fun filing => filing.source = source).map fun filing =>
          filing.key.hash)
      ↔ (source, hash) ∈ ledger.map Filing.slot := by
  simp [Filing.slot, and_assoc]

/-- A slot is empty unless a shard was filed there. -/
theorem ofSlot_eq_nil_iff {ledger : Ledger} {slot : String × UInt64}
    : ledger.ofSlot slot = [] ↔ slot ∉ ledger.map Filing.slot := by
  simp [ofSlot, List.filter_eq_nil_iff]

/-- The filings of a slot are those of its source that have its hash. -/
theorem filter_source_hash (ledger : Ledger) (source : String) (hash : UInt64)
    : (ledger.filter fun filing => filing.source = source).filter
          (fun filing => filing.key.hash = hash)
      = ledger.ofSlot (source, hash) := by
  rw [List.filter_filter, ofSlot]
  refine List.filter_congr fun filing _ => ?_
  simp [Filing.slot, and_comm]

/-- The shelves of a source come from its own filings. -/
theorem foldl_addTo (ledger : Ledger) (source : String)
    : (ledger.filter fun filing => filing.source = source).foldl Filing.addTo SortedMap.empty
      = ledger.shelves source := by
  refine SortedMap.eq_tabulate fun hash => ?_
  refine (SortedMap.get?_foldl_insert (fun filing : Filing => filing.key.hash)
    (fun found filing => (found.getD (Shelf.empty filing.key)).add filing.start filing.fragment)
    (ledger.filter fun filing => filing.source = source) .empty hash).trans ?_
  rw [filter_source_hash]
  cases h : ledger.ofSlot (source, hash) with
  | nil => rw [if_neg (mem_hashes_iff.not.mpr (ofSlot_eq_nil_iff.mp h))]; rfl
  | cons first rest =>
      -- The first filing makes the shelf, under its own key; the others only add to it.
      have present : (source, hash) ∈ ledger.map Filing.slot := by
        rw [← not_not (a := (source, hash) ∈ ledger.map Filing.slot), ← ofSlot_eq_nil_iff, h]
        simp
      rw [if_pos (mem_hashes_iff.mpr present), ← shelve_ofSlot ledger (source, hash) h, h]
      exact foldl_update_some _ rest _

/-- The table of a ledger lists its sources, and for each source the shelves of its slots. -/
theorem table_eq (ledger : Ledger)
    : ledger.table = ⟨.tabulate (ledger.map Filing.source) ledger.shelves⟩ := by
  refine congrArg ShardTable.mk (SortedMap.eq_tabulate fun source => ?_)
  rw [sources_foldl_file]
  refine (SortedMap.get?_foldl_insert Filing.source
    (fun found filing => Filing.addTo (found.getD SortedMap.empty) filing) ledger .empty
    source).trans ?_
  rw [← foldl_addTo]
  cases h : ledger.filter fun filing => filing.source = source with
  | nil =>
      have absent : source ∉ ledger.map Filing.source := by
        simpa [List.filter_eq_nil_iff] using h
      rw [if_neg absent]
      rfl
  | cons first rest =>
      have found : first ∈ ledger ∧ first.source = source := by
        have member : first ∈ ledger.filter fun filing => filing.source = source := by simp [h]
        simpa using member
      rw [if_pos (List.mem_map.mpr ⟨first, found⟩)]
      exact foldl_update_some _ rest _

end Ledger

end SeriesWire
