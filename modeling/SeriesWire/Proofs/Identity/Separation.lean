import SeriesWire.Identity.Lookup
import SeriesWire.Proofs.Hash.Framing

/-! What the hashed bytes of an identity tell about it.
They determine the metric and the sequence of labels behind it: tags with their values, then
aggregated tags. They do not show where in this sequence the tags end, so identities that divide
the same labels differently share their bytes.
-/

namespace SeriesWire

/-- The bytes of an array from an index on, by following the loop that lists them. -/
theorem toList_loop (bytes : ByteArray) (index : Nat) (listed : List UInt8)
    : ByteArray.toList.loop bytes index listed
      = listed.reverse ++ bytes.data.toList.drop index := by
  induction index, listed using ByteArray.toList.loop.induct bytes with
  | case1 index listed inside ih =>
      have bound : index < bytes.data.toList.length := inside
      have byte : bytes.get! index = bytes.data.toList[index] :=
        getElem!_pos bytes.data index inside
      rw [ByteArray.toList.loop, if_pos inside, ih, List.drop_eq_getElem_cons bound, byte,
        List.reverse_cons, List.append_assoc, List.singleton_append]
  | case2 index listed behind =>
      have past : bytes.data.toList.length ≤ index := Nat.le_of_not_lt behind
      rw [ByteArray.toList.loop, if_neg behind, List.drop_eq_nil_of_le past, List.append_nil]

theorem toList_eq_data (bytes : ByteArray) : bytes.toList = bytes.data.toList := by
  rw [ByteArray.toList, toList_loop]
  rfl

/-- Strings with the same bytes are the same. -/
theorem eq_of_toUTF8_toList_eq {text other : String}
    (h : text.toUTF8.toList = other.toUTF8.toList)
    : text = other := by
  rw [toList_eq_data, toList_eq_data, Array.toList_inj] at h
  exact String.toByteArray_inj.mp (ByteArray.ext h)

theorem length_toUTF8_toList (text : String) : text.toUTF8.toList.length = text.utf8ByteSize := by
  rw [toList_eq_data]
  rfl

namespace SeriesName

/-- The strings behind the metric in the order in which they are hashed. -/
def labels (id : SeriesName) : List String :=
  (id.tags.entries.flatMap fun (tag, value) => [tag, value]) ++ id.aggregated

/-- Every string of the identity is shorter than `2 ^ 32` bytes. -/
def Short (id : SeriesName) : Prop :=
  ∀ part ∈ id.parts, part.utf8ByteSize < 4294967296

theorem parts_eq (id : SeriesName) : id.parts = id.metric :: id.labels :=
  rfl

variable {first second : SeriesName}

/-- The hashed bytes determine the metric and the labels, and nothing else of the identity. -/
theorem hashInput_eq_iff_parts (hf : first.Short) (hs : second.Short)
    : first.hashInput = second.hashInput
      ↔ first.metric = second.metric ∧ first.labels = second.labels := by
  have frameable {id : SeriesName} (short : id.Short)
      : ∀ part ∈ id.parts.map fun part => part.toUTF8.toList, Frameable part := by
    intro bytes member
    obtain ⟨part, known, rfl⟩ := List.mem_map.mp member
    rw [Frameable, length_toUTF8_toList]
    exact short part known
  rw [← List.cons.injEq, ← parts_eq, ← parts_eq]
  constructor
  · intro same
    have bytes := eq_of_frame_eq (frameable hf) (frameable hs) same
    exact (List.map_inj_right fun _ _ => eq_of_toUTF8_toList_eq).mp bytes
  · intro same
    rw [hashInput, hashInput, same]

/-- Pairs are read back from a list in which they stand one after the other, by induction on
them. -/
theorem eq_of_flatMap_pair_eq {pairs others : List (String × String)}
    (h : (pairs.flatMap fun (tag, value) => [tag, value])
      = others.flatMap fun (tag, value) => [tag, value])
    : pairs = others := by
  induction pairs generalizing others with
  | nil =>
      cases others with
      | nil => rfl
      | cons other rest => simp at h
  | cons pair pairs ih =>
      cases others with
      | nil => simp at h
      | cons other rest =>
          simp only [List.flatMap_cons, List.cons_append, List.nil_append, List.cons.injEq] at h
          obtain ⟨tag, value, behind⟩ := h
          rw [Prod.ext tag value, ih behind]

/-- With as many tags on both sides the labels show where the tags end. -/
theorem eq_of_labels_eq (sizes : first.tags.size = second.tags.size)
    (metric : first.metric = second.metric) (labels : first.labels = second.labels)
    : first = second := by
  have lengths : (first.tags.entries.flatMap fun (tag, value) => [tag, value]).length
      = (second.tags.entries.flatMap fun (tag, value) => [tag, value]).length := by
    have count : first.tags.entries.length = second.tags.entries.length := sizes
    simp only [List.length_flatMap, List.length_cons, List.length_nil, List.map_const', count]
  obtain ⟨tags, aggregated⟩ := List.append_inj labels lengths
  have entries := eq_of_flatMap_pair_eq tags
  obtain ⟨name, ⟨pairs, ascending⟩, others⟩ := first
  obtain ⟨_, ⟨_, _⟩, _⟩ := second
  simp only at metric aggregated entries
  subst metric aggregated entries
  rfl

/-- Two identities of short strings are hashed from different bytes exactly if they differ in the
metric or in the sequence of their labels. That is every difference between identities with as many
tags, but not every difference. As far as the hash tells the bytes apart, the same holds of the
hashes under which shards are filed.
-/
theorem hashInput_eq_iff_labels (hf : first.Short) (hs : second.Short)
    : (first.hashInput = second.hashInput
        ↔ first.metric = second.metric ∧ first.labels = second.labels)
      ∧ (first.tags.size = second.tags.size
        → first ≠ second
        → first.hashInput ≠ second.hashInput)
      ∧ ((hashKey first.hashInput = hashKey second.hashInput
          → first.hashInput = second.hashInput)
        → (first.hash = second.hash
          ↔ first.metric = second.metric ∧ first.labels = second.labels)) := by
  have read := hashInput_eq_iff_parts hf hs
  refine ⟨read, ?_, ?_⟩
  · intro sizes differ same
    obtain ⟨metric, labels⟩ := read.mp same
    exact differ (eq_of_labels_eq sizes metric labels)
  · intro separates
    constructor
    · intro same
      exact read.mp (separates same)
    · intro same
      exact congrArg hashKey (read.mpr same)

/-- A metric of one host. -/
def ofHost (host : String) : SeriesName :=
  ⟨"m", SortedMap.empty.insert "host" host, []⟩

/-- The metric over all values of two tags. -/
def overTags (first second : String) : SeriesName :=
  ⟨"m", .empty, [first, second]⟩

/-- Two hosts are told apart: they have a tag each. -/
theorem hashInput_eq_iff_labels_hosts
    : (ofHost "web01").Short
      ∧ (ofHost "web02").Short
      ∧ (ofHost "web01").tags.size = (ofHost "web02").tags.size
      ∧ ofHost "web01" ≠ ofHost "web02"
      ∧ (ofHost "web01").hashInput ≠ (ofHost "web02").hashInput := by
  have first : (ofHost "web01").Short := by unfold Short; decide
  have second : (ofHost "web02").Short := by unfold Short; decide
  have sizes : (ofHost "web01").tags.size = (ofHost "web02").tags.size := rfl
  have differ : ofHost "web01" ≠ ofHost "web02" := by decide
  exact ⟨first, second, sizes, differ, (hashInput_eq_iff_labels first second).2.1 sizes differ⟩

/-- A tag with its value and two aggregated tags are the same labels. The identities differ, but
they are hashed from the same bytes, so both are filed under one hash, and the registration of the
second hides the first.
-/
theorem hashInput_ofHost_eq_overTags
    : ofHost "web01" ≠ overTags "host" "web01"
      ∧ (ofHost "web01").Short
      ∧ (overTags "host" "web01").Short
      ∧ (ofHost "web01").hashInput = (overTags "host" "web01").hashInput
      ∧ (ofHost "web01").hash = (overTags "host" "web01").hash
      ∧ ((Registry.empty.register (ofHost "web01")).register (overTags "host" "web01")).get?
          ⟨(ofHost "web01").hash, .string⟩
        = some (overTags "host" "web01") := by
  have parts : (ofHost "web01").parts = (overTags "host" "web01").parts := rfl
  have bytes : (ofHost "web01").hashInput = (overTags "host" "web01").hashInput := by
    rw [hashInput, hashInput, parts]
  have hash : (ofHost "web01").hash = (overTags "host" "web01").hash := congrArg hashKey bytes
  refine ⟨by decide, by unfold Short; decide, by unfold Short; decide, bytes, hash, ?_⟩
  rw [hash]
  simp [Registry.register, Registry.registerAs, Registry.get?]

end SeriesName

end SeriesWire
