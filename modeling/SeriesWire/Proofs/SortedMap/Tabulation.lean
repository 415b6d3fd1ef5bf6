import Mathlib.Data.List.Dedup
import SeriesWire.SortedMap

/-! Sorted maps read as tables: the keys in ascending order, each with its value.
A map that was filled item by item holds under each key what the items of this key leave there, so
items of other keys and their order do not matter.
-/

namespace SeriesWire

variable {κ α β : Type} [Ord κ] [DecidableEq κ]

/-- The keys in ascending order, each once. -/
def inOrder (keys : List κ) : List κ :=
  keys.dedup.mergeSort fun a b => (compare a b).isLE

theorem inOrder_perm (keys : List κ) : (inOrder keys).Perm keys.dedup :=
  List.mergeSort_perm ..

theorem mem_inOrder {keys : List κ} {key : κ} : key ∈ inOrder keys ↔ key ∈ keys := by
  rw [(inOrder_perm keys).mem_iff, List.mem_dedup]

theorem nodup_inOrder (keys : List κ) : (inOrder keys).Nodup :=
  (inOrder_perm keys).nodup_iff.mpr keys.nodup_dedup

variable [Std.TransOrd κ] [Std.LawfulEqOrd κ]

/-- The keys ascend strictly: sorting orders them and none occurs twice. -/
theorem pairwise_inOrder (keys : List κ)
    : (inOrder keys).Pairwise fun a b => compare a b = .lt := by
  have total (a b : κ) : ((compare a b).isLE || (compare b a).isLE) = true := by
    rw [Std.OrientedOrd.eq_swap (a := b)]
    cases compare a b <;> rfl
  have sorted := @List.pairwise_mergeSort κ (fun a b => (compare a b).isLE)
    (fun _ _ _ => Std.TransCmp.isLE_trans) total keys.dedup
  refine (sorted.and (nodup_inOrder keys)).imp fun {a b} h => ?_
  obtain ⟨le, ne⟩ := h
  cases hc : compare a b with
  | lt => rfl
  | eq => exact absurd (Std.LawfulEqCmp.eq_of_compare hc) ne
  | gt => simp [hc] at le

omit [DecidableEq κ] [Std.LawfulEqOrd κ] in
/-- Items with strictly ascending keys are told apart by their keys. -/
theorem eq_of_key_eq (key : α → κ) {items : List α}
    (ascending : items.Pairwise fun a b => compare (key a) (key b) = .lt)
    {a b : α} (ha : a ∈ items) (hb : b ∈ items) (same : key a = key b)
    : a = b := by
  have distinct : (items.map key).Nodup :=
    List.pairwise_map.mpr (ascending.imp fun {a b} lt he => by simp [he] at lt)
  exact List.inj_on_of_nodup_map distinct ha hb same

omit [DecidableEq κ] in
theorem eq_of_ascending {keys others : List κ}
    (h : keys.Pairwise fun a b => compare a b = .lt)
    (ho : others.Pairwise fun a b => compare a b = .lt)
    (same : ∀ key, key ∈ keys ↔ key ∈ others)
    : keys = others := by
  have distinct {list : List κ} (hl : list.Pairwise fun a b => compare a b = .lt) : list.Nodup :=
    hl.imp fun {a b} lt he => by simp [he] at lt
  refine List.Perm.eq_of_pairwise (fun a b _ _ hab hba => ?_) h ho
    ((List.perm_ext_iff_of_nodup (distinct h) (distinct ho)).mpr same)
  exact absurd (Std.TransCmp.lt_trans hab hba) (by simp)

/-- The ascending list of keys is any strictly ascending list of the same keys. -/
theorem inOrder_eq {keys others : List κ} (h : others.Pairwise fun a b => compare a b = .lt)
    (same : ∀ key, key ∈ keys ↔ key ∈ others)
    : inOrder keys = others :=
  eq_of_ascending (pairwise_inOrder keys) h fun key => mem_inOrder.trans (same key)

namespace SortedMap

/-- The map that has a value under each of the keys. -/
def tabulate (keys : List κ) (value : κ → α) : SortedMap κ α where
  entries := (inOrder keys).map fun key => (key, value key)
  ascending := List.pairwise_map.mpr (pairwise_inOrder keys)

/-- A table answers exactly for its keys. -/
theorem get?_tabulate (keys : List κ) (value : κ → α) (key : κ)
    : (tabulate keys value).get? key = if key ∈ keys then some (value key) else none := by
  have found : (inOrder keys).find? (fun other => compare key other == .eq)
      = if key ∈ keys then some key else none := by
    split
    · rename_i member
      cases hf : (inOrder keys).find? (fun other => compare key other == .eq) with
      | none => simpa using List.find?_eq_none.mp hf key (mem_inOrder.mpr member)
      | some other =>
          have he := List.find?_some hf
          rw [beq_iff_eq, Std.LawfulEqCmp.compare_eq_iff_eq] at he
          rw [he]
    · rename_i absent
      refine List.find?_eq_none.mpr fun other member he => absent ?_
      rw [beq_iff_eq, Std.LawfulEqCmp.compare_eq_iff_eq] at he
      exact mem_inOrder.mp (he ▸ member)
  simp only [get?, tabulate, List.find?_map, Function.comp_def, found, Option.map_map]
  split <;> rfl

omit [DecidableEq κ] [Std.TransOrd κ] in
/-- A map answers exactly for its keys. -/
theorem mem_keys_iff {map : SortedMap κ α} {key : κ}
    : key ∈ map.keys ↔ ∃ value, map.get? key = some value := by
  have found : (map.get? key).isSome ↔ ∃ entry ∈ map.entries, key = entry.1 := by
    simp only [get?, Option.isSome_map, List.find?_isSome, beq_iff_eq,
      Std.LawfulEqCmp.compare_eq_iff_eq]
  rw [← Option.isSome_iff_exists, found, keys, List.mem_map]
  exact exists_congr fun entry => and_congr_right' eq_comm

/-- A map that answers like a table lists the entries of the table. -/
theorem eq_tabulate {map : SortedMap κ α} {keys : List κ} {value : κ → α}
    (h : ∀ key, map.get? key = if key ∈ keys then some (value key) else none)
    : map = tabulate keys value :=
  ext_get? fun key => (h key).trans (get?_tabulate keys value key).symm

theorem tabulate_congr {keys others : List κ} {value other : κ → α}
    (same : ∀ key, key ∈ keys ↔ key ∈ others) (agree : ∀ key ∈ keys, value key = other key)
    : tabulate keys value = tabulate others other := by
  refine eq_tabulate fun key => ?_
  rw [get?_tabulate]
  by_cases h : key ∈ keys
  · rw [if_pos h, if_pos ((same key).mp h), agree key h]
  · rw [if_neg h, if_neg (mt (same key).mpr h)]

/-- Under a key there is what the items of this key leave there, in their order. Witness: induction
on the items, each of which changes the value of its own key only.
-/
theorem get?_foldl_insert (key : β → κ) (update : Option α → β → α) (items : List β)
    (map : SortedMap κ α) (other : κ)
    : (items.foldl (fun map item => map.insert (key item) (update (map.get? (key item)) item))
          map).get? other
      = (items.filter fun item => key item = other).foldl
          (fun found item => some (update found item)) (map.get? other) := by
  induction items generalizing map with
  | nil => rfl
  | cons item rest ih =>
      rw [List.foldl_cons, ih, get?_insert, List.filter_cons]
      by_cases h : key item = other
      · simp [h]
      · simp [h, Ne.symm h]

end SortedMap

end SeriesWire
