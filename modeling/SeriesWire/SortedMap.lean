/-! Finite maps as lists of entries with strictly ascending keys.
Two such maps are equal as soon as they answer every look-up alike, so a map does not remember the
order in which its entries arrived.
-/

namespace SeriesWire

/-- A finite map whose entries are listed in ascending order of their keys. -/
structure SortedMap (κ : Type) (α : Type) [Ord κ] where
  entries : List (κ × α)
  ascending : entries.Pairwise fun a b => compare a.1 b.1 = .lt

namespace SortedMap

variable {κ α β : Type} [Ord κ]

/-- Puts an entry in its place, instead of the one with the same key if there is one. -/
def insertEntry (key : κ) (value : α) : List (κ × α) → List (κ × α)
  | [] => [(key, value)]
  | entry :: rest =>
    match compare key entry.1 with
    | .lt => (key, value) :: entry :: rest
    | .eq => (key, value) :: rest
    | .gt => entry :: insertEntry key value rest

theorem mem_insertEntry {key : κ} {value : α} {entry : κ × α} {entries : List (κ × α)}
    (member : entry ∈ insertEntry key value entries)
    : entry = (key, value) ∨ entry ∈ entries := by
  induction entries with
  | nil => simpa [insertEntry] using member
  | cons head rest ih =>
      unfold insertEntry at member
      split at member
      · simpa using member
      · rcases List.mem_cons.mp member with h | h
        · exact .inl h
        · exact .inr (List.mem_cons_of_mem _ h)
      · rcases List.mem_cons.mp member with h | h
        · exact .inr (h ▸ List.mem_cons_self ..)
        · exact (ih h).imp_right (List.mem_cons_of_mem _)

/-- Insertion keeps the keys strictly ascending. -/
theorem ascending_insertEntry [Std.TransOrd κ] {entries : List (κ × α)}
    (h : entries.Pairwise fun a b => compare a.1 b.1 = .lt) (key : κ) (value : α)
    : (insertEntry key value entries).Pairwise fun a b => compare a.1 b.1 = .lt := by
  induction entries with
  | nil => simp [insertEntry]
  | cons head rest ih =>
      have hh := List.pairwise_cons.mp h
      unfold insertEntry
      split
      · rename_i hlt
        refine List.pairwise_cons.mpr ⟨fun entry member => ?_, h⟩
        rcases List.mem_cons.mp member with he | he
        · exact he ▸ hlt
        · exact Std.TransCmp.lt_trans hlt (hh.1 entry he)
      · rename_i heq
        exact List.pairwise_cons.mpr
          ⟨fun entry member => Std.TransCmp.lt_of_eq_of_lt heq (hh.1 entry member), hh.2⟩
      · rename_i hgt
        refine List.pairwise_cons.mpr ⟨fun entry member => ?_, ih hh.2⟩
        rcases mem_insertEntry member with he | he
        · exact he ▸ Std.OrientedCmp.lt_of_gt hgt
        · exact hh.1 entry he

def empty : SortedMap κ α :=
  ⟨[], .nil⟩

instance : Inhabited (SortedMap κ α) :=
  ⟨empty⟩

def insert [Std.TransOrd κ] (map : SortedMap κ α) (key : κ) (value : α) : SortedMap κ α :=
  ⟨insertEntry key value map.entries, ascending_insertEntry map.ascending key value⟩

/-- The map of a list of entries, where a later entry replaces an earlier one of its key. -/
def ofList [Std.TransOrd κ] (entries : List (κ × α)) : SortedMap κ α :=
  entries.foldl (fun map entry => map.insert entry.1 entry.2) empty

def get? (map : SortedMap κ α) (key : κ) : Option α :=
  (map.entries.find? fun entry => compare key entry.1 == .eq).map Prod.snd

def keys (map : SortedMap κ α) : List κ :=
  map.entries.map Prod.fst

def values (map : SortedMap κ α) : List α :=
  map.entries.map Prod.snd

def isEmpty (map : SortedMap κ α) : Bool :=
  map.entries.isEmpty

def size (map : SortedMap κ α) : Nat :=
  map.entries.length

/-- The map without its least `count` entries. -/
def drop (map : SortedMap κ α) (count : Nat) : SortedMap κ α :=
  ⟨map.entries.drop count, map.ascending.sublist (List.drop_sublist ..)⟩

instance [DecidableEq κ] [DecidableEq α] : DecidableEq (SortedMap κ α) := fun a b =>
  if h : a.entries = b.entries then
    .isTrue (by cases a; cases b; cases h; rfl)
  else .isFalse fun he => h (congrArg entries he)

/-- Look-up after an insertion, entry by entry. -/
theorem find?_insertEntry [Std.TransOrd κ] [Std.LawfulEqOrd κ] [DecidableEq κ] (key other : κ)
    (value : α) (entries : List (κ × α))
    : ((insertEntry key value entries).find? fun entry => compare other entry.1 == .eq).map Prod.snd
      = if other = key then some value
        else (entries.find? fun entry => compare other entry.1 == .eq).map Prod.snd := by
  induction entries with
  | nil =>
      by_cases h : other = key
      · subst h; simp [insertEntry]
      · simp [insertEntry, h, Std.LawfulEqCmp.compare_eq_iff_eq]
  | cons head rest ih =>
      by_cases h : other = key
      · subst h
        unfold insertEntry
        split
        · simp
        · simp
        · rename_i hgt
          simp only [↓reduceIte] at ih ⊢
          rw [List.find?_cons_of_neg (by simp [hgt])]
          exact ih
      · have hne : (compare other key == .eq) = false := by
          simpa [Std.LawfulEqCmp.compare_eq_iff_eq] using h
        simp only [h, ↓reduceIte] at ih ⊢
        unfold insertEntry
        split
        · simp [List.find?_cons, hne]
        · rename_i heq
          have he : key = head.1 := Std.LawfulEqCmp.eq_of_compare heq
          simp [← he, hne]
        · simp only [List.find?_cons]
          split
          · rfl
          · exact ih

theorem get?_insert [Std.TransOrd κ] [Std.LawfulEqOrd κ] [DecidableEq κ] (map : SortedMap κ α)
    (key other : κ) (value : α)
    : (map.insert key value).get? other = if other = key then some value else map.get? other := by
  unfold get? insert
  rw [find?_insertEntry]

/-- The first key of an ascending list is below every other key. -/
theorem find?_eq_none_of_lt [Std.TransOrd κ] {key : κ} {entries : List (κ × α)}
    (h : ∀ entry ∈ entries, compare key entry.1 = .lt)
    : entries.find? (fun entry => compare key entry.1 == .eq) = none := by
  refine List.find?_eq_none.mpr fun entry member => ?_
  simp [h entry member]

/-- Maps that answer every look-up alike list the same entries. -/
theorem ext_get? [Std.TransOrd κ] [Std.LawfulEqOrd κ] {a b : SortedMap κ α}
    (h : ∀ key, a.get? key = b.get? key)
    : a = b := by
  obtain ⟨xs, hx⟩ := a
  obtain ⟨ys, hy⟩ := b
  simp only [get?] at h
  congr
  induction xs generalizing ys with
  | nil =>
      cases ys with
      | nil => rfl
      | cons y ys => simpa using h y.1
  | cons x xs ih =>
      have hx' := List.pairwise_cons.mp hx
      cases ys with
      | nil => simpa using h x.1
      | cons y ys =>
          have hy' := List.pairwise_cons.mp hy
          have missing {p q : κ × α} {zs : List (κ × α)}
              (hz : ∀ z ∈ zs, compare q.1 z.1 = .lt) (hpq : compare p.1 q.1 = .lt)
              : (q :: zs).find? (fun z => compare p.1 z.1 == .eq) = none :=
            find?_eq_none_of_lt fun z member =>
              (List.mem_cons.mp member).elim (fun he => he ▸ hpq)
                fun hm => Std.TransCmp.lt_trans hpq (hz z hm)
          have first : x = y := by
            have hxk := h x.1
            have hyk := h y.1
            match hc : compare x.1 y.1 with
            | .lt => simp [missing hy'.1 hc] at hxk
            | .gt => simp [missing hx'.1 (Std.OrientedCmp.lt_of_gt hc)] at hyk
            | .eq =>
                have he : x.1 = y.1 := Std.LawfulEqCmp.eq_of_compare hc
                rw [he] at hxk
                simp [he] at hxk
                exact Prod.ext he hxk
          subst first
          congr 1
          refine ih hx'.2 ys hy'.2 fun key => ?_
          have hk := h key
          by_cases hkey : key = x.1
          · subst hkey
            rw [find?_eq_none_of_lt hx'.1, find?_eq_none_of_lt hy'.1]
          · have hne : (compare key x.1 == .eq) = false := by
              simpa [Std.LawfulEqCmp.compare_eq_iff_eq] using hkey
            simpa [List.find?_cons, hne] using hk

end SortedMap

end SeriesWire
