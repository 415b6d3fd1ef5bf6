/-! What leads a list as long as a test accepts it, and what is left behind that.
On a list in an order that agrees with the test both are filters.
-/

namespace SeriesWire

variable {α : Type} {items : List α}

/-- What leads a list depends on the test for its items only. -/
theorem takeWhile_congr {p q : α → Bool} (same : ∀ item ∈ items, p item = q item)
    : items.takeWhile p = items.takeWhile q := by
  induction items with
  | nil => rfl
  | cons item rest ih =>
      obtain ⟨here, later⟩ := List.forall_mem_cons.mp same
      rw [List.takeWhile_cons, List.takeWhile_cons, here, ih later]

theorem dropWhile_congr {p q : α → Bool} (same : ∀ item ∈ items, p item = q item)
    : items.dropWhile p = items.dropWhile q := by
  induction items with
  | nil => rfl
  | cons item rest ih =>
      obtain ⟨here, later⟩ := List.forall_mem_cons.mp same
      rw [List.dropWhile_cons, List.dropWhile_cons, here, ih later]

/-- Where earlier items are passed over if later ones are, the others are left. -/
theorem dropWhile_eq_filter {early : α → Bool}
    (sorted : items.Pairwise fun a b => early b → early a)
    : items.dropWhile early = items.filter fun item => !early item := by
  induction items with
  | nil => rfl
  | cons item rest ih =>
      have later := List.pairwise_cons.mp sorted
      cases h : early item with
      | true => simpa [List.dropWhile_cons, List.filter_cons, h] using ih later.2
      | false =>
          have kept : rest.filter (fun item => !early item) = rest := by
            refine List.filter_eq_self.mpr fun other member => ?_
            have notEarly := mt (later.1 other member) (by simp [h])
            simpa using notEarly
          simp [h, kept]

/-- Where earlier items are taken if later ones are, exactly those are taken. -/
theorem takeWhile_eq_filter {inside : α → Bool}
    (sorted : items.Pairwise fun a b => inside b → inside a)
    : items.takeWhile inside = items.filter inside := by
  induction items with
  | nil => rfl
  | cons item rest ih =>
      have later := List.pairwise_cons.mp sorted
      cases h : inside item with
      | true => simpa [List.takeWhile_cons, List.filter_cons, h] using ih later.2
      | false =>
          have none : rest.filter inside = [] := by
            refine List.filter_eq_nil_iff.mpr fun other member => ?_
            exact mt (later.1 other member) (by simp [h])
          simp [h, none]

/-- What is left begins with an item that the test rejects. -/
theorem head?_dropWhile {p : α → Bool} {item : α} (first : (items.dropWhile p).head? = some item)
    : p item = false := by
  have rejected := List.head?_dropWhile_not p items
  rwa [first] at rejected

/-- What is passed over may be taken first, if it is accepted. -/
theorem takeWhile_dropWhile_comm {early inside : α → Bool}
    (earlier : ∀ item ∈ items, early item → inside item)
    : (items.dropWhile early).takeWhile inside = (items.takeWhile inside).dropWhile early := by
  induction items with
  | nil => rfl
  | cons item rest ih =>
      obtain ⟨here, later⟩ := List.forall_mem_cons.mp earlier
      cases h : early item with
      | true => simpa [h, here h] using ih later
      | false => cases accepted : inside item <;> simp [h, accepted]

/-- Nothing that is left would be passed over, exactly if nothing that would be is behind something
that is not.
-/
theorem forall_mem_dropWhile_iff {early : α → Bool}
    : (∀ item ∈ items.dropWhile early, early item = false)
      ↔ items.Pairwise fun a b => early a = false → early b = false := by
  induction items with
  | nil => simp
  | cons item rest ih =>
      cases h : early item with
      | true => simpa [h] using ih
      | false =>
          have later (all : ∀ other ∈ rest, early other = false)
              : rest.Pairwise fun a b => early a = false → early b = false :=
            List.pairwise_of_forall_mem_list fun a _ b found _ => all b found
          simpa [h] using later

/-- Where earlier items are taken if later ones are, an item is taken by itself. -/
theorem getElem?_takeWhile {inside : α → Bool}
    (sorted : items.Pairwise fun a b => inside b → inside a) (place : Nat)
    : (items.takeWhile inside)[place]? = items[place]?.filter inside := by
  induction items generalizing place with
  | nil => rfl
  | cons item rest ih =>
      have later := List.pairwise_cons.mp sorted
      cases place with
      | zero => cases h : inside item <;> simp [h, Option.filter]
      | succ place =>
          cases h : inside item with
          | true => simpa [List.takeWhile_cons, h] using ih later.2 place
          | false =>
              rw [List.takeWhile_cons_of_neg (by simp [h])]
              symm
              apply Option.filter_eq_none_iff.mpr
              intro other found
              have earlier := later.1 other (List.mem_of_getElem? found)
              exact mt earlier (by simp [h])

end SeriesWire
