import SeriesWire.Hash.Key

/-! Framed parts can be told from one another.
The length in front of a part says where it ends, so a frame determines its parts one by one, as
long as their lengths fit the four bytes that are kept of them. Sequences of such parts share a hash
only where the hash of byte strings fails to tell their frames apart.
-/

namespace SeriesWire

/-- The length of a part is kept in full. -/
def Frameable (part : List UInt8) : Prop :=
  part.length < 4294967296

theorem length_lengthBytes (length : Nat) : (lengthBytes length).length = 4 :=
  rfl

/-- Four bytes tell lengths apart modulo `2 ^ 32`, by reading them as digits. -/
theorem lengthBytes_eq_iff {first second : Nat}
    : lengthBytes first = lengthBytes second ↔ first % 4294967296 = second % 4294967296 := by
  simp only [lengthBytes, List.map_cons, List.map_nil, List.cons.injEq, and_true,
    ← UInt8.toNat_inj, UInt8.toNat_ofNat', Nat.shiftRight_eq_div_pow]
  omega

theorem eq_of_lengthBytes_eq {first second : Nat} (hf : first < 4294967296)
    (hs : second < 4294967296) (h : lengthBytes first = lengthBytes second)
    : first = second := by
  have same := lengthBytes_eq_iff.mp h
  omega

/-- What follows a part is told from the part. -/
theorem eq_of_framePart_append_eq {part other more rest : List UInt8} (hp : Frameable part)
    (ho : Frameable other) (h : framePart part ++ more = framePart other ++ rest)
    : part = other ∧ more = rest := by
  rw [framePart, framePart, List.append_assoc, List.append_assoc] at h
  obtain ⟨lengths, behind⟩ := List.append_inj h rfl
  exact List.append_inj behind (eq_of_lengthBytes_eq hp ho lengths)

theorem framePart_ne_nil (part : List UInt8) : framePart part ≠ [] := by
  intro empty
  have none := congrArg List.length empty
  simp [framePart, length_lengthBytes] at none

-----------------------------------------------------------------------------------------
-- Sequences of parts
-----------------------------------------------------------------------------------------

theorem frame_append (parts rest : List (List UInt8))
    : frame (parts ++ rest) = frame parts ++ frame rest :=
  List.flatMap_append

/-- Nothing but the frame of further parts follows a frame inside of a frame, by induction on the
parts in front.
-/
theorem exists_rest_of_frame_append_eq {parts others : List (List UInt8)} {more : List UInt8}
    (hp : ∀ part ∈ parts, Frameable part) (ho : ∀ part ∈ others, Frameable part)
    (h : frame parts ++ more = frame others)
    : ∃ rest, others = parts ++ rest ∧ more = frame rest := by
  induction parts generalizing others with
  | nil => exact ⟨others, rfl, h⟩
  | cons part parts ih =>
      cases others with
      | nil =>
          have empty := (List.append_eq_nil_iff.mp (List.append_eq_nil_iff.mp h).1).1
          exact (framePart_ne_nil part empty).elim
      | cons other others =>
          have known : Frameable part := hp part (by simp)
          have meant : Frameable other := ho other (by simp)
          rw [frame, List.flatMap_cons, List.append_assoc] at h
          obtain ⟨rfl, behind⟩ := eq_of_framePart_append_eq known meant h
          obtain ⟨rest, rfl, rfl⟩ := ih (fun one member => hp one (by simp [member]))
            (fun one member => ho one (by simp [member])) behind
          exact ⟨rest, rfl, rfl⟩

theorem eq_nil_of_frame_eq_nil {parts : List (List UInt8)} (h : frame parts = []) : parts = [] := by
  cases parts with
  | nil => rfl
  | cons part parts => exact (framePart_ne_nil part (List.append_eq_nil_iff.mp h).1).elim

/-- A frame begins with another exactly if its parts begin with the parts of the other. -/
theorem frame_prefix_iff {parts others : List (List UInt8)} (hp : ∀ part ∈ parts, Frameable part)
    (ho : ∀ part ∈ others, Frameable part)
    : frame parts <+: frame others ↔ parts <+: others := by
  constructor
  · rintro ⟨more, h⟩
    obtain ⟨rest, rfl, -⟩ := exists_rest_of_frame_append_eq hp ho h
    exact List.prefix_append parts rest
  · rintro ⟨rest, rfl⟩
    rw [frame_append]
    exact List.prefix_append (frame parts) (frame rest)

/-- A frame determines its parts, since none are left behind them. -/
theorem eq_of_frame_eq {parts others : List (List UInt8)} (hp : ∀ part ∈ parts, Frameable part)
    (ho : ∀ part ∈ others, Frameable part) (h : frame parts = frame others)
    : parts = others := by
  rw [← List.append_nil (frame parts)] at h
  obtain ⟨rest, rfl, behind⟩ := exists_rest_of_frame_append_eq hp ho h
  rw [eq_nil_of_frame_eq_nil behind.symm, List.append_nil]

/-- The lengths have to be kept: a part of zeros whose length is lost in full looks like as many
empty parts as its bytes have room for.
-/
theorem frame_zeros {count : Nat} (lost : 4 * count % 4294967296 = 0)
    : frame [List.replicate (4 * count) 0] = frame (List.replicate (count + 1) []) := by
  have empty : framePart [] = List.replicate 4 0 := rfl
  have length : lengthBytes (4 * count) = lengthBytes 0 := lengthBytes_eq_iff.mpr lost
  have zeros : framePart (List.replicate (4 * count) 0) = List.replicate (4 + 4 * count) 0 := by
    rw [framePart, List.length_replicate, length, ← List.replicate_append_replicate]
    rfl
  rw [frame, List.flatMap_singleton, zeros, frame, List.flatMap_replicate, empty,
    List.flatten_replicate_replicate]
  congr 1
  omega

-----------------------------------------------------------------------------------------
-- Collisions
-----------------------------------------------------------------------------------------

/-- Two byte strings that the hash of byte strings does not tell apart. -/
structure Collide (first second : List UInt8) : Prop where
  differ : first ≠ second
  sameKey : hashKey first = hashKey second

/-- Different sequences of byte strings are framed differently, and one frame begins with another
only where the sequences do. So the sequences have one hash only if they are the same or if their
frames collide.
-/
theorem hashParts_eq_iff {parts others : List (List UInt8)}
    (hp : ∀ part ∈ parts, Frameable part) (ho : ∀ part ∈ others, Frameable part)
    : (parts ≠ others → frame parts ≠ frame others)
      ∧ (frame parts <+: frame others ↔ parts <+: others)
      ∧ (hashParts parts = hashParts others
        ↔ parts = others ∨ Collide (frame parts) (frame others)) := by
  have separate : parts ≠ others → frame parts ≠ frame others := mt (eq_of_frame_eq hp ho)
  refine ⟨separate, frame_prefix_iff hp ho, ?_⟩
  constructor
  · intro sameKey
    by_cases same : parts = others
    · exact Or.inl same
    · exact Or.inr ⟨separate same, sameKey⟩
  · intro h
    rcases h with rfl | collision
    · rfl
    · exact collision.sameKey

/-- A part that looks like a frame is not taken for the parts of this frame. A part of `2 ^ 32`
zeros is taken for empty parts, but it is too long.
-/
theorem hashParts_eq_iff_lookalike
    : (∀ part ∈ [[0, 0, 0, 1, 97]], Frameable part)
      ∧ (∀ part ∈ [[0, 0, 0, 1], [97]], Frameable part)
      ∧ [[0, 0, 0, 1, 97]] ≠ ([[0, 0, 0, 1], [97]] : List (List UInt8))
      ∧ frame [[0, 0, 0, 1, 97]] ≠ frame [[0, 0, 0, 1], [97]]
      ∧ (hashParts [[0, 0, 0, 1, 97]] = hashParts [[0, 0, 0, 1], [97]]
        ↔ [[0, 0, 0, 1, 97]] = ([[0, 0, 0, 1], [97]] : List (List UInt8))
          ∨ Collide (frame [[0, 0, 0, 1, 97]]) (frame [[0, 0, 0, 1], [97]]))
      ∧ ¬Frameable (List.replicate 4294967296 0)
      ∧ frame [List.replicate 4294967296 0] = frame (List.replicate 1073741825 []) := by
  have whole : ∀ part ∈ [[0, 0, 0, 1, 97]], Frameable part := by simp [Frameable]
  have cut : ∀ part ∈ [[0, 0, 0, 1], [97]], Frameable part := by simp [Frameable]
  have differ : [[0, 0, 0, 1, 97]] ≠ ([[0, 0, 0, 1], [97]] : List (List UInt8)) := by decide
  have long : ¬Frameable (List.replicate 4294967296 0) := by
    rw [Frameable, List.length_replicate]
    decide
  obtain ⟨separate, -, keys⟩ := hashParts_eq_iff whole cut
  exact ⟨whole, cut, differ, separate differ, keys, long, @frame_zeros 1073741824 rfl⟩

end SeriesWire
