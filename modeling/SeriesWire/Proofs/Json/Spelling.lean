import SeriesWire.Json.Writer
import SeriesWire.Json.Written
import SeriesWire.Proofs.Success

/-! What tokens write, apart from the text before them and from the stream.
A stream that never breaks accepts exactly this text. Tokens that spell a text may stand for any
other tokens that spell it, so values written elsewhere can be read as trees.
-/

namespace SeriesWire.Json

-----------------------------------------------------------------------------------------
-- Tokens between two cursors
-----------------------------------------------------------------------------------------

/-- The tokens are all in place at `c`, write `text`, and leave the cursor at `next`. -/
def Writes (c : Cursor) (tokens : List Token) (text : String) (next : Cursor) : Prop :=
  (Draft.start c).writeAll tokens = .ok ⟨text, next⟩

/-- The text that a draft already has stays in front, by induction on the tokens. -/
theorem Draft.writeAll_eq_map_start (text : String) (c : Cursor) (tokens : List Token)
    : (Draft.mk text c).writeAll tokens
      = ((Draft.start c).writeAll tokens).map fun added =>
          ⟨text ++ added.text, added.cursor⟩ := by
  induction tokens generalizing text c with
  | nil => simp [Draft.writeAll, Draft.start, Except.map]
  | cons token rest ih =>
      simp only [Draft.writeAll, Draft.write, Draft.start]
      cases c.plan token with
      | error misuse => rfl
      | ok p =>
          simp only [Except.map, String.empty_append]
          rw [ih (text ++ p.text), ih p.text]
          cases (Draft.start p.landing).writeAll rest with
          | error misuse => rfl
          | ok added => simp [Except.map, String.append_assoc]

theorem Plan.text_still (landing : Cursor) : (Plan.mk [] landing).text = "" :=
  rfl

theorem Plan.landing_andWrite (p : Plan) (text : String)
    : (p.andWrite text).landing = p.landing :=
  rfl

theorem Cursor.landing_advance (c : Cursor) (scope : Scope) (outer : List Scope)
    : (c.advance scope outer).landing = ⟨⟨scope.kind, scope.count + 1⟩ :: outer, c.pending⟩ :=
  rfl

theorem Writes.nil (c : Cursor) : Writes c [] "" c :=
  rfl

theorem Writes.single {c : Cursor} {token : Token} {p : Plan} (h : c.plan token = .ok p)
    : Writes c [token] p.text p.landing := by
  simp [Writes, Draft.writeAll, Draft.write, Draft.start, h, Except.map]

/-- Tokens written one list after the other write their texts one after the other. -/
theorem Writes.append {c middle next : Cursor} {first second : List Token} {text more : String}
    (h : Writes c first text middle) (hm : Writes middle second more next)
    : Writes c (first ++ second) (text ++ more) next := by
  unfold Writes at h hm ⊢
  rw [Draft.writeAll_append, h]
  simp [Except.bind, Draft.writeAll_eq_map_start text middle, hm, Except.map]

theorem Writes.cons {c next : Cursor} {token : Token} {rest : List Token} {p : Plan}
    {more : String} (h : c.plan token = .ok p) (hr : Writes p.landing rest more next)
    : Writes c (token :: rest) (p.text ++ more) next :=
  (Writes.single h).append hr

/-- The first of several tokens is in place, and then the others are. -/
theorem Writes.uncons {c next : Cursor} {token : Token} {rest : List Token} {text : String}
    (h : Writes c (token :: rest) text next)
    : ∃ p more,
        c.plan token = .ok p ∧ Writes p.landing rest more next ∧ text = p.text ++ more := by
  simp only [Writes, Draft.writeAll, Draft.write, Draft.start] at h
  cases planned : c.plan token with
  | error misuse => simp [planned, Except.map] at h
  | ok p =>
      simp only [planned, Except.map, String.empty_append] at h
      rw [Draft.writeAll_eq_map_start] at h
      cases later : (Draft.start p.landing).writeAll rest with
      | error misuse => simp [later, Except.map] at h
      | ok added =>
          simp only [later, Except.map, Except.ok.injEq, Draft.mk.injEq] at h
          obtain ⟨rfl, rfl⟩ := h
          exact ⟨p, added.text, rfl, later, rfl⟩

/-- The brace that opens an object is written. -/
theorem Writes.ne_empty_of_openObject {c next : Cursor} {rest : List Token} {text : String}
    (writes : Writes c (.openObject :: rest) text next)
    : text ≠ "" := by
  obtain ⟨p, more, planned, _, rfl⟩ := writes.uncons
  obtain ⟨before, _, rfl⟩ := map_eq_ok_iff.mp planned
  simp [Plan.text_landAt, Plan.text_andWrite]

end SeriesWire.Json

-----------------------------------------------------------------------------------------
-- Streams that never break
-----------------------------------------------------------------------------------------

namespace SeriesWire

def Stream.extend (stream : Stream) (text : String) : Stream :=
  { stream with accepted := stream.accepted ++ text.toUTF8 }

@[simp]
theorem Stream.extend_empty (stream : Stream) : stream.extend "" = stream := by
  simp [Stream.extend]

/-- Extending twice is extending by both texts. -/
theorem Stream.extend_append (stream : Stream) (text more : String)
    : stream.extend (text ++ more) = (stream.extend text).extend more := by
  simp [Stream.extend, ByteArray.append_assoc]

theorem Stream.offer_unlimited {stream : Stream} (h : stream.room = none) (text : String)
    : stream.offer text = (stream.extend text, true) := by
  simp [Stream.offer, Stream.extend, h]

namespace Json

/-- On a stream without a limit all pieces are accepted, by induction on the pieces. -/
theorem Writer.carryOut_unlimited (writer : Writer) (h : writer.stream.room = none)
    (landing : Cursor) (pieces : List Piece)
    : writer.carryOut landing pieces
      = (⟨writer.stream.extend (String.join (pieces.map Piece.text)), landing⟩, .ok ()) := by
  induction pieces generalizing writer with
  | nil => simp [Writer.carryOut]
  | cons piece rest ih =>
      rw [Writer.carryOut, Stream.offer_unlimited h]
      simp only
      rw [ih ⟨writer.stream.extend piece.text, writer.cursor⟩ h]
      simp [Stream.extend_append]

theorem Writer.write_unlimited {writer : Writer} {token : Token} {p : Plan}
    (h : writer.cursor.plan token = .ok p) (unlimited : writer.stream.room = none)
    : writer.write token = (⟨writer.stream.extend p.text, p.landing⟩, .ok ()) := by
  rw [Writer.write, h]
  exact Writer.carryOut_unlimited writer unlimited p.landing p.pieces

theorem Writer.flush_unlimited {writer : Writer} (unlimited : writer.stream.room = none)
    : writer.flush = .ok () := by
  simp [Writer.flush, Stream.flushes, unlimited]

/-- Tokens that write a text in memory write it to a stream without a limit. Witness: induction on
the tokens, whose plans the stream accepts in full. -/
theorem Writes.writeAll {writer : Writer} {tokens : List Token} {text : String} {next : Cursor}
    (h : Writes writer.cursor tokens text next) (unlimited : writer.stream.room = none)
    : writer.writeAll tokens = (⟨writer.stream.extend text, next⟩, .ok ()) := by
  induction tokens generalizing writer text with
  | nil =>
      simp only [Writes, Draft.writeAll, Draft.start, Except.ok.injEq, Draft.mk.injEq] at h
      simp [Writer.writeAll, ← h.1, ← h.2]
  | cons token rest ih =>
      obtain ⟨p, more, planned, later, rfl⟩ := h.uncons
      have behind := @ih ⟨writer.stream.extend p.text, p.landing⟩ more later unlimited
      simp only [Writer.writeAll, Writer.write_unlimited planned unlimited, behind,
        Stream.extend_append]

-----------------------------------------------------------------------------------------
-- Tokens that spell a value, and tokens that list values
-----------------------------------------------------------------------------------------

/-- The tokens write `text` wherever a value may stand, and leave the cursor behind one value. -/
def Spells (tokens : List Token) (text : String) : Prop :=
  ∀ c p,
    c.beforeValue = .ok p
    → p.landing.pending = false
    → Writes c tokens (p.text ++ text) p.landing

/-- The tokens write `texts` as items of the innermost array, separated by commas. The items may be
counted one by one or several at once: only an empty array is told from others. -/
def Lists (tokens : List Token) (texts : List String) : Prop :=
  ∀ outer count,
    ∃ next,
      (next = 0 ↔ count = 0 ∧ texts = [])
      ∧ Writes ⟨⟨.array, count⟩ :: outer, false⟩ tokens (separated count texts)
          ⟨⟨.array, next⟩ :: outer, false⟩

/-- The items of a tree are written each for itself. -/
theorem itemTexts_eq_map (items : List Json) : itemTexts items = items.map text := by
  induction items with
  | nil => rfl
  | cons item rest ih => rw [itemTexts, ih, List.map_cons]

/-- The members of a tree are written each for itself. -/
theorem memberTexts_eq_map (members : List (String × Json))
    : memberTexts members
      = members.map fun member => quoted member.1 ++ ":" ++ member.2.text := by
  induction members with
  | nil => rfl
  | cons member rest ih => rw [memberTexts, ih, List.map_cons]

theorem memberTexts_append (members more : List (String × Json))
    : memberTexts (members ++ more) = memberTexts members ++ memberTexts more := by
  simp only [memberTexts_eq_map, List.map_append]

theorem length_memberTexts (members : List (String × Json))
    : (memberTexts members).length = members.length := by
  rw [memberTexts_eq_map, List.length_map]

theorem memberTexts_eq_nil_iff {members : List (String × Json)}
    : memberTexts members = [] ↔ members = [] := by
  rw [memberTexts_eq_map, List.map_eq_nil_iff]

/-- A member has at least its name and a colon. -/
theorem ne_empty_of_mem_memberTexts {members : List (String × Json)} {text : String}
    (member : text ∈ memberTexts members)
    : text ≠ "" := by
  rw [memberTexts_eq_map] at member
  obtain ⟨found, _, rfl⟩ := List.mem_map.mp member
  simp

theorem spells_tokens (value : Json) : Spells value.tokens value.text := by
  intro c p h hp
  simpa [Writes, Draft.start] using Draft.writeAll_tokens value "" c p h hp

/-- A value that is already written spells itself. -/
theorem spells_raw (text : String) : Spells [.raw text] text := by
  intro c p h _
  have planned : c.plan (.raw text) = .ok (p.andWrite text) := by
    simp [Cursor.plan, h, Except.map]
  rw [← Plan.text_andWrite]
  exact Writes.single planned

/-- The comma in front of further members depends only on whether there are any before. -/
theorem separated_congr {count other : Nat} (h : count = 0 ↔ other = 0) (texts : List String)
    : separated count texts = separated other texts := by
  cases texts with
  | nil => rfl
  | cons text rest =>
      by_cases hc : count = 0
      · rw [hc, h.mp hc]
      · obtain ⟨n, rfl⟩ := Nat.exists_eq_succ_of_ne_zero hc
        obtain ⟨m, rfl⟩ := Nat.exists_eq_succ_of_ne_zero (mt h.mpr hc)
        simp only [separated, Nat.succ_ne_zero, if_false, append_separated]

/-- Members are separated alike in one go and in two, by induction on the first ones. -/
theorem separated_append (count : Nat) (texts more : List String)
    : separated count (texts ++ more)
      = separated count texts ++ separated (count + texts.length) more := by
  induction texts generalizing count with
  | nil => simp [separated]
  | cons text rest ih =>
      simp only [List.cons_append, separated, ih, String.append_assoc, List.length_cons]
      rw [Nat.add_right_comm, Nat.add_assoc]

/-- Texts that are not empty leave something, whatever stands before them. -/
theorem separated_eq_empty_iff {count : Nat} {texts : List String}
    (filled : ∀ text ∈ texts, text ≠ "")
    : separated count texts = "" ↔ texts = [] := by
  cases texts with
  | nil => simp [separated]
  | cons text rest =>
      have some : text ≠ "" := filled text List.mem_cons_self
      simp [separated, some]

/-- Groups of texts are joined by joining each of them first, by induction on the groups. -/
theorem intercalate_flatMap {α : Type} (group : α → List String) (items : List α)
    (h : ∀ item ∈ items, group item ≠ [])
    : String.intercalate "," (items.flatMap group)
      = String.intercalate "," (items.map fun item => String.intercalate "," (group item)) := by
  induction items with
  | nil => rfl
  | cons item rest ih =>
      have filled := h item (by simp)
      have later := ih fun other member => h other (by simp [member])
      cases rest with
      | nil => simp
      | cons next rest =>
          have more : (next :: rest).flatMap group ≠ [] := by
            intro none
            exact h next (by simp) (List.flatMap_eq_nil_iff.mp none next (by simp))
          rw [List.flatMap_cons, String.intercalate_append_of_ne_nil filled more, later]
          simp only [List.map_cons, String.intercalate_cons_cons]

theorem Lists.nil : Lists [] [] := by
  intro outer count
  exact ⟨count, by simp, Writes.nil _⟩

theorem Lists.append {first second : List Token} {texts more : List String}
    (h : Lists first texts) (hm : Lists second more)
    : Lists (first ++ second) (texts ++ more) := by
  intro outer count
  obtain ⟨middle, hz, hw⟩ := h outer count
  obtain ⟨next, hn, hv⟩ := hm outer middle
  refine ⟨next, ?_, ?_⟩
  · simp only [hn, hz, List.append_eq_nil_iff]
    exact and_assoc
  · have same : separated (count + texts.length) more = separated middle more := by
      apply separated_congr
      rw [hz, Nat.add_eq_zero_iff, List.length_eq_zero_iff]
    rw [separated_append, same]
    exact hw.append hv

/-- Groups of items are joined in order, by induction on the groups. -/
theorem Lists.flatMap {α : Type} {groups : List α} {tokens : α → List Token}
    {texts : α → List String} (h : ∀ group ∈ groups, Lists (tokens group) (texts group))
    : Lists (groups.flatMap tokens) (groups.flatMap texts) := by
  induction groups with
  | nil => exact .nil
  | cons group rest ih =>
      exact (h group (by simp)).append (ih fun other member => h other (by simp [member]))

theorem Spells.lists {tokens : List Token} {text : String} (h : Spells tokens text)
    : Lists tokens [text] := by
  intro outer count
  refine ⟨count + 1, by simp, ?_⟩
  have item := h ⟨⟨.array, count⟩ :: outer, false⟩ _ rfl rfl
  rw [Cursor.text_advance, Cursor.landing_advance] at item
  simpa only [separated, String.append_empty] using item

/-- Values are written behind those that their array has, and counted one by one, by induction on
them.
-/
theorem writes_spelled {α : Type} {tokens : α → List Token} {text : α → String}
    (spells : ∀ value, Spells (tokens value) (text value)) (values : List α) (count : Nat)
    (outer : List Scope)
    : Writes ⟨⟨.array, count⟩ :: outer, false⟩ (values.flatMap tokens)
        (separated count (values.map text)) ⟨⟨.array, count + values.length⟩ :: outer, false⟩ := by
  induction values generalizing count with
  | nil => exact .nil _
  | cons value rest ih =>
      have first := spells value ⟨⟨.array, count⟩ :: outer, false⟩ _ rfl rfl
      rw [Cursor.text_advance, Cursor.landing_advance] at first
      have both := first.append (ih (count + 1))
      rwa [Nat.add_right_comm, Nat.add_assoc] at both

/-- Items that were joined elsewhere are spliced in as one value. -/
theorem lists_joined {texts : List String} (h : texts ≠ [])
    : Lists [.raw (String.intercalate "," texts)] texts := by
  intro outer count
  -- One splice counts as one item, which is as good as many: only the first has no comma.
  obtain ⟨next, hn, hw⟩ := (spells_raw (String.intercalate "," texts)).lists outer count
  refine ⟨next, by simpa [h] using hn, ?_⟩
  obtain ⟨text, rest, rfl⟩ := List.exists_cons_of_ne_nil h
  simpa [separated, String.append_assoc, append_separated] using hw

-----------------------------------------------------------------------------------------
-- Values one after the other
-----------------------------------------------------------------------------------------

/-- Values may be written one after the other: at the root, and inside an array. -/
inductive Cursor.TakesValues : Cursor → Prop
  | root : TakesValues ⟨[], false⟩
  | array (count : Nat) (outer : List Scope) : TakesValues ⟨⟨.array, count⟩ :: outer, false⟩

namespace Cursor.TakesValues

variable {c : Cursor}

theorem writes (takes : c.TakesValues) {tokens : List Token} {text : String}
    (spells : Spells tokens text)
    : ∃ added next, Writes c tokens added next ∧ next.TakesValues := by
  cases takes with
  | root => exact ⟨_, _, spells ⟨[], false⟩ ⟨[], ⟨[], false⟩⟩ rfl rfl, .root⟩
  | array count outer =>
      obtain ⟨next, _, written⟩ := spells.lists outer count
      exact ⟨_, _, written, .array next outer⟩

/-- Any number of values can be written, by induction on them. -/
theorem writes_flatMap {α : Type} (takes : c.TakesValues) (tokens : α → List Token)
    (values : List α) (spelled : ∀ value, ∃ text, Spells (tokens value) text)
    : ∃ added next, Writes c (values.flatMap tokens) added next := by
  induction values generalizing c with
  | nil => exact ⟨_, _, .nil c⟩
  | cons value rest ih =>
      obtain ⟨text, spells⟩ := spelled value
      obtain ⟨first, middle, written, further⟩ := takes.writes spells
      obtain ⟨more, next, later⟩ := ih further
      exact ⟨_, _, written.append later⟩

end Cursor.TakesValues

-----------------------------------------------------------------------------------------
-- Composite values
-----------------------------------------------------------------------------------------

/-- An open bracket, what its scope holds, and the closing bracket spell one value. -/
theorem Spells.enclosed (kind : ScopeKind) {opening closing : Token}
    {left right inner : String} {tokens : List Token}
    (opens : ∀ c : Cursor, c.plan opening
      = c.beforeValue.map fun p => (p.andWrite left).landAt (p.landing.push kind))
    (closes : ∀ c : Cursor, c.plan closing = c.close kind right)
    (h : ∀ outer, ∃ next,
      Writes ⟨⟨kind, 0⟩ :: outer, false⟩ tokens inner ⟨⟨kind, next⟩ :: outer, false⟩)
    : Spells (opening :: tokens ++ [closing]) (left ++ inner ++ right) := by
  intro c p hc hp
  obtain ⟨pieces, scopes, pending⟩ := p
  subst hp
  obtain ⟨next, hw⟩ := h scopes
  have opened : c.plan opening
      = .ok ((Plan.andWrite ⟨pieces, ⟨scopes, false⟩⟩ left).landAt
          ⟨⟨kind, 0⟩ :: scopes, false⟩) := by
    rw [opens, hc]
    rfl
  have closed : (⟨⟨kind, next⟩ :: scopes, false⟩ : Cursor).plan closing
      = .ok (Plan.andWrite ⟨[], ⟨scopes, false⟩⟩ right) := by
    rw [closes]
    simp [Cursor.close]
  have whole := (Writes.cons opened hw).append (Writes.single closed)
  simpa only [Plan.text_landAt, Plan.text_andWrite, Plan.text_still, Plan.landing_andWrite,
    String.empty_append, String.append_assoc] using whole

theorem Lists.spells_array {tokens : List Token} {texts : List String} (h : Lists tokens texts)
    : Spells (.openArray :: tokens ++ [.closeArray])
        ("[" ++ String.intercalate "," texts ++ "]") := by
  refine Spells.enclosed .array (fun c => rfl) (fun c => rfl) fun outer => ?_
  obtain ⟨next, _, hw⟩ := h outer 0
  exact ⟨next, separated_zero texts ▸ hw⟩

/-- The tokens write members of the innermost object with the given texts. -/
def ListsMembers (tokens : List Token) (texts : List String) : Prop :=
  ∀ outer count,
    Writes ⟨⟨.object, count⟩ :: outer, false⟩ tokens (separated count texts)
      ⟨⟨.object, count + texts.length⟩ :: outer, false⟩

theorem listsMembers_memberTokens (members : List (String × Json))
    : ListsMembers (memberTokens members) (memberTexts members) := by
  intro outer count
  rw [memberTexts_eq_map, List.length_map, ← memberTexts_eq_map]
  simpa [Writes, Draft.start] using Draft.writeAll_memberTokens members "" outer count

theorem ListsMembers.append {first second : List Token} {texts more : List String}
    (h : ListsMembers first texts) (hm : ListsMembers second more)
    : ListsMembers (first ++ second) (texts ++ more) := by
  intro outer count
  rw [separated_append, List.length_append, ← Nat.add_assoc]
  exact (h outer count).append (hm outer (count + texts.length))

theorem Spells.member {tokens : List Token} {text : String} (h : Spells tokens text)
    (name : String)
    : ListsMembers (.name name :: tokens) [quoted name ++ ":" ++ text] := by
  intro outer count
  have named : (⟨⟨.object, count⟩ :: outer, false⟩ : Cursor).plan (.name name)
      = .ok ((((Cursor.advance ⟨⟨.object, count⟩ :: outer, false⟩ ⟨.object, count⟩ outer).andWrite
          (quoted name)).andWrite ":").landAt ⟨⟨.object, count + 1⟩ :: outer, true⟩) := rfl
  have whole := Writes.cons named (h ⟨⟨.object, count + 1⟩ :: outer, true⟩ ⟨[], _⟩ rfl rfl)
  simpa only [separated, Plan.text_landAt, Plan.text_andWrite, Cursor.text_advance,
    Plan.text_still, String.empty_append, String.append_empty, String.append_assoc,
    List.length_singleton] using whole

theorem ListsMembers.spells_object {tokens : List Token} {texts : List String}
    (h : ListsMembers tokens texts)
    : Spells (.openObject :: tokens ++ [.closeObject])
        ("\x7b" ++ String.intercalate "," texts ++ "\x7d") := by
  refine Spells.enclosed .object (fun c => rfl) (fun c => rfl) fun outer => ?_
  exact ⟨0 + texts.length, separated_zero texts ▸ h outer 0⟩

/-- Spelled alone, a value is all that is drafted. -/
theorem Spells.draft_root {tokens : List Token} {text : String} (h : Spells tokens text)
    : draft .root tokens = .ok text := by
  have alone := h .root ⟨[], .root⟩ rfl rfl
  rw [Plan.text_still, String.empty_append, Writes] at alone
  simp [draft, alone, Except.map]

end Json

end SeriesWire
