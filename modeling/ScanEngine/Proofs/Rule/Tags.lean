import ScanEngine.Proofs.Rule.Cursors
import ScanEngine.Proofs.Text.Decoding
import ScanEngine.Rule.Table

/-! Walks over packed tags. A list has no length of its own and ends with an empty string, so the
tags found are the strings before the first empty one, and no byte after that one is looked at. What
is not well-formed among them is left out of the texts of a rule, and the walk goes on behind it. -/
namespace ScanEngine

namespace Text

theorem terminatedFront {v : Bytes} (plain : 0 ∉ v) (rest : Bytes) :
    terminated (v ++ 0 :: rest) = v := by
  have inside : ∀ b ∈ v, (b != 0) = true := fun b mem =>
    bne_iff_ne.mpr fun zero => plain (zero ▸ mem)
  rw [terminated, List.takeWhile_append_of_pos inside, List.takeWhile_cons_of_neg (by decide),
    List.append_nil]

theorem terminatedCons {b : UInt8} (inside : b ≠ 0) (v : Bytes) :
    terminated (b :: v) = b :: terminated v :=
  List.takeWhile_cons_of_pos (bne_iff_ne.mpr inside)

theorem terminatedAlike {u v : Bytes} (same : ∀ i, i ≤ (terminated v).length → u[i]? = v[i]?) :
    terminated u = terminated v := by
  induction v generalizing u with
  | nil =>
    cases u with
    | nil => rfl
    | cons a u => cases same 0 (Nat.zero_le _)
  | cons b v ih =>
    cases u with
    | nil => cases same 0 (Nat.zero_le _)
    | cons a u =>
      cases Option.some.inj (same 0 (Nat.zero_le _))
      by_cases zero : b = 0
      · rw [zero]
        rfl
      · rw [terminatedCons zero] at same ⊢
        rw [terminatedCons zero, ih fun i within => same (i + 1) (Nat.succ_le_succ within)]

end Text

namespace Tags

def cursor (packed : Bytes) : Cursor Nat Bytes where
  next? head :=
    let tag := Text.terminated (packed.drop head)
    if tag.isEmpty then none else some (tag, head + tag.length + 1)
  looks head := List.range' head ((Text.terminated (packed.drop head)).length + 1)

/- Bytes that start with a tag list, whatever stands behind it. -/
inductive Packed : List Bytes → Bytes → Prop where
  | ended (rest : Bytes) : Packed [] (0 :: rest)
  | tag {t : Bytes} {more : List Bytes} {v : Bytes} (solid : t ≠ []) (plain : 0 ∉ t)
      (tail : Packed more v) : Packed (t :: more) (t ++ 0 :: v)

def front (tags : List Bytes) : Bytes := tags.flatMap (· ++ [0])

section
variable {tags : List Bytes} {v : Bytes}

theorem frontCons (t : Bytes) (tags : List Bytes) : front (t :: tags) = t ++ 0 :: front tags := by
  simp [front]

theorem packCons (t : Bytes) (tags : List Bytes) : pack (t :: tags) = t ++ 0 :: pack tags := by
  simp [pack]

theorem walkInside (plain : 0 ∉ v) (current rest : Bytes) :
    walkFrom current (v ++ 0 :: rest) = walkFrom (v.reverse ++ current) (0 :: rest) := by
  induction v generalizing current with
  | nil => rfl
  | cons b v ih =>
    obtain ⟨inner, plain⟩ := List.ne_and_not_mem_of_not_mem_cons plain
    rw [List.cons_append, walkFrom, if_neg (Ne.symm inner), ih plain]
    simp

theorem Packed.walk (packed : Packed tags v) : Tags.walk v = tags := by
  induction packed with
  | ended rest => rfl
  | @tag t more v solid plain tail ih =>
    rw [Tags.walk, walkInside plain, walkFrom, if_pos rfl]
    simpa [solid, Tags.walk] using ih

theorem Packed.segments (packed : Packed tags v) : Tags.segments v = tags := by
  induction packed with
  | ended rest => simp [Tags.segments, Bytes.splitOn]
  | @tag t more v solid plain tail ih =>
    rw [Tags.segments, Bytes.splitOnEnded plain, List.takeWhile_cons_of_pos (by simpa using solid)]
    exact congrArg (t :: ·) ih

theorem cursorEnded (before rest : Bytes) :
    (cursor (before ++ 0 :: rest)).next? before.length = none ∧
      (cursor (before ++ 0 :: rest)).looks before.length = [before.length] := by
  have empty : Text.terminated (0 :: rest) = [] := rfl
  simp only [cursor, List.drop_left, empty]
  exact ⟨rfl, rfl⟩

theorem cursorTag {t : Bytes} (solid : t ≠ []) (plain : 0 ∉ t) (before v : Bytes) :
    (cursor (before ++ (t ++ 0 :: v))).next? before.length =
        some (t, (before ++ (t ++ [0])).length) ∧
      (cursor (before ++ (t ++ 0 :: v))).looks before.length =
        List.range' before.length (t.length + 1) := by
  have filled : ¬t.isEmpty = true := fun empty => solid (List.isEmpty_iff.mp empty)
  simp only [cursor, List.drop_left, Text.terminatedFront plain, if_neg filled, List.length_append,
    List.length_singleton, Nat.add_assoc, and_self]

theorem Packed.walks (packed : Packed tags v) (before : Bytes) :
    (cursor (before ++ v)).Walks before.length tags
      (List.range' before.length ((front tags).length + 1)) := by
  induction packed generalizing before with
  | ended rest =>
    obtain ⟨last, looks⟩ := cursorEnded before rest
    have walk := Cursor.Walks.ended last
    rwa [looks] at walk
  | @tag t more v solid plain tail ih =>
    obtain ⟨next, looks⟩ := cursorTag solid plain before v
    have behind := ih (before ++ (t ++ [0]))
    have same : before ++ (t ++ [0]) ++ v = before ++ (t ++ 0 :: v) := by simp
    rw [same] at behind
    have walk := Cursor.Walks.moved next behind
    have whole : t.length + 1 + ((front more).length + 1) = (front (t :: more)).length + 1 := by
      rw [frontCons, List.length_append, List.length_cons]
      omega
    have further : (before ++ (t ++ [0])).length = before.length + (t.length + 1) := by simp
    rwa [looks, further, List.range'_append_1, whole] at walk

theorem Packed.frontEnded (packed : Packed tags v) : ∃ rest, v = front tags ++ 0 :: rest := by
  induction packed with
  | ended rest => exact ⟨rest, rfl⟩
  | @tag t more v _ _ _ ih =>
    obtain ⟨rest, rfl⟩ := ih
    exact ⟨rest, by rw [frontCons, List.append_assoc, List.cons_append]⟩

theorem Packed.beforeAny (packed : Packed tags v) (rest : Bytes) :
    Packed tags (front tags ++ 0 :: rest) := by
  induction packed with
  | ended _ => exact .ended rest
  | tag solid plain _ ih =>
    rw [frontCons, List.append_assoc, List.cons_append]
    exact .tag solid plain ih

theorem packedBehind (t : Bytes) (packed : ∃ found, Packed found v) :
    ∃ found, Packed found (t ++ 0 :: v) := by
  suffices joined : ∀ current, 0 ∉ current → ∃ found, Packed found (current ++ (t ++ 0 :: v)) from
    joined [] List.not_mem_nil
  have closed {current : Bytes} (plain : 0 ∉ current) {w : Bytes} (behind : ∃ found, Packed found w) :
      ∃ found, Packed found (current ++ 0 :: w) := by
    obtain ⟨found, behind⟩ := behind
    by_cases solid : current = []
    · rw [solid]
      exact ⟨[], .ended w⟩
    · exact ⟨current :: found, .tag solid plain behind⟩
  induction t with
  | nil => exact fun current plain => closed plain packed
  | cons b t ih =>
    intro current plain
    by_cases zero : b = 0
    · rw [zero]
      exact closed plain (ih [] List.not_mem_nil)
    · have longer := ih (current ++ [b]) (by simp [plain, Ne.symm zero])
      rwa [List.append_assoc, List.singleton_append] at longer

theorem packedSegments (tags : List Bytes) : Packed (segments (pack tags)) (pack tags) := by
  have packed : ∃ found, Packed found (pack tags) := by
    induction tags with
    | nil => exact ⟨[], .ended []⟩
    | cons t more ih =>
      rw [packCons]
      exact packedBehind t ih
  obtain ⟨found, packed⟩ := packed
  rwa [packed.segments]

theorem packedPlain (plain : ∀ t ∈ tags, 0 ∉ t) :
    Packed (tags.takeWhile (! ·.isEmpty)) (pack tags) := by
  induction tags with
  | nil => exact .ended []
  | cons t more ih =>
    obtain ⟨first, others⟩ := List.forall_mem_cons.mp plain
    rw [packCons]
    cases t with
    | nil => exact .ended _
    | cons b t => exact .tag (List.cons_ne_nil b t) first (ih others)

theorem looksTell (packed other : Bytes) (head : Nat)
    (same : ∀ p ∈ (cursor packed).looks head, other[p]? = packed[p]?) :
    (cursor other).next? head = (cursor packed).next? head := by
  have alike : Text.terminated (other.drop head) = Text.terminated (packed.drop head) := by
    refine Text.terminatedAlike fun i within => ?_
    rw [List.getElem?_drop, List.getElem?_drop]
    refine same _ (List.mem_range'_1.mpr ⟨Nat.le_add_right head i, ?_⟩)
    exact Nat.add_lt_add_left (Nat.lt_succ_of_le within) head
  simp only [cursor, alike]

theorem Packed.confined (packed : Packed tags v) :
    Cursor.Confined cursor v 0 tags (front tags).length := by
  have walk := packed.walks []
  rw [List.nil_append, List.length_nil, ← List.range_eq_range'] at walk
  exact walk.confined fun other head => looksTell v other head

end

end Tags

theorem textsRead (segments : List Bytes) :
    List.Forall₂ (fun segment text => Text.encode text = segment)
      (segments.filter (Text.WellFormed ·)) (segments.filterMap Text.strict?) := by
  have fit {v : Bytes} : Text.WellFormed v ↔ ∃ text, Text.encode text = v := Iff.rfl
  exact readEach Text.strictIff fit segments

/- The segments of a packed list up to the first empty one, which its walk finds and which a rule has
as texts, as far as they are well-formed. -/
theorem packedTagsRead (tags : List Bytes) :
    let packed := Tags.pack tags
    let found := Tags.segments packed
    let stop := (Tags.front found).length
    packed[stop]? = some 0 ∧ packed.take stop = Tags.front found ∧
      Cursor.Confined Tags.cursor packed 0 found stop ∧
      (∀ rest, Tags.walk (packed.take (stop + 1) ++ rest) = found) ∧
      Tags.walk packed = found ∧
      ((∀ t ∈ tags, 0 ∉ t) → found = tags.takeWhile (! ·.isEmpty)) ∧
      (∀ r : Rule, r.tags = some packed →
        List.Forall₂ (fun segment text => Text.encode text = segment)
          (found.filter (Text.WellFormed ·)) r.tagTexts) ∧
      ∀ r : Rule, r.tags = none → r.tagTexts = [] := by
  intro packed found stop
  have listed : Tags.Packed found packed := Tags.packedSegments tags
  obtain ⟨rest, split⟩ := listed.frontEnded
  refine ⟨?_, ?_, listed.confined, fun rest => ?_, listed.walk, fun plain => ?_, fun r own => ?_,
    fun r absent => ?_⟩
  · rw [split, List.getElem?_append_right (Nat.le_refl _), Nat.sub_self]
    rfl
  · rw [split, List.take_left]
  · have front : packed.take (stop + 1) = Tags.front found ++ [0] := by
      rw [split, List.take_length_add_append]
      rfl
    rw [front, List.append_assoc]
    exact (listed.beforeAny rest).walk
  · exact (Tags.packedPlain plain).segments
  · rw [Rule.tagTexts, own, Option.map_some, Option.getD_some, listed.walk]
    exact textsRead found
  · rw [Rule.tagTexts, absent]
    rfl

example : Tags.walk (Tags.pack [[0x61], [0xff, 0, 0x62], [], [0x63]]) =
    [[0x61], [0xff], [0x62]] := by decide

end ScanEngine
