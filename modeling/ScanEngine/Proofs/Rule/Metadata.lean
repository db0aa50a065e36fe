import ScanEngine.Proofs.Rule.Cursors
import ScanEngine.Proofs.Text.Decoding
import ScanEngine.Rule.Table

/-! Walks over metadata. The last entry of a rule carries the mark itself, so an entry is handed out
before its mark ends the walk, and nothing behind it is looked at. Entries that cannot be read are
left out one by one, and what is read of the others does not depend on them. -/
namespace ScanEngine

namespace MetaEntry

/- A null pointer, or a pointer to an entry, which is handed out before its mark is heeded. -/
def cursor (metas : List MetaEntry) : Cursor (Option Nat) MetaEntry where
  next? place := do
    let position ← place
    let m ← metas[position]?
    some (m, if m.isLast then none else some (position + 1))
  looks := Option.toList

def first (metas : List MetaEntry) : Option Nat := if metas.isEmpty then none else some 0

inductive ShowsValue (m : MetaEntry) : MetaValue → Prop where
  | integer (kind : m.kind = 1) : ShowsValue m (.integer m.integer)
  | text (kind : m.kind = 2) : ShowsValue m
      (.text ((m.text.map fun text => Text.lossy (text.takeWhile (· != 0))).getD ""))
  | boolean (kind : m.kind = 3) {set : Bool} (told : set = true ↔ m.integer ≠ 0) :
      ShowsValue m (.boolean set)

structure Shows (m : MetaEntry) (d : Metadata) : Prop where
  name : ∃ raw ∈ m.name, Text.encode d.name = raw.takeWhile (· != 0)
  value : m.ShowsValue d.value

def Readable (m : MetaEntry) : Prop :=
  (∃ raw ∈ m.name, Text.WellFormed (raw.takeWhile (· != 0))) ∧
    (m.kind = 1 ∨ m.kind = 2 ∨ m.kind = 3)

instance : DecidablePred Readable := fun m =>
  inferInstanceAs (Decidable ((∃ raw ∈ m.name, Text.WellFormed (raw.takeWhile (· != 0))) ∧
    (m.kind = 1 ∨ m.kind = 2 ∨ m.kind = 3)))

section
variable {m : MetaEntry} {d : Metadata}

theorem lastIff : m.isLast = true ↔ m.flags &&& 1 ≠ 0 := bne_iff_ne

theorem notLastIff : m.isLast = false ↔ m.flags &&& 1 = 0 := bne_eq_false_iff_eq

theorem valueIff {value : MetaValue} : m.value? = some value ↔ m.ShowsValue value := by
  constructor
  · intro found
    unfold value? at found
    split at found
    case isTrue kind =>
      cases found
      exact .integer kind
    case isFalse =>
      split at found
      case isTrue kind =>
        cases found
        exact .text kind
      case isFalse =>
        split at found
        case isTrue kind =>
          cases found
          exact .boolean kind bne_iff_ne
        case isFalse => cases found
  · intro shows
    cases shows with
    | integer kind => simp [value?, kind]
    | text kind => simp [value?, kind, textValue, Text.terminated]
    | boolean kind told =>
      have same := Bool.eq_iff_iff.mpr (told.trans bne_iff_ne.symm)
      simp [value?, kind, same]

theorem kindShown : (m.kind = 1 ∨ m.kind = 2 ∨ m.kind = 3) ↔ ∃ value, m.ShowsValue value := by
  constructor
  · rintro (kind | kind | kind)
    · exact ⟨_, .integer kind⟩
    · exact ⟨_, .text kind⟩
    · exact ⟨_, .boolean kind bne_iff_ne⟩
  · rintro ⟨value, shows⟩
    cases shows with
    | integer kind => exact .inl kind
    | text kind => exact .inr (.inl kind)
    | boolean kind _ => exact .inr (.inr kind)

theorem readIff : m.read? = some d ↔ m.Shows d := by
  simp only [read?, bind, Option.bind_eq_some_iff, Text.strictIff, Text.terminated, valueIff]
  constructor
  · rintro ⟨raw, named, name, encoded, value, shows, ⟨⟩⟩
    exact ⟨⟨raw, named, encoded⟩, shows⟩
  · rintro ⟨⟨raw, named, encoded⟩, shows⟩
    exact ⟨raw, named, d.name, encoded, d.value, shows, rfl⟩

theorem readableIff : m.Readable ↔ ∃ d, m.Shows d := by
  constructor
  · rintro ⟨⟨raw, named, name, encoded⟩, kind⟩
    obtain ⟨value, shows⟩ := kindShown.mp kind
    exact ⟨⟨name, value⟩, ⟨raw, named, encoded⟩, shows⟩
  · rintro ⟨d, ⟨raw, named, encoded⟩, shows⟩
    exact ⟨⟨raw, named, d.name, encoded⟩, kindShown.mpr ⟨d.value, shows⟩⟩

end

section
variable {front : List MetaEntry} {m : MetaEntry}

theorem visitedFront (unmarked : ∀ x ∈ front, x.isLast = false) (marked : m.isLast = true)
    (rest : List MetaEntry) : visited (front ++ m :: rest) = front ++ [m] := by
  induction front with
  | nil => exact if_pos marked
  | cons x front ih =>
    obtain ⟨plain, others⟩ := List.forall_mem_cons.mp unmarked
    rw [List.cons_append, visited, if_neg (by simp [plain]), ih others, List.cons_append]

theorem markedSplit {metas : List MetaEntry} {last : MetaEntry} (mem : last ∈ metas)
    (marked : last.isLast = true) : ∃ front m rest, metas = front ++ m :: rest ∧
      (∀ x ∈ front, x.isLast = false) ∧ m.isLast = true := by
  obtain ⟨m, found⟩ := Option.isSome_iff_exists.mp
    (List.find?_isSome.mpr ⟨last, mem, marked⟩)
  obtain ⟨first, front, rest, split, unmarked⟩ := List.find?_eq_some_iff_append.mp found
  exact ⟨front, m, rest, split, fun x inside => by simpa using unmarked x inside, first⟩

theorem cursorAt (before rest : List MetaEntry) (m : MetaEntry) :
    (cursor (before ++ m :: rest)).next? (some before.length) =
      some (m, if m.isLast then none else some (before.length + 1)) := by
  simp [cursor]

theorem cursorWalks (unmarked : ∀ x ∈ front, x.isLast = false) (marked : m.isLast = true)
    (before rest : List MetaEntry) :
    (cursor (before ++ (front ++ m :: rest))).Walks (some before.length) (front ++ [m])
      (List.range' before.length (front.length + 1)) := by
  induction front generalizing before with
  | nil =>
    have next := cursorAt before rest m
    rw [marked] at next
    exact .moved next (.ended rfl)
  | cons x front ih =>
    obtain ⟨plain, others⟩ := List.forall_mem_cons.mp unmarked
    have next := cursorAt before (front ++ m :: rest) x
    rw [plain] at next
    have behind := ih others (before ++ [x])
    rw [List.append_assoc, List.singleton_append, List.length_append, List.length_singleton] at behind
    exact .moved next behind

theorem looksTell (metas other : List MetaEntry) (place : Option Nat)
    (same : ∀ p ∈ (cursor metas).looks place, other[p]? = metas[p]?) :
    (cursor other).next? place = (cursor metas).next? place := by
  cases place with
  | none => rfl
  | some position =>
    have alike : other[position]? = metas[position]? := same position List.mem_cons_self
    simp only [cursor, bind, Option.bind_some, alike]

end

end MetaEntry

/- A rule whose last entry is marked, as the engine sees to. Its walk visits the entries up to and
including the first marked one, whichever that is, and each readable one among them is shown. -/
theorem metadataRead (r : Rule) {last : MetaEntry} (final : r.metas.getLast? = some last)
    (marked : last.flags &&& 1 ≠ 0) :
    let found := MetaEntry.visited r.metas
    (found <+: r.metas ∧ (∃ m, found.getLast? = some m ∧ m.flags &&& 1 ≠ 0) ∧
      ∀ x ∈ found.dropLast, x.flags &&& 1 = 0) ∧
    Cursor.Confined MetaEntry.cursor r.metas (MetaEntry.first r.metas) found (found.length - 1) ∧
    (∀ rest, MetaEntry.visited (found ++ rest) = found) ∧
    List.Forall₂ MetaEntry.Shows (found.filter (MetaEntry.Readable ·)) r.metadata ∧
    ∀ q : Rule, q.metas = [] → MetaEntry.first q.metas = none ∧ q.metadata = [] := by
  obtain ⟨front, m, rest, split, unmarked, ended⟩ :=
    MetaEntry.markedSplit (List.mem_of_getLast? final) (MetaEntry.lastIff.mpr marked)
  have visited : MetaEntry.visited r.metas = front ++ [m] := by
    rw [split, MetaEntry.visitedFront unmarked ended]
  intro found
  rw [show found = front ++ [m] from visited]
  refine ⟨⟨⟨rest, by simp [split]⟩, ⟨m, by simp, MetaEntry.lastIff.mp ended⟩, fun x mem => ?_⟩, ?_,
    fun rest => ?_, ?_, fun q null => ?_⟩
  · rw [List.dropLast_concat] at mem
    exact MetaEntry.notLastIff.mp (unmarked x mem)
  · have walk := MetaEntry.cursorWalks unmarked ended [] rest
    rw [List.nil_append, List.length_nil, ← List.range_eq_range', ← split] at walk
    have start : MetaEntry.first r.metas = some 0 := by
      rw [split]
      cases front <;> rfl
    rw [start, List.length_append, List.length_singleton, Nat.add_sub_cancel]
    exact walk.confined fun other => MetaEntry.looksTell r.metas other
  · rw [List.append_assoc]
    exact MetaEntry.visitedFront unmarked ended rest
  · rw [Rule.metadata, visited]
    exact readEach MetaEntry.readIff MetaEntry.readableIff _
  · rw [Rule.metadata, null]
    exact ⟨rfl, rfl⟩

/- Other bits beside the mark, an entry without a name between two with one, and one behind the mark
that is marked as well. -/
theorem metadataReadAroundNameless :
    let a : MetaEntry := ⟨some [0x61], 1, -5, none, 6⟩
    let b : MetaEntry := ⟨none, 2, 0, some [0x62], 0⟩
    let c : MetaEntry := ⟨some [0xc3, 0xa9, 0, 0x63], 3, 2, none, 3⟩
    let d : MetaEntry := ⟨some [0x64], 1, 7, none, 1⟩
    let r : Rule := ⟨none, none, ⟨0⟩, none, [a, b, c, d]⟩
    r.metas.getLast? = some d ∧ d.flags &&& 1 ≠ 0 ∧ MetaEntry.visited r.metas = [a, b, c] ∧
      List.Forall₂ MetaEntry.Shows [a, c] r.metadata ∧
      r.metadata = [⟨"a", .integer (-5)⟩, ⟨"é", .boolean true⟩] := by
  intro a b c d r
  have marked : d.flags &&& 1 ≠ 0 := by decide
  have visited : MetaEntry.visited r.metas = [a, b, c] := by decide
  have readable : [a, b, c].filter (MetaEntry.Readable ·) = [a, c] := by decide +kernel
  obtain ⟨-, -, -, shown, -⟩ := metadataRead r (rfl : r.metas.getLast? = some d) marked
  rw [visited, readable] at shown
  exact ⟨rfl, marked, visited, shown, by decide +kernel⟩

end ScanEngine
