import ScanEngine.Text.Utf8

/-! What decoded pieces stand for. Piece by piece they cover the bytes that they were read from: a
character stands for its own encoding, a fault for bytes beyond ASCII. So lossy text has a zero
byte if and only if the bytes that it shows have one. -/
namespace ScanEngine.Text

inductive Spells : List (Option Char) → Bytes → Prop where
  | nil : Spells [] []
  | char (c : Char) {ps : List (Option Char)} {v : Bytes} (rest : Spells ps v) :
      Spells (some c :: ps) (String.utf8EncodeChar c ++ v)
  | fault {taken : Bytes} (wide : ∀ b ∈ taken, 0x80 ≤ b) {ps : List (Option Char)} {v : Bytes}
      (rest : Spells ps v) : Spells (none :: ps) (taken ++ v)

theorem spellsAppend {ps qs : List (Option Char)} {v w : Bytes} (first : Spells ps v)
    (second : Spells qs w) : Spells (ps ++ qs) (v ++ w) := by
  induction first with
  | nil => exact second
  | char c _ ih =>
    rw [List.append_assoc]
    exact .char c ih
  | fault wide _ ih =>
    rw [List.append_assoc]
    exact .fault wide ih

theorem spellsChar {c : Char} {v : Bytes} (encoded : String.utf8EncodeChar c = v) :
    Spells [some c] v := by
  have spelled := Spells.char c .nil
  rwa [List.append_nil, encoded] at spelled

theorem spellsFault {v : Bytes} (wide : ∀ b ∈ v, 0x80 ≤ b) : Spells [none] v := by
  have spelled := Spells.fault wide .nil
  rwa [List.append_nil] at spelled

section
variable {n : Nat} {a b c d : UInt8}

theorem scalarOf (valid : n.isValidChar) : (Char.ofNat n).val.toNat = n := by
  rw [Char.ofNat, dif_pos valid]
  rfl

/- The encoding of a number is given by the digits of base 64 that its bytes hold. -/
theorem encodeOne (low : a < 0x80) : String.utf8EncodeChar (Char.ofNat a.toNat) = [a] := by
  have low : a.toNat ≤ 0x7f := Nat.le_of_lt_succ (UInt8.lt_iff_toNat_lt.mp low)
  have scalar := scalarOf (n := a.toNat) (by omega)
  simp only [String.utf8EncodeChar, scalar, if_pos low, UInt8.ofNat_toNat]

theorem encodeTwo (range : 0x7f < n ∧ n ≤ 0x7ff) (first : a.toNat = n / 64 + 0xc0)
    (second : b.toNat = n % 64 + 0x80) : String.utf8EncodeChar (Char.ofNat n) = [a, b] := by
  have scalar := scalarOf (n := n) (by omega)
  have lead : n / 64 % 32 + 192 = a.toNat := by omega
  simp only [String.utf8EncodeChar, scalar, if_neg (Nat.not_le.mpr range.1), if_pos range.2, lead,
    ← second, UInt8.ofNat_toNat]

theorem encodeThree (range : 0x7ff < n ∧ n ≤ 0xffff) (whole : n < 0xd800 ∨ 0xdfff < n)
    (first : a.toNat = n / 4096 + 0xe0) (second : b.toNat = n / 64 % 64 + 0x80)
    (third : c.toNat = n % 64 + 0x80) : String.utf8EncodeChar (Char.ofNat n) = [a, b, c] := by
  have scalar := scalarOf (n := n) (by omega)
  have lead : n / 4096 % 16 + 224 = a.toNat := by omega
  have wide : ¬n ≤ 0x7f := by omega
  simp only [String.utf8EncodeChar, scalar, if_neg wide, if_neg (Nat.not_le.mpr range.1),
    if_pos range.2, lead, ← second, ← third, UInt8.ofNat_toNat]

theorem encodeFour (range : 0xffff < n ∧ n < 0x110000) (first : a.toNat = n / 262144 + 0xf0)
    (second : b.toNat = n / 4096 % 64 + 0x80) (third : c.toNat = n / 64 % 64 + 0x80)
    (fourth : d.toNat = n % 64 + 0x80) : String.utf8EncodeChar (Char.ofNat n) = [a, b, c, d] := by
  have scalar := scalarOf (n := n) (by omega)
  have lead : n / 262144 % 8 + 240 = a.toNat := by omega
  have wide : ¬n ≤ 0x7f ∧ ¬n ≤ 0x7ff := by omega
  simp only [String.utf8EncodeChar, scalar, if_neg wide.1, if_neg wide.2,
    if_neg (Nat.not_le.mpr range.1), lead, ← second, ← third, ← fourth, UInt8.ofNat_toNat]

end

def Partial.completed (p : Partial) (tail : Bytes) : Nat :=
  tail.foldl (fun bits b => bits * 64 + (b.toNat - 0x80)) p.bits

theorem Partial.completedAfter (p : Partial) (b low high : UInt8) (more : Nat) (tail : Bytes) :
    Partial.completed ⟨p.completed [b], low, high, more⟩ tail = p.completed (b :: tail) := by
  simp only [Partial.completed, List.foldl_cons, List.foldl_nil]

/- A started character after its first bytes. Whichever bytes complete it, the whole is its
encoding. -/
structure Partial.Follows (p : Partial) (taken : Bytes) : Prop where
  wide : ∀ b ∈ taken, 0x80 ≤ b
  low : 0x80 ≤ p.low
  completes : ∀ b tail, p.low ≤ b ∧ b ≤ p.high → tail.length = p.more →
    (∀ t ∈ tail, 0x80 ≤ t ∧ t ≤ 0xbf) →
      String.utf8EncodeChar (Char.ofNat (p.completed (b :: tail))) = taken ++ b :: tail

inductive Carried : Option Partial → Bytes → Prop where
  | closed : Carried none []
  | opened {p : Partial} {taken : Bytes} (follows : p.Follows taken) : Carried (some p) taken

section
variable {b : UInt8}

theorem followsTwo (lead : 0xc2 ≤ b ∧ b < 0xe0) :
    Partial.Follows ⟨b.toNat - 0xc0, 0x80, 0xbf, 0⟩ [b] where
  wide := List.forall_mem_singleton.mpr (UInt8.le_trans (by decide) lead.1)
  low := UInt8.le_refl _
  completes c tail next size rest := by
    obtain rfl := List.eq_nil_of_length_eq_zero size
    simp only [UInt8.le_iff_toNat_le, UInt8.lt_iff_toNat_lt, UInt8.reduceToNat] at lead next
    simp only [Partial.completed, List.foldl_cons, List.foldl_nil, List.singleton_append]
    exact encodeTwo (by omega) (by omega) (by omega)

theorem followsThree (lead : 0xe0 ≤ b ∧ b < 0xf0) :
    Partial.Follows ⟨b.toNat - 0xe0, if b = 0xe0 then 0xa0 else 0x80,
      if b = 0xed then 0x9f else 0xbf, 1⟩ [b] where
  wide := List.forall_mem_singleton.mpr (UInt8.le_trans (by decide) lead.1)
  low := by
    change (0x80 : UInt8) ≤ if b = 0xe0 then 0xa0 else 0x80
    split <;> decide
  completes c tail next size rest := by
    obtain ⟨d, rfl⟩ := List.length_eq_one_iff.mp size
    have last := rest d List.mem_cons_self
    obtain ⟨above, below⟩ := next
    simp only [UInt8.le_iff_toNat_le, UInt8.lt_iff_toNat_lt, UInt8.reduceToNat, ← UInt8.toNat_inj,
      apply_ite UInt8.toNat] at lead above below last
    simp only [Partial.completed, List.foldl_cons, List.foldl_nil, List.singleton_append]
    split at above <;> split at below <;>
      exact encodeThree (by omega) (by omega) (by omega) (by omega) (by omega)

theorem followsFour (lead : 0xf0 ≤ b ∧ b < 0xf5) :
    Partial.Follows ⟨b.toNat - 0xf0, if b = 0xf0 then 0x90 else 0x80,
      if b = 0xf4 then 0x8f else 0xbf, 2⟩ [b] where
  wide := List.forall_mem_singleton.mpr (UInt8.le_trans (by decide) lead.1)
  low := by
    change (0x80 : UInt8) ≤ if b = 0xf0 then 0x90 else 0x80
    split <;> decide
  completes c tail next size rest := by
    match tail, size with
    | [d, e], _ =>
      have third := rest d List.mem_cons_self
      have last := rest e (List.mem_cons_of_mem d List.mem_cons_self)
      obtain ⟨above, below⟩ := next
      simp only [UInt8.le_iff_toNat_le, UInt8.lt_iff_toNat_lt, UInt8.reduceToNat, ← UInt8.toNat_inj,
        apply_ite UInt8.toNat] at lead above below third last
      simp only [Partial.completed, List.foldl_cons, List.foldl_nil, List.singleton_append]
      split at above <;> split at below <;>
        exact encodeFour (by omega) (by omega) (by omega) (by omega) (by omega)

end

theorem startSpells (b : UInt8) :
    ∃ done left, [b] = done ++ left ∧ Spells (start b).1 done ∧ Carried (start b).2 left := by
  unfold start
  split
  case isTrue low => exact ⟨[b], [], rfl, spellsChar (encodeOne low), .closed⟩
  case isFalse wide =>
    have fault : Spells [none] [b] :=
      spellsFault (List.forall_mem_singleton.mpr (UInt8.not_lt.mp wide))
    split
    case isTrue => exact ⟨[b], [], rfl, fault, .closed⟩
    case isFalse two =>
      split
      case isTrue below =>
        exact ⟨[], [b], rfl, .nil, .opened (followsTwo ⟨UInt8.not_lt.mp two, below⟩)⟩
      case isFalse three =>
        split
        case isTrue below =>
          exact ⟨[], [b], rfl, .nil, .opened (followsThree ⟨UInt8.not_lt.mp three, below⟩)⟩
        case isFalse four =>
          split
          case isTrue below =>
            exact ⟨[], [b], rfl, .nil, .opened (followsFour ⟨UInt8.not_lt.mp four, below⟩)⟩
          case isFalse => exact ⟨[b], [], rfl, fault, .closed⟩

theorem Partial.Follows.more {p : Partial} {taken : Bytes} (follows : p.Follows taken) {b : UInt8}
    (next : p.low ≤ b ∧ b ≤ p.high) {more : Nat} (asked : p.more = more + 1) :
    Partial.Follows ⟨p.completed [b], 0x80, 0xbf, more⟩ (taken ++ [b]) where
  wide := by
    intro t mem
    rcases List.mem_append.mp mem with before | last
    · exact follows.wide t before
    · exact List.forall_mem_singleton.mpr (UInt8.le_trans follows.low next.1) t last
  low := UInt8.le_refl _
  completes c tail further size rest := by
    have whole := follows.completes b (c :: tail) next (by rw [asked, List.length_cons, size])
      (List.forall_mem_cons.mpr ⟨further, rest⟩)
    rw [p.completedAfter, whole, List.append_assoc, List.singleton_append]

theorem stepSpells {opened : Option Partial} {taken : Bytes} (carried : Carried opened taken)
    (b : UInt8) : ∃ done left, taken ++ [b] = done ++ left ∧ Spells (step opened b).1 done ∧
      Carried (step opened b).2 left := by
  cases carried with
  | closed => exact startSpells b
  | @opened p taken follows =>
    unfold step
    dsimp only
    split
    case isTrue next =>
      split
      case h_1 last =>
        have encoded := follows.completes b [] next (by rw [last]; rfl) (List.forall_mem_nil _)
        exact ⟨taken ++ [b], [], (List.append_nil _).symm, spellsChar encoded, .closed⟩
      case h_2 more asked =>
        exact ⟨[], taken ++ [b], rfl, .nil, .opened (follows.more next asked)⟩
    case isFalse =>
      -- What was open is broken off as one fault, and the byte starts anew.
      obtain ⟨done, left, split, spells, carried⟩ := startSpells b
      refine ⟨taken ++ done, left, ?_, .fault follows.wide spells, carried⟩
      rw [split, List.append_assoc]

theorem piecesFromSpell {opened : Option Partial} {taken : Bytes} (carried : Carried opened taken)
    (v : Bytes) : Spells (piecesFrom opened v) (taken ++ v) := by
  induction v generalizing opened taken with
  | nil =>
    cases carried with
    | closed => exact .nil
    | opened follows =>
      rw [List.append_nil]
      exact spellsFault follows.wide
  | cons b rest ih =>
    obtain ⟨done, left, split, spells, carried⟩ := stepSpells carried b
    have whole : taken ++ b :: rest = done ++ (left ++ rest) := by
      rw [← List.append_assoc, ← split, List.append_assoc, List.singleton_append]
    rw [whole]
    exact spellsAppend spells (ih carried)

theorem piecesSpell (v : Bytes) : Spells (pieces v) v := piecesFromSpell .closed v

theorem zeroSpelled {ps : List (Option Char)} {v : Bytes} (spells : Spells ps v) :
    (0 : UInt8) ∈ (ps.map (·.getD replacement)).flatMap String.utf8EncodeChar ↔ 0 ∈ v := by
  induction spells with
  | nil => exact Iff.rfl
  | char c _ ih =>
    simp only [List.map_cons, List.flatMap_cons, List.mem_append, ih, Option.getD_some]
  | @fault taken wide _ _ _ ih =>
    have shown : (0 : UInt8) ∉ String.utf8EncodeChar replacement := by decide
    have none : (0 : UInt8) ∉ taken := fun mem => absurd (wide 0 mem) (by decide)
    simp only [List.map_cons, List.flatMap_cons, List.mem_append, ih, Option.getD_none, shown, none]

theorem zeroShown (v : Bytes) : (0 : UInt8) ∈ encode (lossy v) ↔ 0 ∈ v := by
  rw [encode, lossy, String.toList_ofList]
  exact zeroSpelled (piecesSpell v)

end ScanEngine.Text
