import ScanEngine.Proofs.Text.Spelling

/-! Well-formed bytes. The encoding of a character is read back as that character, whatever comes
behind it. So strict text exists for exactly the bytes that encode a text, and lossy text stands for
its own bytes in those cases only. -/
namespace ScanEngine.Text

def WellFormed (v : Bytes) : Prop := ∃ text, encode text = v

section
variable {b : UInt8}

theorem notBelow {low bound : UInt8} (order : bound ≤ low) (lead : low ≤ b) : ¬b < bound :=
  UInt8.not_lt.mpr (UInt8.le_trans order lead)

theorem startOne (low : b < 0x80) : start b = ([some (Char.ofNat b.toNat)], none) := if_pos low

theorem startTwo (lead : 0xc2 ≤ b ∧ b < 0xe0) :
    start b = ([], some ⟨b.toNat - 0xc0, 0x80, 0xbf, 0⟩) := by
  have wide : ¬b < 0x80 := notBelow (by decide) lead.1
  rw [start, if_neg wide, if_neg (UInt8.not_lt.mpr lead.1), if_pos lead.2]

theorem startThree (lead : 0xe0 ≤ b ∧ b < 0xf0) :
    start b = ([], some ⟨b.toNat - 0xe0, if b = 0xe0 then 0xa0 else 0x80,
      if b = 0xed then 0x9f else 0xbf, 1⟩) := by
  have wide : ¬b < 0x80 := notBelow (by decide) lead.1
  have two : ¬b < 0xc2 := notBelow (by decide) lead.1
  rw [start, if_neg wide, if_neg two, if_neg (UInt8.not_lt.mpr lead.1), if_pos lead.2]

theorem startFour (lead : 0xf0 ≤ b ∧ b < 0xf5) :
    start b = ([], some ⟨b.toNat - 0xf0, if b = 0xf0 then 0x90 else 0x80,
      if b = 0xf4 then 0x8f else 0xbf, 2⟩) := by
  have wide : ¬b < 0x80 := notBelow (by decide) lead.1
  have two : ¬b < 0xc2 := notBelow (by decide) lead.1
  have three : ¬b < 0xe0 := notBelow (by decide) lead.1
  rw [start, if_neg wide, if_neg two, if_neg three, if_neg (UInt8.not_lt.mpr lead.1), if_pos lead.2]

variable {p : Partial}

theorem stepLast (next : p.low ≤ b ∧ b ≤ p.high) (last : p.more = 0) :
    step (some p) b = ([some (Char.ofNat (p.completed [b]))], none) := by
  simp only [step, if_pos next, last]
  rfl

theorem stepMore (next : p.low ≤ b ∧ b ≤ p.high) {more : Nat} (asked : p.more = more + 1) :
    step (some p) b = ([], some ⟨p.completed [b], 0x80, 0xbf, more⟩) := by
  simp only [step, if_pos next, asked]
  rfl

theorem completedRead {tail : Bytes} (next : p.low ≤ b ∧ b ≤ p.high) (size : tail.length = p.more)
    (rest : ∀ t ∈ tail, 0x80 ≤ t ∧ t ≤ 0xbf) (v : Bytes) :
    piecesFrom (some p) (b :: tail ++ v) =
      some (Char.ofNat (p.completed (b :: tail))) :: pieces v := by
  induction tail generalizing p b with
  | nil =>
    rw [List.cons_append, piecesFrom, stepLast next size.symm, List.nil_append, List.singleton_append,
      pieces]
  | cons t tail ih =>
    obtain ⟨further, others⟩ := List.forall_mem_cons.mp rest
    have read := ih (p := ⟨p.completed [b], 0x80, 0xbf, tail.length⟩) further rfl others
    rw [List.cons_append, piecesFrom, stepMore next size.symm, List.nil_append, read,
      p.completedAfter]

theorem openedRead {a : UInt8} (opens : start a = ([], some p)) {tail : Bytes} {n : Nat}
    (next : p.low ≤ b ∧ b ≤ p.high) (size : tail.length = p.more)
    (rest : ∀ t ∈ tail, 0x80 ≤ t ∧ t ≤ 0xbf) (number : p.completed (b :: tail) = n) (v : Bytes) :
    pieces (a :: b :: tail ++ v) = some (Char.ofNat n) :: pieces v := by
  rw [pieces, List.cons_append, piecesFrom, step, opens, List.nil_append,
    completedRead next size rest, number]

end

section
variable {n : Nat} {a b c d : UInt8}

theorem readTwo (range : 0x7f < n ∧ n ≤ 0x7ff) (first : a.toNat = n / 64 % 32 + 0xc0)
    (second : b.toNat = n % 64 + 0x80) (v : Bytes) :
    pieces ([a, b] ++ v) = some (Char.ofNat n) :: pieces v := by
  have lead : 0xc2 ≤ a ∧ a < 0xe0 := by
    simp only [UInt8.le_iff_toNat_le, UInt8.lt_iff_toNat_lt, UInt8.reduceToNat]
    omega
  have next : 0x80 ≤ b ∧ b ≤ 0xbf := by
    simp only [UInt8.le_iff_toNat_le, UInt8.reduceToNat]
    omega
  have number : (a.toNat - 0xc0) * 64 + (b.toNat - 0x80) = n := by omega
  exact openedRead (startTwo lead) next rfl (List.forall_mem_nil _) number v

theorem readThree (range : 0x7ff < n ∧ n ≤ 0xffff) (whole : n < 0xd800 ∨ 0xdfff < n)
    (first : a.toNat = n / 4096 % 16 + 0xe0) (second : b.toNat = n / 64 % 64 + 0x80)
    (third : c.toNat = n % 64 + 0x80) (v : Bytes) :
    pieces ([a, b, c] ++ v) = some (Char.ofNat n) :: pieces v := by
  have lead : 0xe0 ≤ a ∧ a < 0xf0 := by
    simp only [UInt8.le_iff_toNat_le, UInt8.lt_iff_toNat_lt, UInt8.reduceToNat]
    omega
  have next : (if a = 0xe0 then 0xa0 else 0x80) ≤ b ∧ b ≤ (if a = 0xed then 0x9f else 0xbf) := by
    simp only [UInt8.le_iff_toNat_le, UInt8.reduceToNat, ← UInt8.toNat_inj, apply_ite UInt8.toNat]
    constructor <;> split <;> omega
  have last : ∀ t ∈ [c], 0x80 ≤ t ∧ t ≤ 0xbf := by
    simp only [List.mem_singleton, forall_eq, UInt8.le_iff_toNat_le, UInt8.reduceToNat]
    omega
  have number : ((a.toNat - 0xe0) * 64 + (b.toNat - 0x80)) * 64 + (c.toNat - 0x80) = n := by omega
  exact openedRead (startThree lead) next rfl last number v

theorem readFour (range : 0xffff < n ∧ n < 0x110000) (first : a.toNat = n / 262144 % 8 + 0xf0)
    (second : b.toNat = n / 4096 % 64 + 0x80) (third : c.toNat = n / 64 % 64 + 0x80)
    (fourth : d.toNat = n % 64 + 0x80) (v : Bytes) :
    pieces ([a, b, c, d] ++ v) = some (Char.ofNat n) :: pieces v := by
  have lead : 0xf0 ≤ a ∧ a < 0xf5 := by
    simp only [UInt8.le_iff_toNat_le, UInt8.lt_iff_toNat_lt, UInt8.reduceToNat]
    omega
  have next : (if a = 0xf0 then 0x90 else 0x80) ≤ b ∧ b ≤ (if a = 0xf4 then 0x8f else 0xbf) := by
    simp only [UInt8.le_iff_toNat_le, UInt8.reduceToNat, ← UInt8.toNat_inj, apply_ite UInt8.toNat]
    constructor <;> split <;> omega
  have last : ∀ t ∈ [c, d], 0x80 ≤ t ∧ t ≤ 0xbf := by
    simp only [List.mem_cons, List.not_mem_nil, or_false, forall_eq_or_imp, forall_eq,
      UInt8.le_iff_toNat_le, UInt8.reduceToNat]
    omega
  have number : (((a.toNat - 0xf0) * 64 + (b.toNat - 0x80)) * 64 + (c.toNat - 0x80)) * 64 +
      (d.toNat - 0x80) = n := by omega
  exact openedRead (startFour lead) next rfl last number v

end

theorem charRead (c : Char) (v : Bytes) :
    pieces (String.utf8EncodeChar c ++ v) = some c :: pieces v := by
  have back : Char.ofNat c.val.toNat = c := Char.ofNat_toNat c
  have valid : c.val.toNat.isValidChar := c.valid
  have byteOf {n : Nat} (small : n < 256) : (UInt8.ofNat n).toNat = n :=
    UInt8.toNat_ofNat_of_lt' small
  simp only [String.utf8EncodeChar]
  generalize c.val.toNat = n at back valid
  subst back
  split
  case isTrue one =>
    have low : UInt8.ofNat n < 0x80 := by
      rw [UInt8.lt_iff_toNat_lt, byteOf (by omega)]
      exact Nat.lt_succ_of_le one
    rw [pieces, List.singleton_append, piecesFrom, step, startOne low, byteOf (by omega)]
    rfl
  case isFalse wide =>
    split
    case isTrue two =>
      exact readTwo ⟨Nat.not_le.mp wide, two⟩ (byteOf (by omega)) (byteOf (by omega)) v
    case isFalse beyond =>
      have above := Nat.not_le.mp beyond
      split
      case isTrue three =>
        exact readThree ⟨above, three⟩ (valid.imp_right And.left) (byteOf (by omega))
          (byteOf (by omega)) (byteOf (by omega)) v
      case isFalse four =>
        have below : n < 0x110000 := by
          rcases valid with low | high
          · omega
          · exact high.2
        exact readFour ⟨Nat.not_le.mp four, below⟩ (byteOf (by omega)) (byteOf (by omega))
          (byteOf (by omega)) (byteOf (by omega)) v

theorem charsRead (cs : List Char) (v : Bytes) :
    pieces (cs.flatMap String.utf8EncodeChar ++ v) = cs.map some ++ pieces v := by
  induction cs with
  | nil => rfl
  | cons c rest ih =>
    rw [List.flatMap_cons, List.append_assoc, charRead, ih, List.map_cons, List.cons_append]

theorem encodedRead (text : String) : pieces (encode text) = text.toList.map some := by
  have read := charsRead text.toList []
  have nothing : pieces [] = [] := rfl
  rwa [List.append_nil, nothing, List.append_nil] at read

theorem spelledWhole {ps : List (Option Char)} {v : Bytes} (spells : Spells ps v)
    (clear : none ∉ ps) : (ps.map (·.getD replacement)).flatMap String.utf8EncodeChar = v := by
  induction spells with
  | nil => rfl
  | char c _ ih =>
    have rest := ih fun mem => clear (List.mem_cons_of_mem _ mem)
    rw [List.map_cons, List.flatMap_cons, rest, Option.getD_some]
  | fault => exact absurd List.mem_cons_self clear

theorem lossyFaultless {v : Bytes} (clear : none ∉ pieces v) : encode (lossy v) = v := by
  rw [encode, lossy, String.toList_ofList]
  exact spelledWhole (piecesSpell v) clear

theorem allChars {ps : List (Option Char)} {cs : List Char} :
    ps.mapM id = some cs ↔ ps = cs.map some := by
  induction ps generalizing cs with
  | nil => cases cs <;> simp
  | cons p rest ih =>
    cases p with
    | none => cases cs <;> simp
    | some c =>
      cases cs with
      | nil => simp [Option.bind_eq_some_iff]
      | cons d more =>
        have tail : rest.mapM id = some more ↔ rest = more.map some := ih
        simp only [List.mapM_cons, id, List.map_cons, List.cons.injEq, Option.some.injEq, ← tail]
        cases rest.mapM id <;> simp

theorem lossyRead {v : Bytes} {cs : List Char} (read : pieces v = cs.map some) :
    lossy v = String.ofList cs := by
  rw [lossy, read, List.map_map]
  simp [Function.comp_def]

theorem lossyEncoded (text : String) : lossy (encode text) = text := by
  rw [lossyRead (encodedRead text), String.ofList_toList]

theorem strictIff {v : Bytes} {text : String} : strict? v = some text ↔ encode text = v := by
  constructor
  · intro found
    obtain ⟨cs, whole, rfl⟩ := Option.map_eq_some_iff.mp found
    have read : pieces v = cs.map some := allChars.mp whole
    rw [← lossyRead read]
    exact lossyFaultless (by simp [read])
  · rintro rfl
    rw [strict?, encodedRead, allChars.mpr rfl, Option.map_some, String.ofList_toList]

instance : DecidablePred WellFormed := fun v =>
  decidable_of_iff ((strict? v).isSome = true) <| by
    rw [Option.isSome_iff_exists]
    exact exists_congr fun _ => strictIff

theorem shownIffWellFormed {v : Bytes} : encode (lossy v) = v ↔ WellFormed v := by
  constructor
  · exact fun same => ⟨lossy v, same⟩
  · rintro ⟨text, rfl⟩
    rw [lossyEncoded]

end ScanEngine.Text
