import Mathlib.Data.Nat.Digits.Defs
import ScanEngine.Header.Layout
import ScanEngine.Proofs.Header.Occurrence
import ScanEngine.Proofs.Header.Peeling

/-! Values of version macros as they are written. A written numeral may be of any size; peeling comes
down to its digits, which are read if their number fits a word. So `readNumber?` reads the grammar and
nothing else, each numeral as the number it stands for. A layout writes a numeral. -/
namespace ScanEngine.Header

theorem suffixPlain {b : UInt8} (h : isSuffix b) :
    Bytes.isDigit b = false ∧ Bytes.isBlank b = false ∧ b ≠ slash ∧ b ≠ Bytes.newline := by
  simp only [isSuffix, Bool.or_eq_true, beq_iff_eq] at h
  obtain ((rfl | rfl) | rfl) | rfl := h <;> decide

theorem digitPlain {b : UInt8} (h : Bytes.isDigit b) :
    b ≠ openParen ∧ Bytes.isBlank b = false ∧ b ≠ slash ∧ b ≠ Bytes.newline := by
  have low : (0x30 : UInt8) ≤ b := by
    simp only [Bytes.isDigit, Bool.and_eq_true, decide_eq_true_eq] at h
    exact h.1
  have other (c : UInt8) (below : c < 0x30) : b ≠ c := by
    rintro rfl
    exact absurd low (UInt8.not_le.mpr below)
  refine ⟨other _ (by decide), ?_, other _ (by decide), other _ (by decide)⟩
  simp only [Bytes.isBlank, Bool.or_eq_false_iff, beq_eq_false_iff_ne]
  exact ⟨⟨⟨⟨other _ (by decide), other _ (by decide)⟩, other _ (by decide)⟩, other _ (by decide)⟩,
    other _ (by decide)⟩

section
variable {digits suffix : Bytes} (nonempty : digits ≠ [])
  (decimals : ∀ b ∈ digits, Bytes.isDigit b) (letters : ∀ b ∈ suffix, isSuffix b)
include nonempty decimals

theorem runClosed : inside? (digits ++ suffix) = none := by
  cases digits with
  | nil => exact absurd rfl nonempty
  | cons d rest => exact if_neg fun both => (digitPlain (decimals d List.mem_cons_self)).1 both.1

include letters

theorem runSolid : Bytes.Solid (digits ++ suffix) := by
  have solid : ∀ b ∈ digits ++ suffix, Bytes.isBlank b = false := by
    intro b mem
    rcases List.mem_append.mp mem with digit | letter
    · exact (digitPlain (decimals b digit)).2.1
    · exact (suffixPlain (letters b letter)).2.1
  have some : digits ++ suffix ≠ [] := fun none => nonempty (List.append_eq_nil_iff.mp none).1
  exact ⟨⟨_, List.head?_eq_some_head some, solid _ (List.head_mem some)⟩,
    ⟨_, List.getLast?_eq_some_getLast some, solid _ (List.getLast_mem some)⟩⟩

theorem readRun : readDigits? (digits ++ suffix) =
    if decimal digits < UInt32.size then some (UInt32.ofNat (decimal digits)) else none := by
  have stop : ∀ b ∈ suffix.head?, Bytes.isDigit b = false := fun b first =>
    (suffixPlain (letters b (List.mem_of_mem_head? first))).1
  obtain ⟨front, back⟩ := Bytes.runSplit decimals stop
  have form : suffix.all isSuffix := List.all_eq_true.mpr letters
  simp only [readDigits?, front, back, nonempty, form, ne_eq, not_false_eq_true, true_and]

end

theorem decimalPlaces (digits : Bytes) :
    decimal digits = Nat.ofDigits 10 (digits.reverse.map digitValue) := by
  induction digits using List.reverseRecOn with
  | nil => rfl
  | append_singleton digits b ih =>
    have longer : decimal (digits ++ [b]) = decimal digits * 10 + digitValue b :=
      List.foldl_concat ..
    rw [longer, ih, List.reverse_concat, List.map_cons, Nat.ofDigits_cons]
    omega

/- A numeral as it stands in a text. Each pair of gaps stands for two parentheses with these blanks
inside them, the outermost first. The number may be too large for a word. -/
structure Written where
  digits : Bytes
  suffix : Bytes
  parens : List (Bytes × Bytes)
  nonempty : digits ≠ []
  decimals : ∀ b ∈ digits, Bytes.isDigit b
  letters : ∀ b ∈ suffix, isSuffix b
  blanks : ∀ pair ∈ parens, ∀ b ∈ pair.1 ++ pair.2, Bytes.isBlank b

section
variable {core : Bytes} {parens : List (Bytes × Bytes)}

theorem encloseSolid (solid : Bytes.Solid core) : Bytes.Solid (enclose core parens) := by
  cases parens with
  | nil => exact solid
  | cons pair parens => exact pairSolid _

variable (blanks : ∀ pair ∈ parens, ∀ b ∈ pair.1 ++ pair.2, Bytes.isBlank b)
include blanks

theorem enclosePeeled (closed : inside? core = none) (solid : Bytes.Solid core) :
    Peeled parens.length (enclose core parens) core := by
  induction parens with
  | nil => exact .bare (bareIff.mp closed)
  | cons pair parens ih =>
    obtain ⟨outer, blanks⟩ := List.forall_mem_cons.mp blanks
    obtain ⟨before, after⟩ := List.forall_mem_append.mp outer
    have rest := ih blanks
    rw [← Bytes.trimPadded before (encloseSolid solid) after] at rest
    exact .round rfl rest

theorem encloseNumeral {n : UInt32} (inner : Numeral core n) : Numeral (enclose core parens) n := by
  induction parens with
  | nil => exact inner
  | cons pair parens ih =>
    obtain ⟨outer, blanks⟩ := List.forall_mem_cons.mp blanks
    obtain ⟨before, after⟩ := List.forall_mem_append.mp outer
    exact .paren before (ih blanks) after

end

namespace Written
variable (w : Written)

def core : Bytes := w.digits ++ w.suffix

def text : Bytes := enclose w.core w.parens

def number : Nat := Nat.ofDigits 10 (w.digits.reverse.map digitValue)

theorem solid : Bytes.Solid w.text :=
  encloseSolid (runSolid w.nonempty w.decimals w.letters)

theorem peeled : Peeled w.parens.length w.text w.core :=
  enclosePeeled w.blanks (runClosed w.nonempty w.decimals)
    (runSolid w.nonempty w.decimals w.letters)

theorem read : readNumber? w.text =
    if w.number < UInt32.size then some (UInt32.ofNat w.number) else none := by
  rw [readNumber?, w.peeled.reached, core, readRun w.nonempty w.decimals w.letters, decimalPlaces,
    number]

theorem numeral {n : UInt32} (fits : w.number = n.toNat) : Numeral w.text n :=
  encloseNumeral w.blanks
    (.plain w.nonempty w.decimals w.letters ((decimalPlaces _).trans fits))

end Written

theorem numeralWritten {v : Bytes} {n : UInt32} (h : Numeral v n) :
    ∃ w : Written, w.text = v ∧ w.number = n.toNat := by
  induction h with
  | plain nonempty decimals letters value =>
    exact ⟨⟨_, _, [], nonempty, decimals, letters, List.forall_mem_nil _⟩, rfl,
      (decimalPlaces _).symm.trans value⟩
  | @paren before inner after n left nested right ih =>
    obtain ⟨w, rfl, value⟩ := ih
    have outer : ∀ b ∈ before ++ after, Bytes.isBlank b :=
      List.forall_mem_append.mpr ⟨left, right⟩
    exact ⟨{ w with
      parens := (before, after) :: w.parens
      blanks := List.forall_mem_cons.mpr ⟨outer, w.blanks⟩ }, rfl, value⟩

theorem numeralSolid {v : Bytes} {n : UInt32} (h : Numeral v n) : Bytes.Solid v := by
  obtain ⟨w, rfl, -⟩ := numeralWritten h
  exact w.solid

theorem readNumeral {v : Bytes} {n : UInt32} (h : Numeral v n) : readNumber? v = some n := by
  obtain ⟨w, rfl, value⟩ := numeralWritten h
  have fits : w.number < UInt32.size := value ▸ n.toNat_lt
  rw [w.read, if_pos fits, value, UInt32.ofNat_toNat]

theorem digitsRead {v : Bytes} {n : UInt32} (read : readDigits? v = some n) : Numeral v n := by
  simp only [readDigits?] at read
  split at read <;> try contradiction
  rename_i all
  obtain ⟨nonempty, letters, fits⟩ := all
  cases Option.some.inj read
  have decimals : ∀ b ∈ v.takeWhile Bytes.isDigit, Bytes.isDigit b :=
    List.all_eq_true.mp List.all_takeWhile
  have numeral := Numeral.plain nonempty decimals (List.all_eq_true.mp letters)
    (UInt32.toNat_ofNat_of_lt fits).symm
  rwa [List.takeWhile_append_dropWhile] at numeral

theorem numeralRead {v : Bytes} {n : UInt32} (read : readNumber? v = some n) : Numeral v n := by
  unfold readNumber? at read
  induction v using peel.induct with
  | case1 v inner found ih =>
    rw [peelInside found] at read
    obtain ⟨left, right, whole, before, after⟩ := Bytes.trimBetween inner
    have numeral := Numeral.paren before (ih read) after
    rw [List.cons_append, List.cons_append, ← whole, ← insideIff.mp found] at numeral
    exact numeral
  | case2 v none =>
    rw [peelPlain none] at read
    exact digitsRead read

theorem numeralIff {v : Bytes} {n : UInt32} : readNumber? v = some n ↔ Numeral v n :=
  ⟨numeralRead, readNumeral⟩

theorem numeralNone {v : Bytes} : readNumber? v = none ↔ ∀ n, ¬Numeral v n := by
  simp only [← numeralIff, Option.eq_none_iff_forall_ne_some]

/- What is read is what the grammar has, in numbers up to the widest word. A written numeral has its
digits at the bottom of its parentheses; peeling comes down to them in as many rounds, and a number too
large is not read at all. Peeling ends from any bytes, in one way and within half of their length. -/
theorem numeralsReadExactly (v : Bytes) :
    (∀ n, readNumber? v = some n ↔ Numeral v n) ∧
    (∀ n, Numeral v n ↔ ∃ w : Written, w.text = v ∧ w.number = n.toNat) ∧
    (∀ w : Written, w.text = v → Peeled w.parens.length v w.core ∧
      readNumber? v = if w.number < UInt32.size then some (UInt32.ofNat w.number) else none) ∧
    ∃ rounds, Peeled rounds v (peel v) ∧ 2 * rounds ≤ v.length ∧
      ∀ others last, Peeled others v last → others = rounds ∧ last = peel v := by
  refine ⟨fun n => numeralIff, fun n => ⟨numeralWritten, ?_⟩, ?_, ?_⟩
  · rintro ⟨w, rfl, fits⟩
    exact w.numeral fits
  · rintro w rfl
    exact ⟨w.peeled, w.read⟩
  · obtain ⟨rounds, ends⟩ := peelEnds v
    exact ⟨rounds, ends, Nat.le_of_add_right_le ends.shortened, fun _ _ => ends.oneWay⟩

example : ["((\t0007uL ))", "(4)(5)", "()", "(", "((4)", "4294967296"].map
    (fun text => readNumber? (Bytes.ofAscii text)) = [some 7, none, none, none, none, none] := by
  decide +kernel

theorem decimalPadded (zeros : Nat) (digits : Bytes) :
    decimal (List.replicate zeros 0x30 ++ digits) = decimal digits := by
  induction zeros with
  | zero => rfl
  | succ zeros ih => exact ih

theorem digitByte {c : Char} (h : c.isDigit) :
    Bytes.isDigit c.toNat.toUInt8 ∧ digitValue c.toNat.toUInt8 = c.toNat - '0'.toNat := by
  have range : 0x30 ≤ c.toNat ∧ c.toNat ≤ 0x39 := by
    simp only [Char.isDigit, Bool.and_eq_true, decide_eq_true_eq] at h
    exact h
  have kept : c.toNat.toUInt8.toNat = c.toNat := by
    rw [UInt8.toNat_ofNat']
    exact Nat.mod_eq_of_lt (by omega)
  constructor
  · simp only [Bytes.isDigit, Bool.and_eq_true, decide_eq_true_eq, UInt8.le_iff_toNat_le, kept]
    exact range
  · rw [digitValue, kept]
    rfl

theorem decimalDigitsOnly (n : Nat) : ∀ b ∈ decimalDigits n, Bytes.isDigit b := by
  intro b mem
  obtain ⟨c, inside, rfl⟩ := List.mem_map.mp mem
  exact (digitByte (Nat.isDigit_of_mem_toDigits (by decide) (by decide) inside)).1

theorem decimalWritten (n : Nat) : decimal (decimalDigits n) = n := by
  have digits : ∀ c ∈ Nat.toDigits 10 n, c.isDigit := fun c mem =>
    Nat.isDigit_of_mem_toDigits (by decide) (by decide) mem
  have same (cs : List Char) (all : ∀ c ∈ cs, c.isDigit) (start : Nat) :
      (cs.map fun c => c.toNat.toUInt8).foldl (fun n b => n * 10 + digitValue b) start =
        Nat.ofDigitChars 10 cs start := by
    induction cs generalizing start with
    | nil => rfl
    | cons c cs ih =>
      obtain ⟨first, all⟩ := List.forall_mem_cons.mp all
      rw [List.map_cons, List.foldl_cons, ih all, (digitByte first).2, Nat.mul_comm]
      rfl
  rw [decimal, decimalDigits, same _ digits]
  exact Nat.ofDigitChars_toDigits (by decide) (by decide)

theorem spaceBlank {b : UInt8} (h : isSpace b) :
    Bytes.isBlank b ∧ b ≠ slash ∧ b ≠ Bytes.newline ∧ Bytes.isNameByte b = false := by
  simp only [isSpace, Bool.or_eq_true, beq_iff_eq] at h
  obtain rfl | rfl := h <;> decide

theorem layoutNumeral {l : Layout} (valid : l.Valid) (n : UInt32) : Numeral (l.value n) n := by
  have zeros : ∀ b ∈ List.replicate l.zeros (0x30 : UInt8), Bytes.isDigit b := fun b mem =>
    List.eq_of_mem_replicate mem ▸ rfl
  have some : decimalDigits n.toNat ≠ [] := fun none =>
    Nat.toDigits_ne_nil (List.map_eq_nil_iff.mp none)
  have digits : Numeral
      (List.replicate l.zeros 0x30 ++ decimalDigits n.toNat ++ l.suffix) n :=
    .plain (fun none => some (List.append_eq_nil_iff.mp none).2)
      (fun b mem => (List.mem_append.mp mem).elim (zeros b) (decimalDigitsOnly _ b))
      valid.letters ((decimalPadded _ _).trans (decimalWritten _))
  exact encloseNumeral (fun pair mem b inside => (spaceBlank (valid.inner pair mem b inside)).1)
    digits

end ScanEngine.Header
