import ScanEngine.Bytes

/-! Integer values of macros: decimal digits with a suffix of unsigned and long letters, inside any
depth of parentheses. `readNumber?` peels and reads; `Numeral` is the grammar it answers to. -/
namespace ScanEngine.Header

def openParen : UInt8 := 0x28

def closeParen : UInt8 := 0x29

def isSuffix (b : UInt8) : Bool := b == 0x75 || b == 0x55 || b == 0x6c || b == 0x4c

def digitValue (b : UInt8) : Nat := b.toNat - 0x30

def decimal (digits : Bytes) : Nat := digits.foldl (fun n b => n * 10 + digitValue b) 0

def inside? : Bytes → Option Bytes
  | [] => none
  | b :: rest =>
    if b = openParen ∧ rest.getLast? = some closeParen then some rest.dropLast else none

theorem insideShorter {v inner : Bytes} (h : inside? v = some inner) : inner.length < v.length := by
  cases v with
  | nil => simp [inside?] at h
  | cons b rest =>
    simp only [inside?] at h
    split at h <;> try contradiction
    cases Option.some.inj h
    simp only [List.length_dropLast, List.length_cons]
    omega

def peel (v : Bytes) : Bytes :=
  match _found : inside? v with
  | some inner => peel (Bytes.trim inner)
  | none => v
termination_by v.length
decreasing_by exact Nat.lt_of_le_of_lt (Bytes.trimLength inner) (insideShorter _found)

def readDigits? (v : Bytes) : Option UInt32 :=
  let digits := v.takeWhile Bytes.isDigit
  if digits ≠ [] ∧ (v.dropWhile Bytes.isDigit).all isSuffix ∧ decimal digits < UInt32.size then
    some (UInt32.ofNat (decimal digits))
  else none

def readNumber? (v : Bytes) : Option UInt32 := readDigits? (peel v)

inductive Numeral : Bytes → UInt32 → Prop where
  | plain {digits suffix : Bytes} {n : UInt32} (nonempty : digits ≠ [])
      (decimals : ∀ b ∈ digits, Bytes.isDigit b) (letters : ∀ b ∈ suffix, isSuffix b)
      (value : decimal digits = n.toNat) : Numeral (digits ++ suffix) n
  | paren {before inner after : Bytes} {n : UInt32} (left : ∀ b ∈ before, Bytes.isBlank b)
      (nested : Numeral inner n) (right : ∀ b ∈ after, Bytes.isBlank b) :
      Numeral (openParen :: before ++ inner ++ after ++ [closeParen]) n

end ScanEngine.Header
