/-! Byte strings and the ASCII classes that headers are read by.
Blanks are space, tab, line feed, form feed and carriage return, so a vertical tab is no blank. -/
namespace ScanEngine

abbrev Bytes := List UInt8

namespace Bytes

/-- The bytes of an ASCII text; wider characters keep their low eight bits. -/
def ofAscii (text : String) : Bytes := text.toList.map (fun c => c.toNat.toUInt8)

def newline : UInt8 := 0x0a

def isBlank (b : UInt8) : Bool := b == 0x20 || b == 0x09 || b == 0x0a || b == 0x0c || b == 0x0d

def isDigit (b : UInt8) : Bool := 0x30 ≤ b && b ≤ 0x39

def isLetter (b : UInt8) : Bool := (0x41 ≤ b && b ≤ 0x5a) || (0x61 ≤ b && b ≤ 0x7a)

def isNameByte (b : UInt8) : Bool := isLetter b || isDigit b || b == 0x5f

def trimStart (v : Bytes) : Bytes := v.dropWhile isBlank

def trimEnd (v : Bytes) : Bytes := (v.reverse.dropWhile isBlank).reverse

def trim (v : Bytes) : Bytes := trimEnd (trimStart v)

theorem trimLength (v : Bytes) : (trim v).length ≤ v.length := by
  have front := (List.dropWhile_sublist isBlank (l := v)).length_le
  have back := (List.dropWhile_sublist isBlank (l := (trimStart v).reverse)).length_le
  simp only [trim, trimEnd, List.length_reverse] at back ⊢
  exact Nat.le_trans back front

def after? (mark : Bytes) (v : Bytes) : Option Bytes :=
  if mark.isPrefixOf v then some (v.drop mark.length) else none

def contains (needle : Bytes) : Bytes → Bool
  | [] => needle.isEmpty
  | b :: rest => needle.isPrefixOf (b :: rest) || contains needle rest

def afterLast? (needle : Bytes) : Bytes → Option Bytes
  | [] => if needle.isEmpty then some [] else none
  | b :: rest => (afterLast? needle rest).or (after? needle (b :: rest))

def splitOn (mark : UInt8) : Bytes → List Bytes
  | [] => [[]]
  | b :: rest =>
    if b = mark then [] :: splitOn mark rest
    else match splitOn mark rest with
      | [] => [[b]]
      | piece :: more => (b :: piece) :: more

theorem splitOnEnded {mark : UInt8} {piece : Bytes} (plain : mark ∉ piece) (v : Bytes) :
    splitOn mark (piece ++ mark :: v) = piece :: splitOn mark v := by
  induction piece with
  | nil => rw [List.nil_append, splitOn, if_pos rfl]
  | cons b piece ih =>
    obtain ⟨inner, plain⟩ := List.ne_and_not_mem_of_not_mem_cons plain
    rw [List.cons_append, splitOn, if_neg (Ne.symm inner), ih plain]

theorem splitOnWhole {mark : UInt8} {piece : Bytes} (plain : mark ∉ piece) :
    splitOn mark piece = [piece] := by
  induction piece with
  | nil => rfl
  | cons b piece ih =>
    obtain ⟨inner, plain⟩ := List.ne_and_not_mem_of_not_mem_cons plain
    rw [splitOn, if_neg (Ne.symm inner), ih plain]

def lines (v : Bytes) : List Bytes := splitOn newline v

def hexDigit (n : Nat) : Char := (Nat.toDigits 16 (n % 16)).headD '0'

def hex (v : Bytes) : String :=
  String.ofList (v.flatMap fun b => [hexDigit (b.toNat / 16), hexDigit b.toNat])

def unhexDigit? (c : Char) : Option Nat :=
  if '0' ≤ c ∧ c ≤ '9' then some (c.toNat - '0'.toNat)
  else if 'a' ≤ c ∧ c ≤ 'f' then some (c.toNat - 'a'.toNat + 10)
  else if 'A' ≤ c ∧ c ≤ 'F' then some (c.toNat - 'A'.toNat + 10)
  else none

def unhexList? : List Char → Option Bytes
  | [] => some []
  | [_] => none
  | a :: b :: rest => do
    let high ← unhexDigit? a
    let low ← unhexDigit? b
    let tail ← unhexList? rest
    some ((high * 16 + low).toUInt8 :: tail)

def unhex? (text : String) : Option Bytes := unhexList? text.toList

end Bytes
end ScanEngine
