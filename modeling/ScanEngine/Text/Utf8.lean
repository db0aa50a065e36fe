import ScanEngine.Bytes

/-! Decoding of UTF-8. Every byte string splits into characters and faults, where a fault is a
maximal start of a character that the next byte does not continue, or one byte that starts none.
Lossy text shows each fault as U+FFFD; strict text exists only where there is no fault. -/
namespace ScanEngine.Text

/-- A started character: the bits so far, the range the next byte must lie in, and how many bytes
follow that one. -/
structure Partial where
  bits : Nat
  low : UInt8
  high : UInt8
  more : Nat
  deriving DecidableEq, Repr

def start (b : UInt8) : List (Option Char) × Option Partial :=
  if b < 0x80 then ([some (Char.ofNat b.toNat)], none)
  else if b < 0xc2 then ([none], none)
  else if b < 0xe0 then ([], some ⟨b.toNat - 0xc0, 0x80, 0xbf, 0⟩)
  else if b < 0xf0 then
    let low := if b = 0xe0 then 0xa0 else 0x80
    let high := if b = 0xed then 0x9f else 0xbf
    ([], some ⟨b.toNat - 0xe0, low, high, 1⟩)
  else if b < 0xf5 then
    let low := if b = 0xf0 then 0x90 else 0x80
    let high := if b = 0xf4 then 0x8f else 0xbf
    ([], some ⟨b.toNat - 0xf0, low, high, 2⟩)
  else ([none], none)

def step (opened : Option Partial) (b : UInt8) : List (Option Char) × Option Partial :=
  match opened with
  | none => start b
  | some p =>
    if p.low ≤ b ∧ b ≤ p.high then
      let bits := p.bits * 64 + (b.toNat - 0x80)
      match p.more with
      | 0 => ([some (Char.ofNat bits)], none)
      | more + 1 => ([], some ⟨bits, 0x80, 0xbf, more⟩)
    else (none :: (start b).1, (start b).2)

def piecesFrom (opened : Option Partial) : Bytes → List (Option Char)
  | [] => if opened.isSome then [none] else []
  | b :: rest => (step opened b).1 ++ piecesFrom (step opened b).2 rest

def pieces (v : Bytes) : List (Option Char) := piecesFrom none v

def replacement : Char := '\ufffd'

def lossy (v : Bytes) : String := String.ofList ((pieces v).map (·.getD replacement))

def strict? (v : Bytes) : Option String := ((pieces v).mapM id).map String.ofList

def encode (text : String) : Bytes := text.toList.flatMap String.utf8EncodeChar

def terminated (v : Bytes) : Bytes := v.takeWhile (· != 0)

end ScanEngine.Text
