import ScanEngine.Header.Comment

/-! Define lines. A line defines a name when, blanks aside, it starts with a hash and the word
`define`, at least one blank, and then the name. The value is what stands before the next slash,
so a division is cut short exactly as a comment is; `uncommented` cuts at a comment only. -/
namespace ScanEngine.Header

structure Define where
  name : Bytes
  tail : Bytes
  deriving DecidableEq, Repr

def hash : Bytes := [0x23]

def word : Bytes := Bytes.ofAscii "define"

def Define.ofLine? (line : Bytes) : Option Define := do
  let afterHash ← Bytes.after? hash (Bytes.trim line)
  let afterWord ← Bytes.after? word (Bytes.trimStart afterHash)
  if (afterWord.head?.map Bytes.isBlank).getD false then
    let rest := Bytes.trimStart afterWord
    some ⟨rest.takeWhile Bytes.isNameByte, rest.dropWhile Bytes.isNameByte⟩
  else none

def Define.value (d : Define) : Bytes := Bytes.trim (d.tail.takeWhile (· != slash))

def uncommented : Bytes → Bytes
  | [] => []
  | [b] => [b]
  | a :: b :: rest =>
    if a = slash ∧ (b = slash ∨ b = star) then [] else a :: uncommented (b :: rest)

def Define.fullValue (d : Define) : Bytes := Bytes.trim (uncommented d.tail)

end ScanEngine.Header
