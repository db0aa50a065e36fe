import ScanEngine.Version

/-! Writing a version as a header. A layout fixes everything about a define line that reading it back
is meant to ignore; between define lines other lines may stand that define none of the names and
open no comment. -/
namespace ScanEngine.Header

inductive Remark where
  | line (text : Bytes)
  | block (text : Bytes)
  deriving DecidableEq, Repr

structure Layout where
  indent : Bytes
  hashGap : Bytes
  wordGap : Bytes
  nameGap : Bytes
  parens : List (Bytes × Bytes)
  zeros : Nat
  suffix : Bytes
  valueGap : Bytes
  remark : Option Remark
  deriving DecidableEq, Repr

def isSpace (b : UInt8) : Bool := b == 0x20 || b == 0x09

namespace Remark

def bytes : Remark → Bytes
  | line text => slash :: slash :: text
  | block text => blockOpener ++ text ++ blockCloser

def text : Remark → Bytes
  | line text | block text => text

end Remark

def decimalDigits (n : Nat) : Bytes := (Nat.toDigits 10 n).map fun c => c.toNat.toUInt8

def enclose (value : Bytes) : List (Bytes × Bytes) → Bytes
  | [] => value
  | (left, right) :: inner => openParen :: left ++ enclose value inner ++ right ++ [closeParen]

namespace Layout

def value (l : Layout) (n : UInt32) : Bytes :=
  enclose (List.replicate l.zeros 0x30 ++ decimalDigits n.toNat ++ l.suffix) l.parens

def line (l : Layout) (m : VersionMacro) (n : UInt32) : Bytes :=
  l.indent ++ hash ++ l.hashGap ++ word ++ l.wordGap ++ m.bytes ++ l.nameGap ++ l.value n ++
    l.valueGap ++ (l.remark.map Remark.bytes).getD []

structure Valid (l : Layout) : Prop where
  spaces : ∀ gap ∈ [l.indent, l.hashGap, l.wordGap, l.nameGap, l.valueGap], ∀ b ∈ gap, isSpace b
  separated : l.wordGap ≠ [] ∧ l.nameGap ≠ []
  inner : ∀ pair ∈ l.parens, ∀ b ∈ pair.1 ++ pair.2, isSpace b
  letters : ∀ b ∈ l.suffix, isSuffix b
  plain : ∀ r ∈ l.remark, ∀ b ∈ r.text, b ≠ Bytes.newline ∧ b ≠ slash ∧ b ≠ star

end Layout

inductive Item where
  | define (m : VersionMacro) (layout : Layout)
  | other (line : Bytes)
  deriving DecidableEq, Repr

namespace Item

def component (v : Version) : VersionMacro → UInt32
  | .major => v.major
  | .minor => v.minor
  | .micro => v.micro

def line (v : Version) : Item → Bytes
  | define m layout => layout.line m (component v m)
  | other line => line

def macro? : Item → Option VersionMacro
  | define m _ => some m
  | other _ => none

def Valid : Item → Prop
  | define _ layout => layout.Valid
  | other line => Bytes.newline ∉ line ∧ Bytes.contains blockOpener line = false ∧
      ∀ d, Define.ofLine? line = some d → ∀ m : VersionMacro, d.name ≠ m.bytes

end Item

/-- The lines with their ends, where `true` stands for a carriage return before the newline; the
last line may lack its end. -/
def render (v : Version) (closed : Bool) : List (Item × Bool) → Bytes
  | [] => []
  | [(item, feed)] => item.line v ++ if closed then lineEnd feed else []
  | (item, feed) :: rest => item.line v ++ lineEnd feed ++ render v closed rest
where
  lineEnd (feed : Bool) : Bytes := if feed then [0x0d, Bytes.newline] else [Bytes.newline]

end ScanEngine.Header
