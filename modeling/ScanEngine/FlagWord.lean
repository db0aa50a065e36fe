import ScanEngine.Text.Quoted

/-! Flag words. A kind of flags names some bits of a 32-bit word; a word keeps its other bits,
except where an operation says that it drops them. -/
namespace ScanEngine

structure FlagKind where
  name : String
  named : List (String × UInt32)
  deriving DecidableEq, Repr

namespace FlagKind

def every (kind : FlagKind) : UInt32 := (kind.named.map Prod.snd).foldl (· ||| ·) 0

def rule : FlagKind where
  name := "RuleFlags"
  named := [("PRIVATE", 1), ("GLOBAL", 2), ("NULL", 4), ("DISABLED", 8)]

def scan : FlagKind where
  name := "ScanFlags"
  named := [("FAST_MODE", 1), ("NO_TRYCATCH", 4), ("REPORT_RULES_MATCHING", 8),
    ("REPORT_RULES_NOT_MATCHING", 16)]

end FlagKind

structure FlagWord (kind : FlagKind) where
  word : UInt32
  deriving DecidableEq, Repr

abbrev RuleFlags := FlagWord .rule

abbrev ScanFlags := FlagWord .scan

namespace FlagWord
variable {kind : FlagKind}

def empty : FlagWord kind := ⟨0⟩

def every : FlagWord kind := ⟨kind.every⟩

def isEmpty (a : FlagWord kind) : Bool := a.word == 0

def union (a b : FlagWord kind) : FlagWord kind := ⟨a.word ||| b.word⟩

def intersection (a b : FlagWord kind) : FlagWord kind := ⟨a.word &&& b.word⟩

def difference (a b : FlagWord kind) : FlagWord kind := ⟨a.word &&& ~~~b.word⟩

def symmetricDifference (a b : FlagWord kind) : FlagWord kind := ⟨a.word ^^^ b.word⟩

def contains (a b : FlagWord kind) : Bool := a.word &&& b.word == b.word

def intersects (a b : FlagWord kind) : Bool := a.word &&& b.word != 0

def truncate (a : FlagWord kind) : FlagWord kind := ⟨a.word &&& kind.every⟩

def complement (a : FlagWord kind) : FlagWord kind := ⟨~~~a.word &&& kind.every⟩

def checked? (a : FlagWord kind) : Option (FlagWord kind) :=
  if a.word &&& ~~~kind.every = 0 then some a else none

def hasAll (a : FlagWord kind) : Bool := a.contains every

def names (a : FlagWord kind) : List String :=
  (kind.named.filter fun entry => a.contains ⟨entry.2⟩).map Prod.fst

def debug (a : FlagWord kind) : String :=
  let rest := a.word &&& ~~~kind.every
  let number := fun (w : UInt32) => "0x" ++ Text.hexNumber w.toNat
  let shown := a.names ++ (if rest = 0 then [] else [number rest])
  let body := if shown.isEmpty then number 0 else " | ".intercalate shown
  s!"{kind.name}({body})"

def signed (a : FlagWord kind) : Int := a.word.toInt32.toInt

def ofSigned (bits : Int32) : FlagWord kind := ⟨bits.toUInt32⟩

end FlagWord
end ScanEngine
