/-! The engine's process-wide settings: four cells, each with a value the engine starts with. -/
namespace ScanEngine

inductive Setting where
  | stackSize | maxStringsPerRule | maxMatchData | maxProcessMemoryChunk
  deriving DecidableEq, Repr

inductive Width where
  | word | long
  deriving DecidableEq, Repr

namespace Setting

def number : Setting → Nat
  | stackSize => 0
  | maxStringsPerRule => 1
  | maxMatchData => 2
  | maxProcessMemoryChunk => 3

def width : Setting → Width
  | stackSize | maxStringsPerRule | maxMatchData => .word
  | maxProcessMemoryChunk => .long

def initial : Setting → Nat
  | stackSize => 16384
  | maxStringsPerRule => 10000
  | maxMatchData => 512
  | maxProcessMemoryChunk => 1073741824

end Setting

structure Settings where
  stackSize : Nat := Setting.stackSize.initial
  maxStringsPerRule : Nat := Setting.maxStringsPerRule.initial
  maxMatchData : Nat := Setting.maxMatchData.initial
  maxProcessMemoryChunk : Nat := Setting.maxProcessMemoryChunk.initial
  deriving DecidableEq, Repr

namespace Settings

def get (cells : Settings) : Setting → Nat
  | .stackSize => cells.stackSize
  | .maxStringsPerRule => cells.maxStringsPerRule
  | .maxMatchData => cells.maxMatchData
  | .maxProcessMemoryChunk => cells.maxProcessMemoryChunk

def set (cells : Settings) (value : Nat) : Setting → Settings
  | .stackSize => { cells with stackSize := value }
  | .maxStringsPerRule => { cells with maxStringsPerRule := value }
  | .maxMatchData => { cells with maxMatchData := value }
  | .maxProcessMemoryChunk => { cells with maxProcessMemoryChunk := value }

theorem getInitial (s : Setting) : (({} : Settings).get s) = s.initial := by cases s <;> rfl

theorem getSet (cells : Settings) (value : Nat) (s t : Setting) :
    (cells.set value s).get t = if s = t then value else cells.get t := by
  cases s <;> cases t <;> rfl

end Settings
end ScanEngine
