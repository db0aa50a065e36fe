import ScanEngine.Header.Lookup
import ScanEngine.Text.Quoted
import ScanEngine.Text.Utf8

/-! The engine's version as its header defines it, and the guard that admits a version.
A header without a micro version has micro 0. -/
namespace ScanEngine

open Header (VersionMacro Reading)

structure Version where
  major : UInt32
  minor : UInt32
  micro : UInt32
  deriving DecidableEq, Repr

inductive VersionError where
  | missing (m : VersionMacro)
  | invalid (m : VersionMacro) (value : Bytes)
  | unsupported (found : Version) (supported : UInt32)
  deriving DecidableEq, Repr

inductive Compatibility where
  | supported | newer
  deriving DecidableEq, Repr

namespace Version

def supportedMajor : UInt32 := 4

def current : Version := ⟨4, 5, 2⟩

def display (v : Version) : String := s!"{v.major}.{v.minor}.{v.micro}"

def order (a b : Version) : Ordering :=
  ((compare a.major b.major).then (compare a.minor b.minor)).then (compare a.micro b.micro)

def macroValue? (m : VersionMacro) (header : Bytes) : Except VersionError (Option UInt32) :=
  match Header.lookup m header with
  | none => .ok none
  | some (.number n) => .ok (some n)
  | some (.invalid value) => .error (.invalid m value)

def requiredValue (m : VersionMacro) (header : Bytes) : Except VersionError UInt32 := do
  match ← macroValue? m header with
  | some n => .ok n
  | none => .error (.missing m)

theorem requiredFound {m : VersionMacro} {header : Bytes} {n : UInt32}
    (found : macroValue? m header = .ok (some n)) : requiredValue m header = .ok n := by
  rw [requiredValue, found]
  rfl

theorem requiredMissing {m : VersionMacro} {header : Bytes}
    (absent : macroValue? m header = .ok none) :
    requiredValue m header = .error (.missing m) := by
  rw [requiredValue, absent]
  rfl

def ofHeader (header : Bytes) : Except VersionError Version := do
  let major ← requiredValue .major header
  let minor ← requiredValue .minor header
  let micro ← macroValue? .micro header
  .ok ⟨major, minor, micro.getD 0⟩

def check (v : Version) : Except VersionError Compatibility :=
  match compare v.major supportedMajor with
  | .eq => .ok .supported
  | .gt => .ok .newer
  | .lt => .error (.unsupported v supportedMajor)

def checkHeader (header : Bytes) : Except VersionError (Version × Compatibility) := do
  let version ← ofHeader header
  let compatibility ← check version
  .ok (version, compatibility)

end Version

namespace VersionError

def message : VersionError → String
  | missing m => s!"yara version macro not defined: {m.name}"
  | invalid m value =>
    s!"yara version macro {m.name} has invalid value {Text.quoted (Text.lossy value)}"
  | unsupported found supported =>
    s!"yara {found.display} is not supported: only yara v{supported} is supported"

end VersionError
end ScanEngine
