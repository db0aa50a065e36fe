import ScanEngine.EngineError
import ScanEngine.Diagnostic

/-! Everything an operation can fail with: an engine status, compiler diagnostics, a fault of a
file or stream, or a text with a zero byte, which cannot be passed as a C string. -/
namespace ScanEngine

inductive FaultKind where
  | notFound | permissionDenied | unexpectedEof | writeZero | brokenPipe | invalidData | timedOut
  | interrupted | wouldBlock | other
  deriving DecidableEq, Repr

def FaultKind.text : FaultKind → String
  | notFound => "entity not found"
  | permissionDenied => "permission denied"
  | unexpectedEof => "unexpected end of file"
  | writeZero => "write zero"
  | brokenPipe => "broken pipe"
  | invalidData => "invalid data"
  | timedOut => "timed out"
  | interrupted => "operation interrupted"
  | wouldBlock => "operation would block"
  | other => "other error"

/-- A fault of a reader or writer; its own wording, if it has one, replaces that of its kind. -/
structure Fault where
  kind : FaultKind
  wording : Option String
  deriving DecidableEq, Repr

def Fault.message (f : Fault) : String := f.wording.getD f.kind.text

def Fault.nothingTaken : Fault := ⟨.writeZero, some "failed to write whole buffer"⟩

inductive Reply (α : Type) where
  | done (value : α)
  | fault (f : Fault)
  deriving DecidableEq, Repr

inductive PathFault where
  | absent | throughFile | nameTooLong | zeroByte
  deriving DecidableEq, Repr

def PathFault.message : PathFault → String
  | absent => "No such file or directory (os error 2)"
  | throughFile => "Not a directory (os error 20)"
  | nameTooLong => "File name too long (os error 36)"
  | zeroByte => "file name contained an unexpected NUL byte"

inductive Cause where
  | transfer (fault : Fault)
  | path (fault : PathFault)
  deriving DecidableEq, Repr

def Cause.message : Cause → String
  | transfer fault => fault.message
  | path fault => fault.message

inductive Activity where
  | openRulesFile | openScanFile | readingRules | writingRules
  deriving DecidableEq, Repr

def Activity.text : Activity → String
  | openRulesFile => "error while opening rules file"
  | openScanFile => "error while opening file to scan"
  | readingRules => "error while reading compiled rules"
  | writingRules => "error while writing compiled rules"

structure IoFailure where
  activity : Activity
  cause : Cause
  deriving DecidableEq, Repr

def IoFailure.display (f : IoFailure) : String := s!"{f.activity.text}: {f.cause.message}"

structure ZeroByte where
  position : Nat
  data : Bytes
  deriving DecidableEq, Repr

def ZeroByte.display (z : ZeroByte) : String :=
  s!"nul byte found in provided data at position: {z.position}"

def cString (data : Bytes) : Except ZeroByte Bytes :=
  match data.findIdx? (· == 0) with
  | some position => .error ⟨position, data⟩
  | none => .ok data

def cStringOrNull : Option Bytes → Except ZeroByte (Option Bytes)
  | none => .ok none
  | some data => (cString data).map some

inductive Failure where
  | engine (e : EngineError)
  | compile (d : Diagnostics)
  | io (f : IoFailure)
  | zeroByte (z : ZeroByte)
  deriving DecidableEq, Repr

namespace Failure

def message : Failure → String
  | engine e => e.message
  | compile d => d.display
  | io f => f.display
  | zeroByte z => s!"invalid string for yara: {z.display}"

def causes : Failure → List String
  | engine e => [e.message]
  | compile d => d.display :: d.causes
  | io f => [f.display, f.cause.message]
  | zeroByte z => [z.display]

end Failure
end ScanEngine
