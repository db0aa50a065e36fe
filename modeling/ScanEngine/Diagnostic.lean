import ScanEngine.Text.Utf8

/-! Diagnostics of the rule compiler. A raw report has a level code, and its texts are C strings;
a level code that is neither error nor warning counts as an error. -/
namespace ScanEngine

inductive Level where
  | error | warning
  deriving DecidableEq, Repr

namespace Level

def ofCode? (code : Int32) : Option Level :=
  if code = 0 then some error else if code = 1 then some warning else none

def word : Level → String
  | error => "error"
  | warning => "warning"

end Level

structure Report where
  level : Int32
  file : Option Bytes
  line : Int32
  message : Option Bytes
  deriving DecidableEq, Repr

structure Diagnostic where
  level : Level
  file : Option String
  line : Nat
  text : String
  deriving DecidableEq, Repr

namespace Diagnostic

def ofReport (r : Report) : Diagnostic where
  level := (Level.ofCode? r.level).getD .error
  file := r.file.map fun file => Text.lossy (Text.terminated file)
  line := r.line.toInt.toNat
  text := (r.message.map fun message => Text.lossy (Text.terminated message)).getD ""

def display (d : Diagnostic) : String :=
  let place := match d.file with
    | some file => s!"in {file} "
    | none => ""
  s!"compile {d.level.word} {place}at line {d.line}: {d.text}"

def isError (d : Diagnostic) : Bool := d.level == .error

def isWarning (d : Diagnostic) : Bool := d.level == .warning

end Diagnostic

structure Diagnostics where
  entries : List Diagnostic
  deriving DecidableEq, Repr

namespace Diagnostics

def firstError? (d : Diagnostics) : Option Diagnostic := d.entries.find? Diagnostic.isError

def display (d : Diagnostics) : String :=
  if d.entries.isEmpty then "rule compilation failed"
  else "\n".intercalate (d.entries.map Diagnostic.display)

def causes (d : Diagnostics) : List String := d.firstError?.toList.map Diagnostic.display

end Diagnostics
end ScanEngine
