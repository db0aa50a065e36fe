import ScanEngine.Rule.Table
import ScanEngine.Setting.Basic
import ScanEngine.Stream.Elements

/-! What can be seen of an operation from outside, in order: calls to the engine with what it
answered, served requests on readers and writers, answers to the engine's callbacks, and log records.
Compilers and rulesets are named by the numbers under which the engine handed them out. -/
namespace ScanEngine

inductive Routine where
  | setUp | tearDown | createCompiler | addText | addFile
  | defineBoolean | defineInteger | defineFloat | defineText
  | takeRules | loadRules | loadStream | destroyRules | saveRules | saveStream
  | scanMemory | scanFile
  | setWord | setLong | getWord | getLong
  deriving DecidableEq, Repr

inductive External where
  | boolean (value : Bool)
  | integer (value : Int64)
  | float (bits : UInt64)
  | text (value : Bytes)
  deriving DecidableEq, Repr

structure ScanOptions where
  flags : ScanFlags
  timeout : UInt16
  deriving DecidableEq, Repr

inductive Call where
  | setUp
  | tearDown
  | createCompiler
  | destroyCompiler (compiler : Nat)
  | setCallback (compiler : Nat) (callback userData : Bool)
  | addText (compiler : Nat) (source : Bytes) (space : Option Bytes)
  | addFile (compiler : Nat) (content : Bytes) (space : Option Bytes) (fileName : Bytes)
  | define (compiler : Nat) (identifier : Bytes) (value : External)
  | takeRules (compiler : Nat)
  | loadRules (fileName : Bytes)
  | loadStream (reads writes : Bool)
  | destroyRules (ruleset : Nat)
  | saveRules (ruleset : Nat) (fileName : Bytes)
  | saveStream (ruleset : Nat) (reads writes : Bool)
  | scanMemory (ruleset : Nat) (options : ScanOptions) (content : Bytes)
  | scanFile (ruleset : Nat) (options : ScanOptions) (content : Bytes)
  | setConfig (setting : Setting) (value : Nat)
  | getConfig (setting : Setting)
  deriving DecidableEq, Repr

def Call.routine? : Call → Option Routine
  | setUp => some .setUp
  | tearDown => some .tearDown
  | createCompiler => some .createCompiler
  | destroyCompiler _ => none
  | setCallback _ _ _ => none
  | addText _ _ _ => some .addText
  | addFile _ _ _ _ => some .addFile
  | define _ _ (.boolean _) => some .defineBoolean
  | define _ _ (.integer _) => some .defineInteger
  | define _ _ (.float _) => some .defineFloat
  | define _ _ (.text _) => some .defineText
  | takeRules _ => some .takeRules
  | loadRules _ => some .loadRules
  | loadStream _ _ => some .loadStream
  | destroyRules _ => some .destroyRules
  | saveRules _ _ => some .saveRules
  | saveStream _ _ _ => some .saveStream
  | scanMemory _ _ _ => some .scanMemory
  | scanFile _ _ _ => some .scanFile
  | setConfig s _ => some (match s.width with | .word => .setWord | .long => .setLong)
  | getConfig s => some (match s.width with | .word => .getWord | .long => .getLong)

/-- What the engine answers: a status, zero where it reports none, and the number of the compiler
or ruleset it hands out with it. -/
structure Answer where
  status : Int32
  handedOut : Option Nat
  deriving DecidableEq, Repr

inductive Severity where
  | trace | debug | warn
  deriving DecidableEq, Repr

inductive Event where
  | call (c : Call) (answer : Answer)
  | log (severity : Severity) (message : String)
  | filled (f : Filling)
  | drained (d : Draining)
  | flushed (reply : Reply Unit)
  | scanCallback (returned : Int32)
  deriving DecidableEq, Repr

abbrev Trace := List Event

def Trace.calls (t : Trace) : List Call :=
  t.filterMap fun
    | .call c _ => some c
    | _ => none

theorem Trace.callsAppend (t u : Trace) : Trace.calls (t ++ u) = t.calls ++ u.calls :=
  List.filterMap_append

end ScanEngine
