import ScanEngine.Operation

/-! What a trace says about statuses: which calls an operation answers for, which warnings are due
for the others, and whether a reader, a writer or a flush failed on the way. -/
namespace ScanEngine

namespace Call

def cleansUp : Call → Bool
  | tearDown | destroyRules _ => true
  | _ => false

def isMain (c : Call) : Bool := c.routine?.isSome && !c.cleansUp

def withheldError? : Call → Option EngineError
  | createCompiler => some .insufficientMemory
  | takeRules _ | loadRules _ | loadStream _ _ => some .internalFatalError
  | _ => none

/-- The error that an answer amounts to, if it does: its status, or else what it withholds. -/
def error? (c : Call) (a : Answer) : Option EngineError :=
  (EngineError.ofCode? a.status).or (if a.handedOut.isSome then none else c.withheldError?)

end Call

namespace Event

def main? : Event → Option (Call × Answer)
  | call c answer => if c.isMain then some (c, answer) else none
  | _ => none

def warning? : Event → Option String
  | log .warn message => some message
  | _ => none

def brokeTransfer : Event → Bool
  | filled f => f.failed
  | drained d => d.failed
  | flushed (.fault _) => true
  | _ => false

/-- The warnings that an event gives rise to: one for a clean-up call that failed, and for an
addition those among its diagnostics. -/
def warningsDue (s : Script) : Event → List String
  | call .tearDown answer =>
    (EngineError.ofCode? answer.status).toList.map fun e =>
      s!"libyara finalization failed: {e.message}"
  | call (.destroyRules _) answer =>
    (EngineError.ofCode? answer.status).toList.map fun e => s!"destroying rules failed: {e.message}"
  | call (.addText _ _ _) _ | call (.addFile _ _ _ _) _ =>
    ((s.reports.map Diagnostic.ofReport).filter Diagnostic.isWarning).map Diagnostic.display
  | _ => []

end Event

namespace Trace

def main (t : Trace) : List (Call × Answer) := t.filterMap Event.main?

def warnings (t : Trace) : List String := t.filterMap Event.warning?

def warningsDue (s : Script) (t : Trace) : List String := t.flatMap (Event.warningsDue s)

def undisturbed (t : Trace) : Bool := !t.any Event.brokeTransfer

theorem mainAppend (t u : Trace) : main (t ++ u) = t.main ++ u.main := List.filterMap_append

theorem warningsAppend (t u : Trace) : warnings (t ++ u) = t.warnings ++ u.warnings :=
  List.filterMap_append

theorem warningsDueAppend (s : Script) (t u : Trace) :
    warningsDue s (t ++ u) = t.warningsDue s ++ u.warningsDue s := List.flatMap_append

theorem undisturbedAppend (t u : Trace) :
    undisturbed (t ++ u) = (t.undisturbed && u.undisturbed) := by
  rw [undisturbed, List.any_append, Bool.not_or]
  rfl

end Trace

def Script.withCleanUps (s : Script) (tearDowns destructions : Statuses) : Script :=
  { s with status := fun
      | .tearDown => tearDowns
      | .destroyRules => destructions
      | routine => s.status routine }

end ScanEngine
