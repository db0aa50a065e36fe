import ScanEngine.Files
import ScanEngine.Ruleset.Basic

/-! Scans. The engine reports to a callback, which keeps the rule of every match and always asks to
go on. What it kept counts only if the engine ends with success. -/
namespace ScanEngine

namespace Scan
open Operation

def ruleMatching : Int32 := 1

def goOn : Int32 := 0

def onMessage (found : List Nat) (m : Message) : Int32 × List Nat :=
  match m.rule with
  | some rule => (goOn, if m.kind = ruleMatching then found ++ [rule] else found)
  | none => (goOn, found)

def deliver (found : List Nat) : List Message → Trace × List Nat
  | [] => ([], found)
  | m :: rest =>
    let answered := onMessage found m
    let later := deliver answered.2 rest
    (.scanCallback answered.1 :: later.1, later.2)

def matching (c : Call) : Operation (Except EngineError (List Nat)) := do
  let status ← call c
  let messages := (← script).messages
  let delivered := deliver [] messages
  emit delivered.1
  return (EngineError.check status).map fun () => delivered.2

theorem matchingRun (c : Call) (s : Script) (e : Engine) :
    (matching c).run s e =
      ⟨(EngineError.check (s.statusOf e c)).map fun () => (deliver [] s.messages).2, e.called,
        .call c ⟨s.statusOf e c, none⟩ :: (deliver [] s.messages).1⟩ := by
  have told : (script.run s e.called) = ⟨s, e.called, []⟩ := rfl
  have emitted : (emit (deliver [] s.messages).1).run s e.called =
      ⟨(), e.called, (deliver [] s.messages).1⟩ := rfl
  simp only [matching, runBind, runCall, told, emitted, runPure, List.cons_append, List.nil_append,
    List.append_nil]

end Scan

namespace Ruleset
open Operation

def options (r : Ruleset) (timeout : UInt16) : ScanOptions := ⟨r.flags, timeout⟩

def scanMemory (r : Ruleset) (content : Bytes) (timeout : UInt16) :
    Operation (Except EngineError (List Nat)) := do
  match ← Scan.matching (.scanMemory r.handle (r.options timeout) content) with
  | .error e => return .error e
  | .ok found =>
    log .debug s!"{found.length} of {r.count} rules matched {content.length} bytes"
    return .ok found

def scanFile (r : Ruleset) (files : Files) (path : Bytes) (timeout : UInt16) :
    Operation (Except Failure (List Nat)) := do
  match files.read path with
  | .error fault => return .error (.io ⟨.openScanFile, .path fault⟩)
  | .ok content =>
    match ← Scan.matching (.scanFile r.handle (r.options timeout) content) with
    | .error e => return .error (.engine e)
    | .ok found =>
      log .debug s!"{found.length} of {r.count} rules matched {Text.lossy path}"
      return .ok found

end Ruleset
end ScanEngine
