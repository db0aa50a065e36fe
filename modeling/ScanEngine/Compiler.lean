import ScanEngine.Files
import ScanEngine.Ruleset.Basic

/-! Compilers. A compiler owns what the engine handed out and a token. The diagnostics callback is
installed for one addition at a time. Compiling uses the compiler up, whatever comes of it. -/
namespace ScanEngine

structure Compiler where
  token : Token
  handle : Nat
  deriving DecidableEq, Repr

namespace Compiler
open Operation

def own (token : Token) (answer : Answer) : Except EngineError Compiler := do
  EngineError.check answer.status
  match answer.handedOut with
  | some handle => .ok ⟨token, handle⟩
  | none => .error .insufficientMemory

def create : Operation (Except EngineError Compiler) :=
  Token.holding id fun token => do
    let answer ← callForCompiler .createCompiler
    return own token answer

def destroy (c : Compiler) : Operation Unit := do
  let _ ← call (.destroyCompiler c.handle)
  c.token.release

theorem destroyRun (c : Compiler) (s : Script) (e : Engine) :
    ∃ severity message, c.destroy.run s e = ⟨(), e.called.called,
      [.call (.destroyCompiler c.handle) ⟨0, none⟩,
        .call .tearDown ⟨s.statusOf e.called .tearDown, none⟩, .log severity message]⟩ := by
  obtain ⟨severity, message, released⟩ := c.token.releaseRun s e.called
  refine ⟨severity, message, ?_⟩
  rw [destroy, runBind, runCall]
  simp only [released, List.cons_append, List.nil_append]
  rfl

def verdict (status : Int32) (found : List Diagnostic) : Except Failure Unit :=
  if status = 0 ∧ found.any Diagnostic.isError = false then .ok () else .error (.compile ⟨found⟩)

def collecting (c : Compiler) (addition : Call) : Operation (Except Failure Unit) := do
  let _ ← call (.setCallback c.handle true true)
  let (status, reports) ← callToAdd addition
  let _ ← call (.setCallback c.handle false false)
  let found := reports.map Diagnostic.ofReport
  emit ((found.filter Diagnostic.isWarning).map fun d => .log .warn d.display)
  return verdict status found

theorem collectingRun (c : Compiler) {addition : Call} (s : Script) (e : Engine) :
    let found := s.reports.map Diagnostic.ofReport
    let status := s.statusOf e.called addition
    (c.collecting addition).run s e =
      ⟨verdict status found, e.called.called.called,
        .call (.setCallback c.handle true true) ⟨0, none⟩ :: .call addition ⟨status, none⟩ ::
          .call (.setCallback c.handle false false) ⟨0, none⟩ ::
          (found.filter Diagnostic.isWarning).map fun d => .log .warn d.display⟩ := by
  simp only [collecting, callToAdd, run, bind, pure, List.append_nil]
  rfl

def addText (c : Compiler) (source : Bytes) (space : Option Bytes) :
    Operation (Except Failure Unit) := do
  match cString source with
  | .error z => return .error (.zeroByte z)
  | .ok source =>
    match cStringOrNull space with
    | .error z => return .error (.zeroByte z)
    | .ok space => c.collecting (.addText c.handle source space)

def addFile (c : Compiler) (files : Files) (path : Bytes) (space : Option Bytes) :
    Operation (Except Failure Unit) := do
  match files.read path with
  | .error fault => return .error (.io ⟨.openRulesFile, .path fault⟩)
  | .ok content =>
    match pathString path with
    | .error z => return .error (.zeroByte z)
    | .ok fileName =>
      match cStringOrNull space with
      | .error z => return .error (.zeroByte z)
      | .ok space => c.collecting (.addFile c.handle content space fileName)

def externalValue : External → Except ZeroByte External
  | .text value => (cString value).map .text
  | other => .ok other

def define (c : Compiler) (identifier : Bytes) (value : External) :
    Operation (Except Failure Unit) := do
  match cString identifier with
  | .error z => return .error (.zeroByte z)
  | .ok identifier =>
    match externalValue value with
    | .error z => return .error (.zeroByte z)
    | .ok value =>
      let status ← call (.define c.handle identifier value)
      return (EngineError.check status).mapError .engine

def take (c : Compiler) (token : Token) : Operation (Except EngineError Ruleset) := do
  let answer ← callForRules (.takeRules c.handle)
  Ruleset.noted (fun r => s!"compiled {r.count} rules") (Ruleset.own token answer)

def compile (c : Compiler) : Operation (Except EngineError Ruleset) := do
  let outcome ← Token.holding id c.take
  c.destroy
  return outcome

end Compiler
end ScanEngine
