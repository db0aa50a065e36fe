import ScanEngine.Trace

/-! Operations against the engine. The engine is not modelled further than its conduct: a script
fixes what its routines answer while one operation runs, and every statement about operations is
meant for all scripts. An operation yields a value, the engine afterwards, and its trace. -/
namespace ScanEngine

/-- A message to the scan callback; the rule is a table position, or a null pointer. -/
structure Message where
  kind : Int32
  rule : Option Nat
  deriving DecidableEq, Repr

/-- The statuses a routine reports, by the number of calls the engine has answered before. -/
structure Statuses where
  report : Nat → Int32

instance : Coe Int32 Statuses := ⟨fun status => ⟨fun _ => status⟩⟩

structure Script where
  status : Routine → Statuses := fun _ => (0 : Int32)
  withholdsCompiler : Bool := false
  table : Option Table := none
  reports : List Report := []
  messages : List Message := []
  reads : List Request := []
  writes : List WriteRequest := []

structure Engine where
  calls : Nat := 0
  compilers : Nat := 0
  rulesets : Nat := 0
  settings : Settings := {}
  deriving DecidableEq, Repr

def Engine.called (e : Engine) : Engine := { e with calls := e.calls + 1 }

def Script.statusOf (s : Script) (e : Engine) (c : Call) : Int32 :=
  (c.routine?.map fun routine => (s.status routine).report e.calls).getD 0

structure Outcome (α : Type) where
  value : α
  engine : Engine
  trace : Trace

def Operation (α : Type) : Type := Script → Engine → Outcome α

namespace Operation
variable {α β : Type}

def run (m : Operation α) (s : Script) (e : Engine) : Outcome α := m s e

instance : Monad Operation where
  pure a := fun _ e => ⟨a, e, []⟩
  bind m k := fun s e =>
    let first := m s e
    let second := k first.value s first.engine
    ⟨second.value, second.engine, first.trace ++ second.trace⟩

@[simp] theorem runPure (a : α) (s : Script) (e : Engine) :
    (pure a : Operation α).run s e = ⟨a, e, []⟩ := rfl

@[simp] theorem runBind (m : Operation α) (k : α → Operation β) (s : Script) (e : Engine) :
    (m >>= k).run s e =
      let first := m.run s e
      let second := (k first.value).run s first.engine
      ⟨second.value, second.engine, first.trace ++ second.trace⟩ := rfl

instance : LawfulMonad Operation := LawfulMonad.mk' Operation
  (fun m => by
    funext s e
    change Outcome.mk (m s e).value (m s e).engine ((m s e).trace ++ []) = m s e
    rw [List.append_nil])
  (fun _ _ => rfl)
  (fun _ _ _ => by
    funext s e
    simp only [bind, List.append_assoc])

def emit (events : List Event) : Operation Unit := fun _ e => ⟨(), e, events⟩

def log (severity : Severity) (message : String) : Operation Unit := emit [.log severity message]

def script : Operation Script := fun s e => ⟨s, e, []⟩

def call (c : Call) : Operation Int32 := fun s e =>
  ⟨s.statusOf e c, e.called, [.call c ⟨s.statusOf e c, none⟩]⟩

@[simp] theorem runLog (severity : Severity) (message : String) (s : Script) (e : Engine) :
    (log severity message).run s e = ⟨(), e, [.log severity message]⟩ := rfl

@[simp] theorem runCall (c : Call) (s : Script) (e : Engine) :
    (call c).run s e = ⟨s.statusOf e c, e.called, [.call c ⟨s.statusOf e c, none⟩]⟩ := rfl

def callForCompiler (c : Call) : Operation Answer := fun s e =>
  let granted := s.statusOf e c = 0 ∧ s.withholdsCompiler = false
  let answer := ⟨s.statusOf e c, if granted then some e.compilers else none⟩
  let after := if granted then { e.called with compilers := e.compilers + 1 } else e.called
  ⟨answer, after, [.call c answer]⟩

def callForRules (c : Call) : Operation (Answer × Option Table) := fun s e =>
  let table := if s.statusOf e c = 0 then s.table else none
  let answer := ⟨s.statusOf e c, table.map fun _ => e.rulesets⟩
  let after := if table.isSome then { e.called with rulesets := e.rulesets + 1 } else e.called
  ⟨(answer, table), after, [.call c answer]⟩

def callToSet (setting : Setting) (value : Nat) : Operation Int32 := fun s e =>
  let c := Call.setConfig setting value
  let settings := if s.statusOf e c = 0 then e.settings.set value setting else e.settings
  ⟨s.statusOf e c, { e.called with settings := settings }, [.call c ⟨s.statusOf e c, none⟩]⟩

def callToGet (setting : Setting) : Operation (Int32 × Nat) := fun s e =>
  let c := Call.getConfig setting
  ⟨(s.statusOf e c, e.settings.get setting), e.called, [.call c ⟨s.statusOf e c, none⟩]⟩

def callToAdd (c : Call) : Operation (Int32 × List Report) := fun s e =>
  ⟨(s.statusOf e c, s.reports), e.called, [.call c ⟨s.statusOf e c, none⟩]⟩

def serveReads (source : ElementSource) : Operation ElementSource := fun s e =>
  let served := source.serveAll s.reads
  ⟨served.2, e, served.1.map .filled⟩

def callForStream (reader : Reader) : Operation ((Answer × Option Table) × ElementSource) := do
  let answer ← callForRules (.loadStream true false)
  let source ← serveReads (.ofReader reader)
  return (answer, source)

theorem callForStreamRun (reader : Reader) (s : Script) (e : Engine) :
    (callForStream reader).run s e =
      let answered := (callForRules (.loadStream true false)).run s e
      let served := (ElementSource.ofReader reader).serveAll s.reads
      ⟨(answered.value, served.2), answered.engine, answered.trace ++ served.1.map .filled⟩ := by
  simp only [callForStream, runBind, runPure, List.append_nil]
  rfl

def serveWrites (sink : ElementSink) : Operation ElementSink := fun s e =>
  let served := sink.serveAll s.writes
  ⟨served.2, e, served.1.map .drained⟩

end Operation

namespace Setting
open Operation

def change (setting : Setting) (value : Nat) : Operation (Except EngineError Unit) := do
  return EngineError.check (← callToSet setting value)

def read (setting : Setting) : Operation (Except EngineError Nat) := do
  let (status, value) ← callToGet setting
  return (EngineError.check status).map fun () => value

end Setting
end ScanEngine
