import ScanEngine.Enumeration
import ScanEngine.Token

/-! Rulesets. A ruleset owns what the engine handed out and a token, and keeps the flags for its
later scans. Its rule positions are copied into plain buffers for callers that pass ruleset and
buffer by pointers, either of which may be null; a buffer too small for all rules is noted. -/
namespace ScanEngine

structure Ruleset where
  token : Token
  handle : Nat
  table : Table
  flags : ScanFlags
  deriving DecidableEq, Repr

namespace Ruleset
open Operation

def count (r : Ruleset) : Nat := r.table.count

def own (token : Token) (answer : Answer × Option Table) : Except EngineError Ruleset := do
  EngineError.check answer.1.status
  match answer.1.handedOut, answer.2 with
  | some handle, some table => .ok ⟨token, handle, table, .empty⟩
  | _, _ => .error .internalFatalError

def noted {ε : Type} (note : Ruleset → String) (outcome : Except ε Ruleset) :
    Operation (Except ε Ruleset) := do
  if let .ok r := outcome then log .debug (note r)
  return outcome

def destroy (r : Ruleset) : Operation Unit := do
  match EngineError.check (← call (.destroyRules r.handle)) with
  | .ok () => pure ()
  | .error e => log .warn s!"destroying rules failed: {e.message}"
  r.token.release

theorem destroyRun (r : Ruleset) (s : Script) (e : Engine) :
    ∃ notes severity message, r.destroy.run s e = ⟨(), e.called.called,
      .call (.destroyRules r.handle) ⟨s.statusOf e (.destroyRules r.handle), none⟩ ::
        (List.map (.log .warn) notes ++
          [.call .tearDown ⟨s.statusOf e.called .tearDown, none⟩, .log severity message])⟩ := by
  obtain ⟨severity, message, released⟩ := r.token.releaseRun s e.called
  rw [destroy, runBind, runCall]
  cases checked : EngineError.check (s.statusOf e (.destroyRules r.handle)) with
  | ok _ =>
    refine ⟨[], severity, message, ?_⟩
    simp only [checked, released]
    rfl
  | error err =>
    refine ⟨[s!"destroying rules failed: {err.message}"], severity, message, ?_⟩
    simp only [checked, runBind, runLog, released]
    rfl

def setFlags (r : Ruleset) (flags : ScanFlags) : Ruleset := { r with flags := flags }

def debug (r : Ruleset) : String :=
  "Rules \x7b count: " ++ toString r.count ++ ", flags: " ++ r.flags.debug ++ " \x7d"

namespace Buffer

abbrev Slots := List (Option Nat)

def copy (table : Option Table) (buffer : Option Slots) (n : Nat) :
    Operation (Nat × Option Slots) := do
  match table, buffer with
  | some t, some slots =>
    if n = 0 then return (0, buffer)
    else
      let total := t.count
      if n < total then log .trace s!"rule buffer of {n} slots truncated {total} rules"
      let reached := min n total
      let filled := Enumeration.enumerateFresh id reached (slots.take reached) t.handles
      return (filled.written, some (filled.slots ++ slots.drop reached))
  | _, _ => return (0, buffer)

def count : Option Table → Nat
  | some t => t.count
  | none => 0

end Buffer
end Ruleset
end ScanEngine
