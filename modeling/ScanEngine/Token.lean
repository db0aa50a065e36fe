import ScanEngine.Operation

/-! Tokens. The engine is set up while a token is held; set-ups are counted by the engine, so
tokens may coexist. Every compiler and every ruleset holds a token of its own. -/
namespace ScanEngine

structure Token where
  deriving DecidableEq, Repr

namespace Token
open Operation

def acquire : Operation (Except EngineError Token) := do
  match EngineError.check (← call .setUp) with
  | .error e => return .error e
  | .ok () =>
    log .debug "libyara initialized"
    return .ok ⟨⟩

def release (_ : Token) : Operation Unit := do
  match EngineError.check (← call .tearDown) with
  | .ok () => log .debug "libyara finalized"
  | .error e => log .warn s!"libyara finalization failed: {e.message}"

/-- Runs `body` with a new token. A value it yields keeps the token; a failure releases it. -/
def holding {ε α : Type} (refused : EngineError → ε) (body : Token → Operation (Except ε α)) :
    Operation (Except ε α) := do
  match ← acquire with
  | .error e => return .error (refused e)
  | .ok token =>
    match ← body token with
    | .error e =>
      token.release
      return .error e
    | .ok value => return .ok value

def closing {ε α : Type} (s : Script) (inner : Outcome (Except ε α)) : Outcome Unit :=
  match inner.value with
  | .ok _ => ⟨(), inner.engine, []⟩
  | .error _ => (release ⟨⟩).run s inner.engine

theorem acquireGranted {s : Script} {e : Engine} (granted : s.statusOf e .setUp = 0) :
    acquire.run s e = ⟨.ok ⟨⟩, e.called,
      [.call .setUp ⟨0, none⟩, .log .debug "libyara initialized"]⟩ := by
  rw [acquire, runBind, runCall, granted]
  rfl

theorem acquireRefused {s : Script} {e : Engine} (refused : s.statusOf e .setUp ≠ 0) :
    ∃ err, err.code = s.statusOf e .setUp ∧
      acquire.run s e =
        ⟨.error err, e.called, [.call .setUp ⟨s.statusOf e .setUp, none⟩]⟩ := by
  obtain ⟨err, failed, code⟩ := EngineError.checkFailure refused
  refine ⟨err, code, ?_⟩
  rw [acquire, runBind, runCall]
  simp only [failed]
  rfl

theorem releaseRun (t : Token) (s : Script) (e : Engine) :
    ∃ severity message, t.release.run s e =
      ⟨(), e.called, [.call .tearDown ⟨s.statusOf e .tearDown, none⟩, .log severity message]⟩ := by
  rw [release, runBind, runCall]
  cases checked : EngineError.check (s.statusOf e .tearDown) with
  | ok _ => exact ⟨_, _, by simp only [checked]; rfl⟩
  | error err => exact ⟨_, _, by simp only [checked]; rfl⟩

section
variable {ε α : Type}

theorem holdingRefused {s : Script} {e : Engine} (refused : s.statusOf e .setUp ≠ 0)
    (refusal : EngineError → ε) (body : Token → Operation (Except ε α)) :
    ∃ err, err.code = s.statusOf e .setUp ∧
      (holding refusal body).run s e =
        ⟨.error (refusal err), e.called, [.call .setUp ⟨s.statusOf e .setUp, none⟩]⟩ := by
  obtain ⟨err, code, acquired⟩ := acquireRefused refused
  refine ⟨err, code, ?_⟩
  rw [holding, runBind, acquired]
  rfl

theorem holdingGranted {s : Script} {e : Engine} (granted : s.statusOf e .setUp = 0)
    (refusal : EngineError → ε) (body : Token → Operation (Except ε α)) :
    (holding refusal body).run s e =
      let inner := (body ⟨⟩).run s e.called
      ⟨inner.value, (closing s inner).engine, .call .setUp ⟨0, none⟩ ::
        .log .debug "libyara initialized" :: inner.trace ++ (closing s inner).trace⟩ := by
  rw [holding, runBind, acquireGranted granted]
  simp only [runBind, closing]
  cases ((body ⟨⟩).run s e.called).value with
  | ok v => simp only [runPure, List.cons_append, List.nil_append]
  | error f => simp only [runBind, runPure, List.cons_append, List.nil_append, List.append_nil]

end
end Token
end ScanEngine
