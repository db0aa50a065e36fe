import ScanEngine.Trace

/-! What a trace says about custody: how many tokens are held after it, which compilers and rulesets
were handed out and destroyed in it, and when its calls come in an order the engine allows.
Nothing here looks at the operations that produced the trace. -/
namespace ScanEngine

inductive Handle where
  | compiler (number : Nat)
  | ruleset (number : Nat)
  deriving DecidableEq, Repr

namespace Event

def tokens : Event → Int
  | call .setUp answer => if answer.status = 0 then 1 else 0
  | call .tearDown _ => -1
  | _ => 0

def granted : Event → Option Handle
  | call .createCompiler answer => answer.handedOut.map .compiler
  | call (.takeRules _) answer => answer.handedOut.map .ruleset
  | call (.loadRules _) answer => answer.handedOut.map .ruleset
  | call (.loadStream _ _) answer => answer.handedOut.map .ruleset
  | _ => none

def destroyed : Event → Option Handle
  | call (.destroyCompiler n) _ => some (.compiler n)
  | call (.destroyRules n) _ => some (.ruleset n)
  | _ => none

def isFilling : Event → Bool
  | filled _ => true
  | _ => false

def failedFilling : Event → Bool
  | filled f => f.failed
  | _ => false

end Event

namespace Call

def subject? : Call → Option Handle
  | destroyCompiler n | setCallback n _ _ | addText n _ _ | addFile n _ _ _ | define n _ _ |
    takeRules n => some (.compiler n)
  | destroyRules n | saveRules n _ | saveStream n _ _ | scanMemory n _ _ | scanFile n _ _ =>
    some (.ruleset n)
  | setUp | tearDown | createCompiler | loadRules _ | loadStream _ _ | setConfig _ _ |
    getConfig _ => none

def needsToken : Call → Bool
  | setUp | tearDown | setConfig _ _ | getConfig _ => false
  | _ => true

end Call

namespace Trace

def tokens : Trace → Int
  | [] => 0
  | event :: rest => event.tokens + tokens rest

def granted (t : Trace) : List Handle := t.filterMap Event.granted

def destroyed (t : Trace) : List Handle := t.filterMap Event.destroyed

/-- What a call handed out although the reader failed a request served during that call. -/
def lost : Trace → List Handle
  | [] => []
  | event :: rest =>
    (if (rest.takeWhile Event.isFilling).any Event.failedFilling then event.granted.toList else [])
      ++ lost rest

def Alive (t : Trace) (h : Handle) : Prop := h ∈ granted t ∧ h ∉ destroyed t

/-- The tokens beyond one for each thing that was handed out and neither destroyed nor lost. -/
def spare (t : Trace) : Int :=
  tokens t + (destroyed t).length + (lost t).length - (granted t).length

/-- Every call on compilers or rulesets is covered by a token and is given something alive. -/
def Orderly (t : Trace) : Prop :=
  ∀ before c answer after, t = before ++ Event.call c answer :: after →
    (c.needsToken = true → 0 < tokens before) ∧ ∀ h, c.subject? = some h → Alive before h

/-- What is destroyed is destroyed before its token goes: the next call tears down. -/
def Paired (t : Trace) : Prop :=
  ∀ before event after, t = before ++ event :: after → event.destroyed.isSome = true →
    (calls after).head? = some .tearDown

theorem tokensAppend (t u : Trace) : tokens (t ++ u) = tokens t + tokens u := by
  induction t with
  | nil => rw [List.nil_append, tokens, Int.zero_add]
  | cons event rest ih => rw [List.cons_append, tokens, tokens, ih, Int.add_assoc]

theorem grantedAppend (t u : Trace) : granted (t ++ u) = granted t ++ granted u :=
  List.filterMap_append

theorem destroyedAppend (t u : Trace) : destroyed (t ++ u) = destroyed t ++ destroyed u :=
  List.filterMap_append

theorem grantedCons (event : Event) (t : Trace) :
    granted (event :: t) = event.granted.toList ++ granted t := by
  cases out : event.granted with
  | none => exact List.filterMap_cons_none out
  | some x => exact List.filterMap_cons_some out

theorem destroyedCons (event : Event) (t : Trace) :
    destroyed (event :: t) = event.destroyed.toList ++ destroyed t := by
  cases gone : event.destroyed with
  | none => exact List.filterMap_cons_none gone
  | some x => exact List.filterMap_cons_some gone

end Trace
end ScanEngine
