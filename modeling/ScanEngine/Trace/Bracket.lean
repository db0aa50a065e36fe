import ScanEngine.Trace

/-! Additions between the installation and the removal of the diagnostics callback. In a bracketed
list of calls every addition stands in a bracket of its own and no bracket holds anything else.
`installed` says of any list of calls whether it leaves a callback on a compiler. -/
namespace ScanEngine

namespace Call

def isAdditionTo (compiler : Nat) : Call → Bool
  | addText n _ _ | addFile n _ _ _ => n == compiler
  | _ => false

def isPlain : Call → Bool
  | addText _ _ _ | addFile _ _ _ _ | setCallback _ _ _ => false
  | _ => true

def callbackAfter (compiler : Nat) (before : Bool) : Call → Bool
  | setCallback n callback _ => if n = compiler then callback else before
  | _ => before

end Call

def installed (compiler : Nat) (calls : List Call) : Bool :=
  calls.foldl (Call.callbackAfter compiler) false

inductive Bracketed : List Call → Prop where
  | nil : Bracketed []
  | plain {c : Call} {rest : List Call} (outside : c.isPlain = true) (tail : Bracketed rest) :
      Bracketed (c :: rest)
  | addition {compiler : Nat} {c : Call} {rest : List Call}
      (inside : c.isAdditionTo compiler = true) (tail : Bracketed rest) :
      Bracketed (.setCallback compiler true true :: c :: .setCallback compiler false false :: rest)

theorem bracketedAppend {first second : List Call} (left : Bracketed first)
    (right : Bracketed second) : Bracketed (first ++ second) := by
  induction left with
  | nil => exact right
  | plain outside _ ih => exact .plain outside ih
  | addition inside _ ih => exact .addition inside ih

end ScanEngine
