/-! Copying rule handles into a buffer of limited capacity. A slot is chosen before a handle is
pulled from the ruleset, so a full buffer pulls nothing more, and slots past the last handle keep
what they held. -/
namespace ScanEngine.Enumeration

structure Filled (σ : Type) where
  written : Nat
  slots : List σ
  pulls : Nat
  deriving DecidableEq, Repr

def enumerate {ρ σ : Type} (convert : ρ → σ) : Nat → List σ → List ρ → Filled σ
  | 0, slots, _ => ⟨0, slots, 0⟩
  | _ + 1, [], _ => ⟨0, [], 0⟩
  | _ + 1, slots, [] => ⟨0, slots, 1⟩
  | capacity + 1, _ :: slots, rule :: rules =>
    let next := enumerate convert capacity slots rules
    ⟨next.written + 1, convert rule :: next.slots, next.pulls + 1⟩

def writeFrom {ρ σ : Type} (convert : ρ → σ) (limit : Nat) :
    Nat → List (Option σ) → List ρ → Filled (Option σ)
  | index, slots, [] => ⟨index, slots, if index < limit then 1 else 0⟩
  | index, slots, rule :: rules =>
    if index < limit then
      let next := writeFrom convert limit (index + 1) (slots.set index (some (convert rule))) rules
      { next with pulls := next.pulls + 1 }
    else ⟨index, slots, 0⟩

def enumerateFresh {ρ σ : Type} (convert : ρ → σ) (capacity : Nat) (slots : List (Option σ))
    (rules : List ρ) : Filled (Option σ) :=
  writeFrom convert (min capacity slots.length) 0 slots rules

def count {ρ : Type} : List ρ → Nat × Nat
  | [] => (0, 1)
  | _ :: rules => ((count rules).1 + 1, (count rules).2 + 1)

def resize {σ : Type} (length : Nat) (fill : σ) (slots : List σ) : List σ :=
  (slots ++ List.replicate (length - slots.length) fill).take length

inductive Use where
  | count
  | plain (length capacity fill : Nat)
  | optional (length capacity : Nat)
  | fresh (length capacity : Nat)
  deriving DecidableEq, Repr

inductive Answer where
  | counted (count pulls : Nat)
  | plain (filled : Filled Nat)
  | optional (filled : Filled (Option Nat))
  | fresh (filled : Filled (Option Nat))
  deriving DecidableEq, Repr

def use (rules buffer : List Nat) : Use → Answer × List Nat
  | .count => (.counted (count rules).1 (count rules).2, buffer)
  | .plain length capacity fill =>
    let filled := enumerate id capacity (resize length fill buffer) rules
    (.plain filled, filled.slots)
  | .optional length capacity =>
    (.optional (enumerate some capacity (List.replicate length none) rules), buffer)
  | .fresh length capacity =>
    (.fresh (enumerateFresh id capacity (List.replicate length none) rules), buffer)

def useAll (rules buffer : List Nat) : List Use → List Answer
  | [] => []
  | u :: rest => (use rules buffer u).1 :: useAll rules (use rules buffer u).2 rest

end ScanEngine.Enumeration
