import ScanEngine.Failure

/-! Writers that take bytes in portions of their own. `writeAll` offers what is left until all is
taken or the writer fails; an interruption is offered again, and taking nothing is a failure. -/
namespace ScanEngine

inductive WriteAction where
  | accept (most : Nat)
  | fault (f : Fault)
  deriving DecidableEq, Repr

/-- A writer: the bytes taken so far, and how it will answer the next offers. After its last
action it takes everything. -/
structure Writer where
  taken : Bytes
  actions : List WriteAction
  deriving DecidableEq, Repr

structure WriteStep where
  offer : Bytes
  answer : Reply Nat
  deriving DecidableEq, Repr

namespace WriteStep

def taken (s : WriteStep) : Bytes :=
  match s.answer with
  | .done n => s.offer.take n
  | .fault _ => []

def failed (s : WriteStep) : Bool :=
  match s.answer with
  | .done n => n == 0
  | .fault f => f.kind != .interrupted

end WriteStep

structure Sent where
  steps : List WriteStep
  fault : Option Fault
  writer : Writer
  deriving DecidableEq, Repr

namespace Writer

def ofActions (actions : List WriteAction) : Writer := ⟨[], actions⟩

def write (w : Writer) (offer : Bytes) : Reply Nat × Writer :=
  match w.actions with
  | [] => (.done offer.length, ⟨w.taken ++ offer, []⟩)
  | .accept most :: rest => (.done (min most offer.length), ⟨w.taken ++ offer.take most, rest⟩)
  | .fault f :: rest => (.fault f, ⟨w.taken, rest⟩)

theorem writeFault {w next : Writer} {offer : Bytes} {f : Fault}
    (h : w.write offer = (.fault f, next)) :
    next.taken = w.taken ∧ next.actions.length < w.actions.length := by
  unfold write at h
  split at h
  · cases (Prod.mk.inj h).1
  · cases (Prod.mk.inj h).1
  · rename_i _ rest due
    cases (Prod.mk.inj h).2
    rw [due]
    exact ⟨rfl, Nat.lt_succ_self _⟩

theorem writeData {w next : Writer} {offer : Bytes} {n : Nat} (h : w.write offer = (.done n, next)) :
    next.taken = w.taken ++ offer.take n ∧ n ≤ offer.length ∧
      next.actions.length ≤ w.actions.length := by
  unfold write at h
  split at h
  · obtain ⟨same, rfl⟩ := Prod.mk.inj h
    cases same
    exact ⟨by rw [List.take_length], Nat.le_refl _, Nat.zero_le _⟩
  · rename_i most rest due
    obtain ⟨same, rfl⟩ := Prod.mk.inj h
    cases same
    rw [due]
    exact ⟨by rw [← List.take_eq_take_min], Nat.min_le_right _ _, Nat.le_succ _⟩
  · cases (Prod.mk.inj h).1

def writeAll (w : Writer) (offer : Bytes) : Sent :=
  if offer.isEmpty then ⟨[], none, w⟩
  else match _asked : w.write offer with
    | (.fault f, next) =>
      let step := ⟨offer, .fault f⟩
      if f.kind = .interrupted then
        let more := writeAll next offer
        { more with steps := step :: more.steps }
      else ⟨[step], some f, next⟩
    | (.done n, next) =>
      let step := ⟨offer, .done n⟩
      if n = 0 then ⟨[step], some .nothingTaken, next⟩
      else
        let more := writeAll next (offer.drop n)
        { more with steps := step :: more.steps }
termination_by w.actions.length + offer.length
decreasing_by
  · have fewer := (writeFault _asked).2
    omega
  · have kept := (writeData _asked).2
    have size : (offer.drop n).length = offer.length - n := List.length_drop
    omega

end Writer
end ScanEngine
