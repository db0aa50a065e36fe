import ScanEngine.Failure

/-! Readers that hand out bytes in portions of their own. `fill` asks until a need is met, the
reader hands out nothing, or it fails; an interruption is asked again. -/
namespace ScanEngine

inductive ReadAction where
  | data (bytes : Bytes)
  | fault (f : Fault)
  deriving DecidableEq, Repr

structure Reader where
  pending : Bytes
  actions : List ReadAction
  deriving DecidableEq, Repr

structure ReadStep where
  room : Nat
  answer : Reply Bytes
  deriving DecidableEq, Repr

namespace ReadStep

def bytes (s : ReadStep) : Bytes :=
  match s.answer with
  | .done got => got
  | .fault _ => []

def failed (s : ReadStep) : Bool :=
  match s.answer with
  | .done _ => false
  | .fault f => f.kind != .interrupted

end ReadStep

structure Fill where
  bytes : Bytes
  steps : List ReadStep
  fault : Option Fault
  reader : Reader
  deriving DecidableEq, Repr

namespace Reader

def ofActions (actions : List ReadAction) : Reader := ⟨[], actions⟩

def remaining (r : Reader) : Bytes :=
  r.pending ++ r.actions.flatMap fun
    | .data bytes => bytes
    | .fault _ => []

def read (r : Reader) (room : Nat) : Reply Bytes × Reader :=
  match r.pending, r.actions with
  | [], [] => (.done [], r)
  | [], .data bytes :: rest => (.done (bytes.take room), ⟨bytes.drop room, rest⟩)
  | [], .fault f :: rest => (.fault f, ⟨[], rest⟩)
  | pending, actions => (.done (pending.take room), ⟨pending.drop room, actions⟩)

theorem readFault {r next : Reader} {room : Nat} {f : Fault} (h : r.read room = (.fault f, next)) :
    next.remaining = r.remaining ∧ next.actions.length < r.actions.length := by
  obtain ⟨pending, actions⟩ := r
  unfold read at h
  split at h
  · cases (Prod.mk.inj h).1
  · cases (Prod.mk.inj h).1
  · rename_i _ _ hp ha
    cases (Prod.mk.inj h).2
    cases hp
    cases ha
    exact ⟨rfl, Nat.lt_succ_self _⟩
  · cases (Prod.mk.inj h).1

theorem readData {r next : Reader} {room : Nat} {got : Bytes} (h : r.read room = (.done got, next)) :
    got ++ next.remaining = r.remaining ∧ got.length ≤ room ∧
      next.actions.length ≤ r.actions.length := by
  obtain ⟨pending, actions⟩ := r
  unfold read at h
  split at h
  · obtain ⟨same, rfl⟩ := Prod.mk.inj h
    cases same
    exact ⟨rfl, Nat.zero_le _, Nat.le_refl _⟩
  · rename_i bytes rest hp ha
    obtain ⟨same, rfl⟩ := Prod.mk.inj h
    cases same
    cases hp
    cases ha
    refine ⟨?_, List.length_take_le _ _, Nat.le_succ _⟩
    simp only [remaining, List.flatMap_cons, ← List.append_assoc, List.take_append_drop,
      List.nil_append]
  · cases (Prod.mk.inj h).1
  · obtain ⟨same, rfl⟩ := Prod.mk.inj h
    cases same
    refine ⟨?_, List.length_take_le _ _, Nat.le_refl _⟩
    simp only [remaining, ← List.append_assoc, List.take_append_drop]

def fill (r : Reader) (need : Nat) : Fill :=
  if need = 0 then ⟨[], [], none, r⟩
  else match _asked : r.read need with
    | (.fault f, next) =>
      let step := ⟨need, .fault f⟩
      if f.kind = .interrupted then
        let more := fill next need
        { more with steps := step :: more.steps }
      else ⟨[], [step], some f, next⟩
    | (.done got, next) =>
      let step := ⟨need, .done got⟩
      if got.isEmpty then ⟨[], [step], none, next⟩
      else
        let more := fill next (need - got.length)
        { more with bytes := got ++ more.bytes, steps := step :: more.steps }
termination_by r.actions.length + need
decreasing_by
  · have fewer := (readFault _asked).2
    omega
  · have kept := (readData _asked).2
    have some : 0 < got.length := List.length_pos_iff.mpr (by simp_all)
    omega

end Reader
end ScanEngine
