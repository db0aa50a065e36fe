import ScanEngine.Stream.Reader

/-! What passes between `fill` and a reader. A conversation is a list of questions with the
reader's own answers to them, in order; nothing else moves the reader on. Filling is such a
conversation, and the bytes it gains are the bytes handed out in it. -/
namespace ScanEngine

inductive Conversation : Reader → List ReadStep → Reader → Prop where
  | nil (r : Reader) : Conversation r [] r
  | cons {r next last : Reader} {room : Nat} {answer : Reply Bytes} {steps : List ReadStep}
      (asked : r.read room = (answer, next)) (rest : Conversation next steps last) :
      Conversation r (⟨room, answer⟩ :: steps) last

theorem conversationAppend {r middle last : Reader} {steps more : List ReadStep}
    (first : Conversation r steps middle) (second : Conversation middle more last) :
    Conversation r (steps ++ more) last := by
  induction first with
  | nil => exact second
  | cons asked _ ih => exact .cons asked (ih second)

theorem conversationBytes {r last : Reader} {steps : List ReadStep}
    (talk : Conversation r steps last) :
    steps.flatMap ReadStep.bytes ++ last.remaining = r.remaining := by
  induction talk with
  | nil r => rfl
  | @cons r next last room answer steps asked rest ih =>
    rw [List.flatMap_cons, List.append_assoc, ih]
    cases answer with
    | done got => exact (Reader.readData asked).1
    | fault f => exact (Reader.readFault asked).1

theorem conversationActions {r last : Reader} {steps : List ReadStep}
    (talk : Conversation r steps last) : last.actions.length ≤ r.actions.length := by
  induction talk with
  | nil => exact Nat.le_refl _
  | @cons r next last room answer steps asked rest ih =>
    refine Nat.le_trans ih ?_
    cases answer with
    | done got => exact (Reader.readData asked).2.2
    | fault f => exact Nat.le_of_lt (Reader.readFault asked).2

inductive Filled : Reader → Nat → Fill → Prop where
  | met (r : Reader) : Filled r 0 ⟨[], [], none, r⟩
  | interrupted {r next : Reader} {need : Nat} {f : Fault} {more : Fill} (due : 0 < need)
      (asked : r.read need = (.fault f, next)) (again : f.kind = .interrupted)
      (rest : Filled next need more) :
      Filled r need { more with steps := ⟨need, .fault f⟩ :: more.steps }
  | failed {r next : Reader} {need : Nat} {f : Fault} (due : 0 < need)
      (asked : r.read need = (.fault f, next)) (final : f.kind ≠ .interrupted) :
      Filled r need ⟨[], [⟨need, .fault f⟩], some f, next⟩
  | ended {r next : Reader} {need : Nat} (due : 0 < need)
      (asked : r.read need = (.done [], next)) :
      Filled r need ⟨[], [⟨need, .done []⟩], none, next⟩
  | gained {r next : Reader} {need : Nat} {got : Bytes} {more : Fill} (due : 0 < need)
      (asked : r.read need = (.done got, next)) (some : got ≠ [])
      (rest : Filled next (need - got.length) more) :
      Filled r need { more with bytes := got ++ more.bytes, steps := ⟨need, .done got⟩ :: more.steps }

theorem filled (r : Reader) (need : Nat) : Filled r need (r.fill need) := by
  fun_induction Reader.fill r need with
  | case1 r => exact .met r
  | case2 r need due f next asked step again more ih =>
    exact .interrupted (Nat.pos_of_ne_zero due) asked again ih
  | case3 r need due f next asked step final =>
    exact .failed (Nat.pos_of_ne_zero due) asked final
  | case4 r need due got next asked step none =>
    have empty : got = [] := List.isEmpty_iff.mp none
    subst empty
    exact .ended (Nat.pos_of_ne_zero due) asked
  | case5 r need due got next asked step some more ih =>
    refine .gained (Nat.pos_of_ne_zero due) asked ?_ ih
    intro empty
    exact some (List.isEmpty_iff.mpr empty)

namespace Filled

theorem conversation {r : Reader} {need : Nat} {out : Fill} (h : Filled r need out) :
    Conversation r out.steps out.reader := by
  induction h with
  | met r => exact .nil r
  | interrupted _ asked _ _ ih => exact .cons asked ih
  | failed _ asked _ => exact .cons asked (.nil _)
  | ended _ asked => exact .cons asked (.nil _)
  | gained _ asked _ _ ih => exact .cons asked ih

theorem bytesOfSteps {r : Reader} {need : Nat} {out : Fill} (h : Filled r need out) :
    out.bytes = out.steps.flatMap ReadStep.bytes := by
  induction h with
  | met r => rfl
  | interrupted _ _ _ _ ih => exact ih
  | failed _ _ _ => rfl
  | ended _ _ => rfl
  | gained _ _ _ _ ih => exact congrArg _ ih

theorem bytesLength {r : Reader} {need : Nat} {out : Fill} (h : Filled r need out) :
    out.bytes.length ≤ need := by
  induction h with
  | met r => exact Nat.le_refl _
  | interrupted _ _ _ _ ih => exact ih
  | failed _ _ _ => exact Nat.zero_le _
  | ended _ _ => exact Nat.zero_le _
  | gained _ asked _ _ ih =>
    have room := (Reader.readData asked).2.1
    rw [List.length_append]
    omega

theorem faultIffFailed {r : Reader} {need : Nat} {out : Fill} (h : Filled r need out) :
    out.fault.isSome = out.steps.any ReadStep.failed := by
  induction h with
  | met r => rfl
  | interrupted _ _ again _ ih => simpa [ReadStep.failed, again] using ih
  | failed _ _ final => simpa [ReadStep.failed] using final
  | ended _ _ => rfl
  | gained _ _ _ _ ih => simpa [ReadStep.failed] using ih

theorem endsIfUnmet {r : Reader} {need : Nat} {out : Fill} (h : Filled r need out)
    (unmet : out.bytes.length < need) :
    out.fault.isSome = true ∨ ∃ step ∈ out.steps, step.answer = .done [] := by
  induction h with
  | met r => exact absurd unmet (Nat.lt_irrefl _)
  | interrupted _ _ _ _ ih =>
    rcases ih unmet with broken | ⟨step, mem, empty⟩
    · exact .inl broken
    · exact .inr ⟨step, List.mem_cons_of_mem _ mem, empty⟩
  | failed _ _ _ => exact .inl rfl
  | ended _ _ => exact .inr ⟨_, List.mem_cons_self, rfl⟩
  | gained _ asked _ _ ih =>
    have room := (Reader.readData asked).2.1
    rw [List.length_append] at unmet
    rcases ih (by omega) with broken | ⟨step, mem, empty⟩
    · exact .inl broken
    · exact .inr ⟨step, List.mem_cons_of_mem _ mem, empty⟩

theorem stepsLength {r : Reader} {need : Nat} {out : Fill} (h : Filled r need out) :
    out.steps.length ≤ r.actions.length + need := by
  induction h with
  | met r => exact Nat.zero_le _
  | interrupted _ asked _ _ ih =>
    have fewer := (Reader.readFault asked).2
    rw [List.length_cons]
    omega
  | failed due _ _ => rw [List.length_singleton]; omega
  | ended due _ => rw [List.length_singleton]; omega
  | gained _ asked some _ ih =>
    have kept := (Reader.readData asked).2
    have positive := List.length_pos_iff.mpr some
    rw [List.length_cons]
    omega

end Filled
end ScanEngine
