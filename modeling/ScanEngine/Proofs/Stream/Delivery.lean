import ScanEngine.Stream.Writer

/-! What passes between `writeAll` and a writer. A delivery is a list of offers with the writer's own
answers to them, in order, and what the writer takes in it is the front of each offer. Sending
everything is such a delivery; only a failure leaves a part of the offer untaken. -/
namespace ScanEngine

inductive Delivery : Writer → List WriteStep → Writer → Prop where
  | nil (w : Writer) : Delivery w [] w
  | cons {w next last : Writer} {offer : Bytes} {answer : Reply Nat} {steps : List WriteStep}
      (asked : w.write offer = (answer, next)) (rest : Delivery next steps last) :
      Delivery w (⟨offer, answer⟩ :: steps) last

theorem deliveryAppend {w middle last : Writer} {steps more : List WriteStep}
    (first : Delivery w steps middle) (second : Delivery middle more last) :
    Delivery w (steps ++ more) last := by
  induction first with
  | nil => exact second
  | cons asked _ ih => exact .cons asked (ih second)

theorem deliveryTaken {w last : Writer} {steps : List WriteStep} (sent : Delivery w steps last) :
    last.taken = w.taken ++ steps.flatMap WriteStep.taken := by
  induction sent with
  | nil w => exact (List.append_nil _).symm
  | @cons w next last offer answer steps asked rest ih =>
    rw [ih, List.flatMap_cons, ← List.append_assoc]
    cases answer with
    | done n => rw [(Writer.writeData asked).1]; rfl
    | fault f => rw [(Writer.writeFault asked).1]; exact congrArg (· ++ _) (List.append_nil _).symm

theorem deliveryActions {w last : Writer} {steps : List WriteStep} (sent : Delivery w steps last) :
    last.actions.length ≤ w.actions.length := by
  induction sent with
  | nil => exact Nat.le_refl _
  | @cons w next last offer answer steps asked rest ih =>
    refine Nat.le_trans ih ?_
    cases answer with
    | done n => exact (Writer.writeData asked).2.2
    | fault f => exact Nat.le_of_lt (Writer.writeFault asked).2

inductive Sends : Writer → Bytes → Sent → Prop where
  | whole (w : Writer) : Sends w [] ⟨[], none, w⟩
  | interrupted {w next : Writer} {offer : Bytes} {f : Fault} {more : Sent} (due : offer ≠ [])
      (asked : w.write offer = (.fault f, next)) (again : f.kind = .interrupted)
      (rest : Sends next offer more) :
      Sends w offer { more with steps := ⟨offer, .fault f⟩ :: more.steps }
  | failed {w next : Writer} {offer : Bytes} {f : Fault} (due : offer ≠ [])
      (asked : w.write offer = (.fault f, next)) (final : f.kind ≠ .interrupted) :
      Sends w offer ⟨[⟨offer, .fault f⟩], some f, next⟩
  | refused {w next : Writer} {offer : Bytes} (due : offer ≠ [])
      (asked : w.write offer = (.done 0, next)) :
      Sends w offer ⟨[⟨offer, .done 0⟩], some .nothingTaken, next⟩
  | took {w next : Writer} {offer : Bytes} {n : Nat} {more : Sent} (due : offer ≠ [])
      (asked : w.write offer = (.done n, next)) (some : n ≠ 0)
      (rest : Sends next (offer.drop n) more) :
      Sends w offer { more with steps := ⟨offer, .done n⟩ :: more.steps }

theorem sends (w : Writer) (offer : Bytes) : Sends w offer (w.writeAll offer) := by
  fun_induction Writer.writeAll w offer with
  | case1 w offer none =>
    have empty : offer = [] := List.isEmpty_iff.mp none
    subst empty
    exact .whole w
  | case2 w offer due f next asked step again more ih =>
    exact .interrupted (fun empty => due (List.isEmpty_iff.mpr empty)) asked again ih
  | case3 w offer due f next asked step final =>
    exact .failed (fun empty => due (List.isEmpty_iff.mpr empty)) asked final
  | case4 w offer due next asked step =>
    exact .refused (fun empty => due (List.isEmpty_iff.mpr empty)) asked
  | case5 w offer due n next asked step some more ih =>
    exact .took (fun empty => due (List.isEmpty_iff.mpr empty)) asked some ih

namespace Sends

theorem delivery {w : Writer} {offer : Bytes} {out : Sent} (h : Sends w offer out) :
    Delivery w out.steps out.writer := by
  induction h with
  | whole w => exact .nil w
  | interrupted _ asked _ _ ih => exact .cons asked ih
  | failed _ asked _ => exact .cons asked (.nil _)
  | refused _ asked => exact .cons asked (.nil _)
  | took _ asked _ _ ih => exact .cons asked ih

theorem faultIffFailed {w : Writer} {offer : Bytes} {out : Sent} (h : Sends w offer out) :
    out.fault.isSome = out.steps.any WriteStep.failed := by
  induction h with
  | whole w => rfl
  | interrupted _ _ again _ ih => simpa [WriteStep.failed, again] using ih
  | failed _ _ final => simpa [WriteStep.failed] using final
  | refused _ _ => rfl
  | @took _ _ offer n _ _ _ some _ ih =>
    have clear : (WriteStep.mk offer (.done n)).failed = false := beq_false_of_ne some
    rw [List.any_cons, clear, Bool.false_or]
    exact ih

theorem untakenRest {w : Writer} {offer : Bytes} {out : Sent} (h : Sends w offer out) :
    ∃ rest, out.steps.flatMap WriteStep.taken ++ rest = offer ∧
      (rest = [] ↔ out.fault = none) := by
  induction h with
  | whole w => exact ⟨[], rfl, by simp⟩
  | interrupted _ _ _ _ ih => exact ih
  | @failed _ _ offer _ due _ _ => exact ⟨offer, rfl, by simpa using due⟩
  | @refused _ _ offer due _ => exact ⟨offer, rfl, by simpa using due⟩
  | @took _ _ offer n _ _ _ _ _ ih =>
    obtain ⟨rest, whole, ended⟩ := ih
    refine ⟨rest, ?_, ended⟩
    rw [List.flatMap_cons, List.append_assoc, whole]
    exact List.take_append_drop n offer

theorem stepsLength {w : Writer} {offer : Bytes} {out : Sent} (h : Sends w offer out) :
    out.steps.length ≤ w.actions.length + offer.length := by
  induction h with
  | whole w => exact Nat.zero_le _
  | interrupted _ asked _ _ ih =>
    have fewer := (Writer.writeFault asked).2
    rw [List.length_cons]
    omega
  | failed due _ _ =>
    have positive := List.length_pos_iff.mpr due
    rw [List.length_singleton]
    omega
  | refused due _ =>
    have positive := List.length_pos_iff.mpr due
    rw [List.length_singleton]
    omega
  | took due asked some _ ih =>
    have kept := (Writer.writeData asked).2
    rw [List.length_drop] at ih
    rw [List.length_cons]
    omega

end Sends
end ScanEngine
