import ScanEngine.Proofs.Stream.Delivery
import ScanEngine.Proofs.Stream.Filling

/-! Requests to write, one after another on one writer. A void request, and every request after a
failed one, passes the writer by; any other is answered in full when the writer takes all its bytes,
and with zero when the writer fails. What the writer holds in the end are the bytes of the answered
requests and a remainder, which only a failed request leaves. -/
namespace ScanEngine

structure Draining.Unasked (returned : Nat) (d : Draining) : Prop where
  unasked : d.steps = []
  returned : d.returned = returned

structure Draining.Honoured (w : WriteRequest) (d : Draining) : Prop where
  whole : d.failed = false → d.returned = w.request.count ∧ d.accepted = w.bytes
  part : d.failed = true → d.returned = 0 ∧ d.accepted <+: w.bytes ∧ d.accepted ≠ w.bytes

def WriteRequest.answered (w : WriteRequest) (d : Draining) : Bytes :=
  if w.request.length ≠ 0 ∧ d.returned = w.request.count then w.bytes else []

def answeredBytes (asked : List WriteRequest) (served : List Draining) : Bytes :=
  (List.zipWith WriteRequest.answered asked served).flatten

/- What the writer took beyond the answered requests: a front of the first failed one, after which
it is asked nothing. -/
inductive Remainder : List WriteRequest → List Draining → Bytes → Prop where
  | nil : Remainder [] [] []
  | passed {w : WriteRequest} {d : Draining} {asked : List WriteRequest} {served : List Draining}
      {left : Bytes} (fine : d.failed = false) (rest : Remainder asked served left) :
      Remainder (w :: asked) (d :: served) left
  | broken {w : WriteRequest} {d : Draining} {asked : List WriteRequest} {served : List Draining}
      (failed : d.failed = true) (front : d.accepted <+: w.bytes) (part : d.accepted ≠ w.bytes)
      (silent : ∀ later ∈ served, later.steps = []) :
      Remainder (w :: asked) (d :: served) d.accepted

theorem unaskedAccepts {d : Draining} (unasked : d.steps = []) :
    d.failed = false ∧ d.accepted = [] := by
  rw [Draining.failed, Draining.accepted, unasked]
  exact ⟨rfl, rfl⟩

theorem answeredNone (w : WriteRequest) {d : Draining} (none : d.returned = 0) :
    w.answered d = [] := by
  refine if_neg fun answered => answered.1 ?_
  rw [Request.length, ← answered.2, none, Nat.mul_zero]

namespace ElementSink

theorem serveAfterFault {s : ElementSink} (kept : s.kept.isSome = true) (w : WriteRequest) :
    s.serve w = (⟨w.request, [], 0⟩, s) := by
  unfold serve
  rw [if_pos (by rw [kept, Bool.true_or])]

theorem serveOverlong (s : ElementSink) {w : WriteRequest}
    (wide : Request.sizeLimit ≤ w.request.length) : s.serve w = (⟨w.request, [], 0⟩, s) := by
  have refused : w.request.fits = false := decide_eq_false (Nat.not_lt.mpr wide)
  unfold serve
  rw [if_pos (by rw [refused, Bool.not_false, Bool.or_true])]

theorem serveNothing {s : ElementSink} (clear : s.kept.isSome = false) {w : WriteRequest}
    (none : w.request.length = 0) : s.serve w = (⟨w.request, [], w.request.count⟩, s) := by
  have fits : w.request.fits = true := by
    rw [Request.fits, none]
    rfl
  unfold serve
  rw [if_neg (by rw [clear, fits]; decide), if_pos none]

theorem serveOffered {s : ElementSink} (clear : s.kept.isSome = false) {w : WriteRequest}
    (due : ¬w.request.Void) :
    s.serve w =
      let out := s.writer.writeAll w.bytes
      (⟨w.request, out.steps, if out.fault.isSome then 0 else w.request.count⟩,
        ⟨out.writer, out.fault⟩) := by
  have some : w.request.length ≠ 0 := fun none => due (by
    rcases Nat.mul_eq_zero.mp none with size | count
    · exact .inl size
    · exact .inr (.inl count))
  have fits : w.request.fits = true :=
    decide_eq_true (Nat.not_le.mp fun wide => due (.inr (.inr wide)))
  unfold serve
  rw [if_neg (by rw [clear, fits]; decide), if_neg some]
  cases broken : (s.writer.writeAll w.bytes).fault <;> simp [broken]

theorem serveVoid {s : ElementSink} (clear : s.kept.isSome = false) {w : WriteRequest}
    (void : w.request.Void) :
    ∃ n, s.serve w = (⟨w.request, [], n⟩, s) ∧ w.answered ⟨w.request, [], n⟩ = [] ∧
      (n = w.request.count ∨ n = 0) := by
  by_cases none : w.request.length = 0
  · exact ⟨_, serveNothing clear none, if_neg fun answered => answered.1 none, .inl rfl⟩
  · have wide : Request.sizeLimit ≤ w.request.length := by
      rcases void with size | count | wide
      · exact absurd (Nat.mul_eq_zero.mpr (.inl size)) none
      · exact absurd (Nat.mul_eq_zero.mpr (.inr count)) none
      · exact wide
    exact ⟨0, s.serveOverlong wide, answeredNone w rfl, .inr rfl⟩

theorem serveIdle {s : ElementSink} {w : WriteRequest}
    (idle : s.kept.isSome = true ∨ w.request.Void) :
    (s.serve w).1.steps = [] ∧ (s.serve w).2 = s := by
  cases kept : s.kept.isSome with
  | true =>
    rw [serveAfterFault kept]
    exact ⟨rfl, rfl⟩
  | false =>
    have void : w.request.Void := idle.resolve_left (by rw [kept]; decide)
    obtain ⟨n, ran, -, -⟩ := serveVoid kept void
    rw [ran]
    exact ⟨rfl, rfl⟩

theorem serveHonoured {s : ElementSink} (clear : s.kept.isSome = false) {w : WriteRequest}
    (due : ¬w.request.Void) : (s.serve w).1.Honoured w := by
  have out := sends s.writer w.bytes
  obtain ⟨rest, whole, ended⟩ := out.untakenRest
  rw [serveOffered clear due]
  refine ⟨fun fine => ?_, fun failed => ?_⟩
  · rw [Draining.failed, ← out.faultIffFailed] at fine
    have none : (s.writer.writeAll w.bytes).fault = none := by simpa using fine
    rw [ended.mpr none, List.append_nil] at whole
    exact ⟨if_neg (by rw [fine]; decide), whole⟩
  · rw [Draining.failed, ← out.faultIffFailed] at failed
    refine ⟨if_pos failed, ⟨rest, whole⟩, fun all => ?_⟩
    have none : rest = [] := List.append_right_eq_self.mp (whole.trans all.symm)
    rw [ended.mp none] at failed
    cases failed

theorem serveReturned (s : ElementSink) (w : WriteRequest) :
    (s.serve w).1.returned = w.request.count ∨ (s.serve w).1.returned = 0 := by
  cases kept : s.kept.isSome with
  | true =>
    rw [serveAfterFault kept]
    exact .inr rfl
  | false =>
    by_cases void : w.request.Void
    · obtain ⟨n, ran, -, answer⟩ := serveVoid kept void
      rw [ran]
      exact answer
    · have honoured := serveHonoured kept void
      cases failed : (s.serve w).1.failed with
      | true => exact .inr (honoured.part failed).1
      | false => exact .inl (honoured.whole failed).1

theorem serveCalls (s : ElementSink) (w : WriteRequest) :
    (s.serve w).1.steps.length ≤ s.writer.actions.length + w.bytes.length := by
  by_cases idle : s.kept.isSome = true ∨ w.request.Void
  · rw [(serveIdle idle).1]
    exact Nat.zero_le _
  · obtain ⟨clear, due⟩ := not_or.mp idle
    rw [serveOffered (Bool.not_eq_true _ ▸ clear) due]
    exact (sends s.writer w.bytes).stepsLength

theorem serveDelivery (s : ElementSink) (w : WriteRequest) :
    Delivery s.writer (s.serve w).1.steps (s.serve w).2.writer := by
  by_cases idle : s.kept.isSome = true ∨ w.request.Void
  · rw [(serveIdle idle).1, (serveIdle idle).2]
    exact .nil _
  · obtain ⟨clear, due⟩ := not_or.mp idle
    rw [serveOffered (Bool.not_eq_true _ ▸ clear) due]
    exact (sends s.writer w.bytes).delivery

theorem serveKept (s : ElementSink) (w : WriteRequest) :
    (s.serve w).2.kept.isSome = (s.kept.isSome || (s.serve w).1.failed) := by
  by_cases idle : s.kept.isSome = true ∨ w.request.Void
  · rw [(serveIdle idle).2, (unaskedAccepts (serveIdle idle).1).1, Bool.or_false]
  · obtain ⟨clear, due⟩ := not_or.mp idle
    rw [Bool.not_eq_true] at clear
    rw [clear, Bool.false_or, serveOffered clear due]
    exact (sends s.writer w.bytes).faultIffFailed

theorem serveAllLength (s : ElementSink) (asked : List WriteRequest) :
    (s.serveAll asked).1.length = asked.length := by
  induction asked generalizing s with
  | nil => rfl
  | cons w rest ih => exact congrArg Nat.succ (ih _)

theorem serveAllDelivery (s : ElementSink) (asked : List WriteRequest) :
    Delivery s.writer ((s.serveAll asked).1.flatMap Draining.steps)
      (s.serveAll asked).2.writer := by
  induction asked generalizing s with
  | nil => exact .nil _
  | cons w rest ih => exact deliveryAppend (s.serveDelivery w) (ih _)

theorem serveAllKept (s : ElementSink) (asked : List WriteRequest) :
    (s.serveAll asked).2.kept.isSome =
      (s.kept.isSome || (s.serveAll asked).1.any Draining.failed) := by
  induction asked generalizing s with
  | nil => simp [serveAll]
  | cons w rest ih => simp only [serveAll, ih, serveKept, List.any_cons, Bool.or_assoc]

theorem serveAllTake (s : ElementSink) (asked : List WriteRequest) (n : Nat) :
    (s.serveAll (asked.take n)).1 = (s.serveAll asked).1.take n := by
  induction asked generalizing s n with
  | nil => rw [List.take_nil]; exact List.take_nil.symm
  | cons w rest ih =>
    cases n with
    | zero => rfl
    | succ n => exact congrArg (_ :: ·) (ih _ n)

theorem serveAllAt {s : ElementSink} {asked : List WriteRequest} {i : Nat} {w : WriteRequest}
    (found : asked[i]? = some w) :
    (s.serveAll asked).1[i]? = some ((s.serveAll (asked.take i)).2.serve w).1 := by
  induction asked generalizing s i with
  | nil => simp at found
  | cons first rest ih =>
    cases i with
    | zero => cases Option.some.inj found; rfl
    | succ i => exact ih found

theorem serveAllAfterFault {s : ElementSink} (kept : s.kept.isSome = true)
    (asked : List WriteRequest) :
    (s.serveAll asked).1 = asked.map (fun w => ⟨w.request, [], 0⟩) ∧ (s.serveAll asked).2 = s := by
  induction asked with
  | nil => exact ⟨rfl, rfl⟩
  | cons w rest ih =>
    rw [serveAll, serveAfterFault kept w, ih.1]
    exact ⟨rfl, ih.2⟩

theorem answeredAfterFault (asked : List WriteRequest) :
    answeredBytes asked (asked.map fun w => ⟨w.request, [], 0⟩) = [] := by
  induction asked with
  | nil => rfl
  | cons w rest ih =>
    rw [answeredBytes, List.map_cons, List.zipWith_cons_cons, List.flatten_cons,
      answeredNone w rfl]
    exact ih

theorem serveTaken {s : ElementSink} (clear : s.kept.isSome = false) (w : WriteRequest) :
    (s.serve w).2.writer.taken = s.writer.taken ++ (s.serve w).1.accepted ∧
      w.answered (s.serve w).1 = if (s.serve w).1.failed then [] else (s.serve w).1.accepted := by
  refine ⟨deliveryTaken (s.serveDelivery w), ?_⟩
  by_cases void : w.request.Void
  · obtain ⟨n, ran, nothing, -⟩ := serveVoid clear void
    rw [ran, nothing]
    rfl
  · have honoured := serveHonoured clear void
    cases failed : (s.serve w).1.failed with
    | true => exact answeredNone w (honoured.part failed).1
    | false =>
      have some : w.request.length ≠ 0 := fun none => void ((Nat.mul_eq_zero.mp none).imp_right .inl)
      obtain ⟨returned, all⟩ := honoured.whole failed
      rw [WriteRequest.answered, if_pos ⟨some, returned⟩, ← all]
      rfl

theorem serveAllTaken {s : ElementSink} (clear : s.kept.isSome = false)
    (asked : List WriteRequest) :
    ∃ left, (s.serveAll asked).2.writer.taken =
        s.writer.taken ++ answeredBytes asked (s.serveAll asked).1 ++ left ∧
      Remainder asked (s.serveAll asked).1 left := by
  induction asked generalizing s with
  | nil => exact ⟨[], by simp [serveAll, answeredBytes], .nil⟩
  | cons w rest ih =>
    obtain ⟨taken, answered⟩ := serveTaken clear w
    have kept := s.serveKept w
    rw [clear, Bool.false_or] at kept
    rw [serveAll, answeredBytes, List.zipWith_cons_cons, List.flatten_cons, answered]
    cases failed : (s.serve w).1.failed with
    | false =>
      obtain ⟨left, later, remainder⟩ := ih (kept.trans failed)
      refine ⟨left, ?_, .passed failed remainder⟩
      rw [later, taken, List.append_assoc s.writer.taken]
      rfl
    | true =>
      have due : ¬w.request.Void := fun void => by
        rw [(unaskedAccepts (serveIdle (.inr void)).1).1] at failed
        cases failed
      obtain ⟨-, front, part⟩ := (serveHonoured clear due).part failed
      obtain ⟨ignored, same⟩ := serveAllAfterFault (kept.trans failed) rest
      refine ⟨(s.serve w).1.accepted, ?_, .broken failed front part ?_⟩
      · have nothing := answeredAfterFault rest
        rw [answeredBytes] at nothing
        rw [same, taken, ignored, nothing]
        simp
      · rw [ignored]
        simp

end ElementSink

def Trace.drainings (t : Trace) : List Draining :=
  t.filterMap fun
    | .drained d => some d
    | _ => none

theorem drainingsAppend (t u : Trace) : Trace.drainings (t ++ u) = t.drainings ++ u.drainings :=
  List.filterMap_append

theorem drainingsOfServed (served : List Draining) :
    Trace.drainings (served.map .drained) = served := by
  induction served with
  | nil => rfl
  | cons d rest ih => exact congrArg (d :: ·) ih

def saveFault (sink : ElementSink) (flush : Reply Unit) : Option Fault :=
  sink.kept.or (match flush with
    | .done () => none
    | .fault f => some f)

theorem finishRun (sink : ElementSink) (flush : Reply Unit) (s : Script) (e : Engine) :
    (Ruleset.finish sink flush).run s e =
      ⟨saveFault sink flush, e, if sink.kept.isSome then [] else [.flushed flush]⟩ := by
  unfold Ruleset.finish saveFault
  cases sink.kept with
  | some f => rfl
  | none => cases flush <;> rfl

theorem saveStreamRun (r : Ruleset) (writer : Writer) (flush : Reply Unit) (s : Script)
    (e : Engine) :
    let status := s.statusOf e (.saveStream r.handle false true)
    let served := (ElementSink.ofWriter writer).serveAll s.writes
    (r.saveStream writer flush).run s e =
      ⟨(match saveFault served.2 flush with
        | some f => .error (.io ⟨.writingRules, .transfer f⟩)
        | none => (EngineError.check status).mapError .engine, served.2.writer), e.called,
        .call (.saveStream r.handle false true) ⟨status, none⟩ :: (served.1.map .drained ++
          if served.2.kept.isSome then [] else [.flushed flush])⟩ := by
  intro status served
  have servedRun : (Operation.serveWrites (.ofWriter writer)).run s e.called =
      ⟨served.2, e.called, served.1.map .drained⟩ := rfl
  simp only [Ruleset.saveStream, Operation.runBind, Operation.runCall, servedRun, finishRun]
  cases saveFault served.2 flush <;>
    simp only [Operation.runPure, List.append_nil, List.singleton_append] <;> rfl

theorem saveDrainings (r : Ruleset) (writer : Writer) (flush : Reply Unit) (s : Script)
    (e : Engine) :
    let served := (ElementSink.ofWriter writer).serveAll s.writes
    let saved := (r.saveStream writer flush).run s e
    Trace.drainings saved.trace = served.1 ∧ saved.value.2 = served.2.writer := by
  intro served saved
  have ended : Trace.drainings (if served.2.kept.isSome then [] else [.flushed flush]) = [] := by
    split <;> rfl
  refine ⟨?_, congrArg (·.value.2) (saveStreamRun r writer flush s e)⟩
  rw [show saved.trace = _ from congrArg Outcome.trace (saveStreamRun r writer flush s e)]
  change Trace.drainings (_ ++ _) = _
  rw [drainingsAppend, drainingsOfServed, ended, List.append_nil]

theorem requestsWrittenExactly (actions : List WriteAction) (asked : List WriteRequest) :
    let sink := ElementSink.ofWriter (.ofActions actions)
    let served := sink.serveAll asked
    served.1.length = asked.length ∧
    (∀ i w, asked[i]? = some w →
      ∃ d, served.1[i]? = some d ∧ d.steps.length ≤ actions.length + w.bytes.length ∧
        (d.returned = w.request.count ∨ d.returned = 0) ∧
        ((∃ earlier ∈ served.1.take i, earlier.failed = true) → d.Unasked 0) ∧
        (¬(∃ earlier ∈ served.1.take i, earlier.failed = true) →
          (w.request.length = 0 → d.Unasked w.request.count) ∧
          (Request.sizeLimit ≤ w.request.length → d.Unasked 0) ∧
          (¬w.request.Void → d.Honoured w))) ∧
    (∀ n, (sink.serveAll (asked.take n)).2.kept.isSome = (served.1.take n).any Draining.failed) ∧
    Delivery (.ofActions actions) (served.1.flatMap Draining.steps) served.2.writer ∧
    (∃ left, served.2.writer.taken = answeredBytes asked served.1 ++ left ∧
      Remainder asked served.1 left) ∧
    ∀ (r : Ruleset) (flush : Reply Unit) (s : Script) (e : Engine), s.writes = asked →
      let saved := (r.saveStream (.ofActions actions) flush).run s e
      Trace.drainings saved.trace = served.1 ∧ saved.value.2 = served.2.writer := by
  intro sink served
  have kept (n : Nat) :
      (sink.serveAll (asked.take n)).2.kept.isSome = (served.1.take n).any Draining.failed := by
    rw [sink.serveAllKept, sink.serveAllTake]
    rfl
  refine ⟨sink.serveAllLength asked, ?_, kept, sink.serveAllDelivery asked, ?_, ?_⟩
  · intro i w found
    have broken : (sink.serveAll (asked.take i)).2.kept.isSome = true ↔
        ∃ earlier ∈ served.1.take i, earlier.failed = true := by
      rw [kept, List.any_eq_true]
    have fewer := deliveryActions (sink.serveAllDelivery (asked.take i))
    rw [← broken]
    generalize met_ : (sink.serveAll (asked.take i)).2 = met at fewer
    have answered : served.1[i]? = some (met.serve w).1 := met_ ▸ ElementSink.serveAllAt found
    refine ⟨_, answered, ?_, met.serveReturned w, fun faulty => ?_, fun clear => ?_⟩
    · exact Nat.le_trans (met.serveCalls w) (Nat.add_le_add_right fewer _)
    · rw [ElementSink.serveAfterFault faulty]
      exact ⟨rfl, rfl⟩
    · rw [Bool.not_eq_true] at clear
      refine ⟨fun none => ?_, fun wide => ?_, ElementSink.serveHonoured clear⟩
      · rw [ElementSink.serveNothing clear none]
        exact ⟨rfl, rfl⟩
      · rw [met.serveOverlong wide]
        exact ⟨rfl, rfl⟩
  · exact ElementSink.serveAllTaken rfl asked
  · rintro r flush s e rfl
    exact saveDrainings r (.ofActions actions) flush s e

example : ((ElementSink.ofWriter (.ofActions [.accept 2, .fault ⟨.interrupted, none⟩, .accept 9,
    .accept 1, .accept 0])).serveAll [⟨⟨2, 2⟩, [1, 2, 3, 4]⟩, ⟨⟨0, 5⟩, []⟩, ⟨⟨1, 3⟩, [5, 6, 7]⟩,
    ⟨⟨1, 1⟩, [8]⟩]).1.map (fun d => (d.returned, d.accepted)) =
    [(2, [1, 2, 3, 4]), (5, []), (0, [5]), (0, [])] := by cbv

end ScanEngine
