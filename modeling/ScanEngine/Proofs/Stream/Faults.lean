import ScanEngine.Proofs.Stream.Draining

/-! Faults of readers and writers, and what a load or a save reports of them. An interruption is no
fault of a request. The first fault is kept and comes before everything the engine answers; after
it the reader or writer is left alone, and a writer is not flushed either. -/
namespace ScanEngine

def ReadStep.fault? (s : ReadStep) : Option Fault :=
  match s.answer with
  | .done _ => none
  | .fault f => if f.kind = .interrupted then none else some f

/- Taking nothing of an offer is a fault too. -/
def WriteStep.fault? (s : WriteStep) : Option Fault :=
  match s.answer with
  | .done n => if n = 0 then some .nothingTaken else none
  | .fault f => if f.kind = .interrupted then none else some f

theorem Filled.firstFault {r : Reader} {need : Nat} {out : Fill} (h : Filled r need out) :
    out.fault = out.steps.findSome? ReadStep.fault? := by
  induction h with
  | met r => rfl
  | interrupted _ _ again _ ih => simpa [ReadStep.fault?, again] using ih
  | failed _ _ final => simp [ReadStep.fault?, final]
  | ended _ _ => rfl
  | gained _ _ _ _ ih => exact ih

theorem Sends.firstFault {w : Writer} {offer : Bytes} {out : Sent} (h : Sends w offer out) :
    out.fault = out.steps.findSome? WriteStep.fault? := by
  induction h with
  | whole w => rfl
  | interrupted _ _ again _ ih => simpa [WriteStep.fault?, again] using ih
  | failed _ _ final => simp [WriteStep.fault?, final]
  | refused _ _ => rfl
  | took _ _ some _ ih => simpa [WriteStep.fault?, some] using ih

def Final {σ : Type} (failed : σ → Bool) (steps : List σ) : Prop :=
  steps.Pairwise fun earlier _ => failed earlier = false

theorem finalCons {σ : Type} {failed : σ → Bool} {step : σ} {steps : List σ}
    (fine : failed step = false) (rest : Final failed steps) : Final failed (step :: steps) :=
  List.pairwise_cons.mpr ⟨fun _ _ => fine, rest⟩

theorem finalAppend {σ : Type} {failed : σ → Bool} {steps more : List σ}
    (fine : steps.any failed = false) (rest : Final failed more) :
    Final failed (steps ++ more) := by
  induction steps with
  | nil => exact rest
  | cons step steps ih =>
    obtain ⟨first, others⟩ := Bool.or_eq_false_iff.mp fine
    exact finalCons first (ih others)

theorem Filled.stepsFinal {r : Reader} {need : Nat} {out : Fill} (h : Filled r need out) :
    Final ReadStep.failed out.steps := by
  induction h with
  | met r => exact .nil
  | interrupted _ _ again _ ih => exact finalCons (by simp [ReadStep.failed, again]) ih
  | failed _ _ _ => exact List.pairwise_singleton _ _
  | ended _ _ => exact List.pairwise_singleton _ _
  | gained _ _ _ _ ih => exact finalCons rfl ih

theorem Sends.stepsFinal {w : Writer} {offer : Bytes} {out : Sent} (h : Sends w offer out) :
    Final WriteStep.failed out.steps := by
  induction h with
  | whole w => exact .nil
  | interrupted _ _ again _ ih => exact finalCons (by simp [WriteStep.failed, again]) ih
  | failed _ _ _ => exact List.pairwise_singleton _ _
  | refused _ _ => exact List.pairwise_singleton _ _
  | took _ _ some _ ih => exact finalCons (beq_false_of_ne some) ih

namespace ElementSource

theorem serveFirstFault (s : ElementSource) (q : Request) (buffer : Bytes) :
    (s.serve q buffer).2.kept =
      s.kept.or ((s.serve q buffer).1.steps.findSome? ReadStep.fault?) := by
  by_cases idle : s.kept.isSome = true ∨ q.Void
  · rw [serveIgnored idle, List.findSome?_nil, Option.or_none]
  · have clear : s.kept = none := by simpa using fun kept => idle (.inl kept)
    rw [serveAsked idle, clear, Option.none_or]
    exact (filled s.reader q.length).firstFault

theorem serveFinal (s : ElementSource) (q : Request) (buffer : Bytes) :
    Final ReadStep.failed (s.serve q buffer).1.steps := by
  by_cases idle : s.kept.isSome = true ∨ q.Void
  · rw [serveIgnored idle]
    exact .nil
  · rw [serveAsked idle]
    exact (filled s.reader q.length).stepsFinal

theorem serveIntoFirstFault (s : ElementSource) (asked : List (Request × Bytes)) :
    (s.serveInto asked).2.kept =
      s.kept.or (((s.serveInto asked).1.flatMap Filling.steps).findSome? ReadStep.fault?) := by
  induction asked generalizing s with
  | nil => exact (Option.or_none).symm
  | cons first rest ih =>
    rw [serveInto, List.flatMap_cons, List.findSome?_append, ← Option.or_assoc, ← serveFirstFault]
    exact ih _

theorem serveIntoAfterFault {s : ElementSource} (kept : s.kept.isSome = true)
    (asked : List (Request × Bytes)) :
    s.serveInto asked = (asked.map fun p => ⟨p.1, [], 0, p.2⟩, s) := by
  induction asked with
  | nil => rfl
  | cons first rest ih => rw [serveInto, serveIgnored (.inl kept), ih, List.map_cons]

theorem serveIntoAppend (s : ElementSource) (first later : List (Request × Bytes)) :
    s.serveInto (first ++ later) =
      ((s.serveInto first).1 ++ ((s.serveInto first).2.serveInto later).1,
        ((s.serveInto first).2.serveInto later).2) := by
  induction first generalizing s with
  | nil => rfl
  | cons p rest ih => rw [List.cons_append, serveInto, ih]; rfl

theorem serveIntoFinal (s : ElementSource) (asked : List (Request × Bytes)) :
    Final ReadStep.failed ((s.serveInto asked).1.flatMap Filling.steps) := by
  induction asked generalizing s with
  | nil => exact .nil
  | cons first rest ih =>
    rw [serveInto, List.flatMap_cons]
    cases failed : (s.serve first.1 first.2).1.failed with
    | false => exact finalAppend failed (ih _)
    | true =>
      have kept : (s.serve first.1 first.2).2.kept.isSome = true := by
        rw [serveKept, failed, Bool.or_true]
      have silent (asked : List (Request × Bytes)) :
          (asked.map fun p => Filling.mk p.1 [] 0 p.2).flatMap Filling.steps = [] :=
        List.flatMap_eq_nil_iff.mpr (List.forall_mem_map.mpr fun _ _ => rfl)
      rw [serveIntoAfterFault kept, silent, List.append_nil]
      exact s.serveFinal first.1 first.2

end ElementSource

namespace ElementSink

theorem serveFirstFault (s : ElementSink) (w : WriteRequest) :
    (s.serve w).2.kept = s.kept.or ((s.serve w).1.steps.findSome? WriteStep.fault?) := by
  by_cases idle : s.kept.isSome = true ∨ w.request.Void
  · rw [(serveIdle idle).1, (serveIdle idle).2, List.findSome?_nil, Option.or_none]
  · obtain ⟨kept, due⟩ := not_or.mp idle
    have clear : s.kept = none := by simpa using kept
    rw [serveOffered (by rw [clear]; rfl) due, clear, Option.none_or]
    exact (sends s.writer w.bytes).firstFault

theorem serveFinal (s : ElementSink) (w : WriteRequest) :
    Final WriteStep.failed (s.serve w).1.steps := by
  by_cases idle : s.kept.isSome = true ∨ w.request.Void
  · rw [(serveIdle idle).1]
    exact .nil
  · obtain ⟨kept, due⟩ := not_or.mp idle
    rw [serveOffered (Bool.not_eq_true _ ▸ kept) due]
    exact (sends s.writer w.bytes).stepsFinal

theorem serveAllFirstFault (s : ElementSink) (asked : List WriteRequest) :
    (s.serveAll asked).2.kept =
      s.kept.or (((s.serveAll asked).1.flatMap Draining.steps).findSome? WriteStep.fault?) := by
  induction asked generalizing s with
  | nil => exact (Option.or_none).symm
  | cons w rest ih =>
    rw [serveAll, List.flatMap_cons, List.findSome?_append, ← Option.or_assoc, ← serveFirstFault]
    exact ih _

theorem serveAllAppend (s : ElementSink) (first later : List WriteRequest) :
    s.serveAll (first ++ later) =
      ((s.serveAll first).1 ++ ((s.serveAll first).2.serveAll later).1,
        ((s.serveAll first).2.serveAll later).2) := by
  induction first generalizing s with
  | nil => rfl
  | cons w rest ih => rw [List.cons_append, serveAll, ih]; rfl

theorem serveAllFinal (s : ElementSink) (asked : List WriteRequest) :
    Final WriteStep.failed ((s.serveAll asked).1.flatMap Draining.steps) := by
  induction asked generalizing s with
  | nil => exact .nil
  | cons w rest ih =>
    rw [serveAll, List.flatMap_cons]
    cases failed : (s.serve w).1.failed with
    | false => exact finalAppend failed (ih _)
    | true =>
      have kept : (s.serve w).2.kept.isSome = true := by rw [serveKept, failed, Bool.or_true]
      have silent (asked : List WriteRequest) :
          (asked.map fun w => Draining.mk w.request [] 0).flatMap Draining.steps = [] :=
        List.flatMap_eq_nil_iff.mpr (List.forall_mem_map.mpr fun _ _ => rfl)
      rw [(serveAllAfterFault kept rest).1, silent, List.append_nil]
      exact s.serveFinal w

end ElementSink

theorem ownedRules (token : Token) (c : Call) (s : Script) (e : Engine) :
    let owned := Ruleset.own token ((Operation.callForRules c).run s e).value
    (s.statusOf e c ≠ 0 → ∃ err, err.code = s.statusOf e c ∧ owned = .error err) ∧
      (s.statusOf e c = 0 → owned = match s.table with
        | none => .error .internalFatalError
        | some table => .ok ⟨token, e.rulesets, table, .empty⟩) := by
  simp only [Operation.callForRules, Operation.run, Ruleset.own]
  refine ⟨fun failed => ?_, fun fine => ?_⟩
  · obtain ⟨err, checked, code⟩ := EngineError.checkFailure failed
    rw [checked]
    exact ⟨err, code, rfl⟩
  · rw [if_pos fine, fine]
    cases s.table <;> rfl

theorem settledFault {token : Token} {answer : Answer × Option Table} {source : ElementSource}
    {f : Fault} (kept : source.kept = some f) :
    Ruleset.settle token (answer, source) = .error (.io ⟨.readingRules, .transfer f⟩) := by
  simp only [Ruleset.settle, kept]

theorem settledClear {token : Token} {answer : Answer × Option Table} {source : ElementSource}
    (clear : source.kept = none) :
    Ruleset.settle token (answer, source) = (Ruleset.own token answer).mapError .engine := by
  simp only [Ruleset.settle, clear]

theorem notedValue {ε : Type} (note : Ruleset → String) (outcome : Except ε Ruleset) (s : Script)
    (e : Engine) : ((Ruleset.noted note outcome).run s e).value = outcome := by
  cases outcome <;> rfl

theorem loadStreamValue (reader : Reader) {s : Script} {e : Engine}
    (granted : s.statusOf e .setUp = 0) :
    ((Ruleset.loadStream reader).run s e).value =
      Ruleset.settle ⟨⟩ (((Operation.callForRules (.loadStream true false)).run s e.called).value,
        ((ElementSource.ofReader reader).serveAll s.reads).2) := by
  rw [Ruleset.loadStream, Token.holdingGranted granted]
  rw [Operation.runBind, Operation.callForStreamRun]
  exact notedValue _ _ _ _

theorem loadStreamRefused (reader : Reader) {s : Script} {e : Engine}
    (refused : s.statusOf e .setUp ≠ 0) :
    ∃ err, err.code = s.statusOf e .setUp ∧
      ((Ruleset.loadStream reader).run s e).value = .error (.engine err) := by
  obtain ⟨err, code, held⟩ := Token.holdingRefused refused Failure.engine _
  rw [Ruleset.loadStream, held]
  exact ⟨err, code, rfl⟩

theorem firstReadFaultReported (actions : List ReadAction) (s : Script) (e : Engine) :
    let source := ElementSource.ofReader (.ofActions actions)
    let ran := (Ruleset.loadStream (.ofActions actions)).run s e
    let served := Trace.fillings ran.trace
    let first := (served.flatMap Filling.steps).findSome? ReadStep.fault?
    let status := s.statusOf e.called (.loadStream true false)
    (s.statusOf e .setUp ≠ 0 → served = [] ∧
      ∃ err, err.code = s.statusOf e .setUp ∧ ran.value = .error (.engine err)) ∧
    (s.statusOf e .setUp = 0 → served = (source.serveAll s.reads).1 ∧
      Conversation (.ofActions actions) (served.flatMap Filling.steps)
        (source.serveAll s.reads).2.reader ∧
      (∀ f, first = some f → ran.value = .error (.io ⟨.readingRules, .transfer f⟩)) ∧
      (first = none →
        (status ≠ 0 → ∃ err, err.code = status ∧ ran.value = .error (.engine err)) ∧
        (status = 0 → ran.value = match s.table with
          | none => .error (.engine .internalFatalError)
          | some table => .ok ⟨⟨⟩, e.rulesets, table, .empty⟩))) ∧
    ∀ asked later : List (Request × Bytes),
      Conversation (.ofActions actions) ((source.serveInto asked).1.flatMap Filling.steps)
        (source.serveInto asked).2.reader ∧
      Final ReadStep.failed ((source.serveInto asked).1.flatMap Filling.steps) ∧
      ((∃ f ∈ (source.serveInto asked).1, f.failed = true) →
        (source.serveInto (asked ++ later)).1 =
          (source.serveInto asked).1 ++ later.map fun p => ⟨p.1, [], 0, p.2⟩) := by
  intro source ran served first status
  refine ⟨fun refused => ?_, fun granted => ?_,
    fun asked later => ⟨source.serveIntoConversation asked, source.serveIntoFinal asked, ?_⟩⟩
  · exact ⟨(loadFillings _ s e).trans (if_neg refused), loadStreamRefused _ refused⟩
  · have all : served = (source.serveAll s.reads).1 := (loadFillings _ s e).trans (if_pos granted)
    have kept : (source.serveAll s.reads).2.kept = first := by
      change _ = (served.flatMap Filling.steps).findSome? _
      rw [all, ElementSource.serveAll, source.serveIntoFirstFault]
      exact Option.none_or
    have talk : Conversation (.ofActions actions) (served.flatMap Filling.steps)
        (source.serveAll s.reads).2.reader := by
      rw [all]
      exact source.serveIntoConversation _
    have value : ran.value = _ := loadStreamValue _ granted
    refine ⟨all, talk, fun f found => ?_, fun clear => ?_⟩
    · rw [value, settledFault (kept.trans found)]
    · obtain ⟨failing, granting⟩ := ownedRules ⟨⟩ (.loadStream true false) s e.called
      rw [value, settledClear (kept.trans clear)]
      refine ⟨fun failed => ?_, fun fine => ?_⟩
      · obtain ⟨err, code, owned⟩ := failing failed
        exact ⟨err, code, by rw [owned]; rfl⟩
      · rw [granting fine]
        cases s.table <;> rfl
  · intro failed
    have kept : (source.serveInto asked).2.kept.isSome = true := by
      rw [source.serveIntoKept, Bool.or_eq_true]
      exact .inr (List.any_eq_true.mpr failed)
    rw [source.serveIntoAppend, ElementSource.serveIntoAfterFault kept]

section
variable {r : Ruleset} {writer : Writer} {flush : Reply Unit} {s : Script} {e : Engine}

theorem saveStreamFaulty {f : Fault}
    (told : saveFault ((ElementSink.ofWriter writer).serveAll s.writes).2 flush = some f) :
    ((r.saveStream writer flush).run s e).value.1 = .error (.io ⟨.writingRules, .transfer f⟩) := by
  rw [saveStreamRun]
  simp only [told]

theorem saveStreamAnswered
    (told : saveFault ((ElementSink.ofWriter writer).serveAll s.writes).2 flush = none) :
    ((r.saveStream writer flush).run s e).value.1 =
      (EngineError.check (s.statusOf e (.saveStream r.handle false true))).mapError .engine := by
  rw [saveStreamRun]
  simp only [told]

end

theorem firstWriteFaultReported (r : Ruleset) (actions : List WriteAction) (flush : Reply Unit)
    (s : Script) (e : Engine) :
    let sink := ElementSink.ofWriter (.ofActions actions)
    let ran := (r.saveStream (.ofActions actions) flush).run s e
    let served := Trace.drainings ran.trace
    let first := (served.flatMap Draining.steps).findSome? WriteStep.fault?
    let status := s.statusOf e (.saveStream r.handle false true)
    served = (sink.serveAll s.writes).1 ∧
    Delivery (.ofActions actions) (served.flatMap Draining.steps) ran.value.2 ∧
    (ran.value.1 = .ok () ↔ first = none ∧ flush = .done () ∧ status = 0) ∧
    (∀ f, first = some f → ran.value.1 = .error (.io ⟨.writingRules, .transfer f⟩)) ∧
    (∀ f, first = none → flush = .fault f →
      ran.value.1 = .error (.io ⟨.writingRules, .transfer f⟩)) ∧
    (first = none → flush = .done () → status ≠ 0 →
      ∃ err, err.code = status ∧ ran.value.1 = .error (.engine err)) ∧
    ran.trace = .call (.saveStream r.handle false true) ⟨status, none⟩ :: (served.map .drained ++
      if first.isSome then [] else [.flushed flush]) ∧
    ∀ asked later : List WriteRequest,
      Delivery (.ofActions actions) ((sink.serveAll asked).1.flatMap Draining.steps)
        (sink.serveAll asked).2.writer ∧
      Final WriteStep.failed ((sink.serveAll asked).1.flatMap Draining.steps) ∧
      ((∃ d ∈ (sink.serveAll asked).1, d.failed = true) →
        (sink.serveAll (asked ++ later)).1 =
          (sink.serveAll asked).1 ++ later.map fun w => ⟨w.request, [], 0⟩) := by
  intro sink ran served first status
  obtain ⟨all, left⟩ : served = (sink.serveAll s.writes).1 ∧
      ran.value.2 = (sink.serveAll s.writes).2.writer := saveDrainings r _ flush s e
  have sent : Delivery (.ofActions actions) (served.flatMap Draining.steps) ran.value.2 := by
    rw [all, left]
    exact sink.serveAllDelivery s.writes
  have kept : (sink.serveAll s.writes).2.kept = first := by
    change _ = (served.flatMap Draining.steps).findSome? _
    rw [all, sink.serveAllFirstFault]
    exact Option.none_or
  have faulty (f : Fault) (found : first = some f) :
      ran.value.1 = .error (.io ⟨.writingRules, .transfer f⟩) :=
    saveStreamFaulty (by rw [saveFault.eq_def, kept, found, Option.some_or])
  have unflushed (f : Fault) (clear : first = none) (late : flush = .fault f) :
      ran.value.1 = .error (.io ⟨.writingRules, .transfer f⟩) :=
    saveStreamFaulty (by rw [saveFault.eq_def, kept, clear, late, Option.none_or])
  have answered (clear : first = none) (done : flush = .done ()) :
      ran.value.1 = (EngineError.check status).mapError .engine :=
    saveStreamAnswered (by rw [saveFault.eq_def, kept, clear, done, Option.none_or])
  have failing (clear : first = none) (done : flush = .done ()) (failed : status ≠ 0) :
      ∃ err, err.code = status ∧ ran.value.1 = .error (.engine err) := by
    obtain ⟨err, checked, code⟩ := EngineError.checkFailure failed
    exact ⟨err, code, by rw [answered clear done, checked]; rfl⟩
  refine ⟨all, sent, ⟨fun ok => ?_, ?_⟩, faulty, unflushed, failing, ?_,
    fun asked later => ⟨sink.serveAllDelivery asked, sink.serveAllFinal asked, fun failed => ?_⟩⟩
  · cases found : first with
    | some f => cases (faulty f found).symm.trans ok
    | none =>
      cases late : flush with
      | fault f => cases (unflushed f found late).symm.trans ok
      | done u =>
        refine ⟨rfl, rfl, Decidable.byContradiction fun failed => ?_⟩
        obtain ⟨err, -, refused⟩ := failing found late failed
        cases refused.symm.trans ok
  · rintro ⟨clear, done, fine⟩
    rw [answered clear done, fine]
    rfl
  · rw [← kept, all]
    exact congrArg Outcome.trace (saveStreamRun r _ flush s e)
  · have kept : (sink.serveAll asked).2.kept.isSome = true := by
      rw [sink.serveAllKept, Bool.or_eq_true]
      exact .inr (List.any_eq_true.mpr failed)
    rw [sink.serveAllAppend, (ElementSink.serveAllAfterFault kept later).1]

end ScanEngine
