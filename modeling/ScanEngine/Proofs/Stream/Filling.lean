import ScanEngine.Proofs.Stream.Conversation
import ScanEngine.Ruleset.Storage

/-! Requests for elements, one after another on one reader. A void request, and every request after
a failed one, passes the reader by; any other gets its bytes, the whole elements among them counted.
Buffers may hold anything before, and the requests come in any order and number. -/
namespace ScanEngine

def Request.Void (q : Request) : Prop :=
  q.size = 0 ∨ q.count = 0 ∨ Request.sizeLimit ≤ q.size * q.count

instance (q : Request) : Decidable q.Void :=
  inferInstanceAs (Decidable (q.size = 0 ∨ q.count = 0 ∨ Request.sizeLimit ≤ q.size * q.count))

structure Filling.Ignored (buffer : Bytes) (f : Filling) : Prop where
  unasked : f.steps = []
  returned : f.returned = 0
  buffer : f.buffer = buffer

structure Filling.Honoured (q : Request) (buffer : Bytes) (f : Filling) : Prop where
  buffer : f.buffer = f.received ++ buffer.drop f.received.length
  bound : f.received.length ≤ q.size * q.count
  returned : f.returned = if f.failed then 0 else f.received.length / q.size
  whole : f.returned ≤ q.count
  short : f.received.length < q.size * q.count →
    f.failed = true ∨ ∃ step ∈ f.steps, step.answer = .done []

namespace ElementSource

theorem ignoredIff {s : ElementSource} {q : Request} :
    (s.kept.isSome || q.length == 0 || !q.fits) = true ↔ s.kept.isSome = true ∨ q.Void := by
  have wide : q.fits = false ↔ Request.sizeLimit ≤ q.length := by
    rw [Request.fits, decide_eq_false_iff_not, Nat.not_lt]
  have none : q.length = 0 ↔ q.size = 0 ∨ q.count = 0 := Nat.mul_eq_zero
  rw [Bool.or_eq_true, Bool.or_eq_true, beq_iff_eq, Bool.not_eq_true', wide, none, or_assoc,
    or_assoc]
  rfl

theorem serveIgnored {s : ElementSource} {q : Request} (idle : s.kept.isSome = true ∨ q.Void)
    (buffer : Bytes) : s.serve q buffer = (⟨q, [], 0, buffer⟩, s) := by
  unfold serve
  rw [if_pos (ignoredIff.mpr idle)]

theorem serveAsked {s : ElementSource} {q : Request} (due : ¬(s.kept.isSome = true ∨ q.Void))
    (buffer : Bytes) :
    s.serve q buffer =
      let out := s.reader.fill q.length
      (⟨q, out.steps, if out.fault.isSome then 0 else out.bytes.length / q.size,
        out.bytes ++ buffer.drop out.bytes.length⟩, ⟨out.reader, out.fault⟩) := by
  unfold serve
  rw [if_neg (fun idle => due (ignoredIff.mp idle))]
  cases broken : (s.reader.fill q.length).fault <;> simp [broken]

theorem serveHonoured {s : ElementSource} {q : Request} (due : ¬(s.kept.isSome = true ∨ q.Void))
    (buffer : Bytes) : (s.serve q buffer).1.Honoured q buffer := by
  have out := filled s.reader q.length
  have real : ¬q.Void := fun void => due (.inr void)
  have size : 0 < q.size := Nat.pos_of_ne_zero fun zero => real (.inl zero)
  rw [serveAsked due]
  refine ⟨?_, ?_, ?_, ?_, ?_⟩
  all_goals simp only [Filling.received, Filling.failed, ← out.bytesOfSteps, ← out.faultIffFailed]
  · exact out.bytesLength
  · split
    · exact Nat.zero_le _
    · refine Nat.div_le_of_le_mul ?_
      exact out.bytesLength
  · exact out.endsIfUnmet

theorem serveCalls (s : ElementSource) (q : Request) (buffer : Bytes) :
    (s.serve q buffer).1.steps.length ≤ s.reader.actions.length + q.length := by
  by_cases idle : s.kept.isSome = true ∨ q.Void
  · rw [serveIgnored idle]
    exact Nat.zero_le _
  · rw [serveAsked idle]
    exact (filled s.reader q.length).stepsLength

theorem serveConversation (s : ElementSource) (q : Request) (buffer : Bytes) :
    Conversation s.reader (s.serve q buffer).1.steps (s.serve q buffer).2.reader := by
  by_cases idle : s.kept.isSome = true ∨ q.Void
  · rw [serveIgnored idle]
    exact .nil _
  · rw [serveAsked idle]
    exact (filled s.reader q.length).conversation

theorem serveKept (s : ElementSource) (q : Request) (buffer : Bytes) :
    (s.serve q buffer).2.kept.isSome = (s.kept.isSome || (s.serve q buffer).1.failed) := by
  by_cases idle : s.kept.isSome = true ∨ q.Void
  · rw [serveIgnored idle, Filling.failed, List.any_nil, Bool.or_false]
  · have clear : s.kept.isSome = false := by simpa using fun kept => idle (.inl kept)
    rw [serveAsked idle, clear, Bool.false_or]
    exact (filled s.reader q.length).faultIffFailed

theorem serveIntoLength (s : ElementSource) (asked : List (Request × Bytes)) :
    (s.serveInto asked).1.length = asked.length := by
  induction asked generalizing s with
  | nil => rfl
  | cons first rest ih => exact congrArg Nat.succ (ih _)

theorem serveIntoConversation (s : ElementSource) (asked : List (Request × Bytes)) :
    Conversation s.reader ((s.serveInto asked).1.flatMap Filling.steps)
      (s.serveInto asked).2.reader := by
  induction asked generalizing s with
  | nil => exact .nil _
  | cons first rest ih => exact conversationAppend (s.serveConversation first.1 first.2) (ih _)

theorem serveIntoKept (s : ElementSource) (asked : List (Request × Bytes)) :
    (s.serveInto asked).2.kept.isSome =
      (s.kept.isSome || (s.serveInto asked).1.any Filling.failed) := by
  induction asked generalizing s with
  | nil => simp [serveInto]
  | cons first rest ih =>
    simp only [serveInto, ih, serveKept, List.any_cons, Bool.or_assoc]

theorem serveIntoAt {s : ElementSource} {asked : List (Request × Bytes)} {i : Nat} {q : Request}
    {buffer : Bytes} (found : asked[i]? = some (q, buffer)) :
    ∃ met : ElementSource, (s.serveInto asked).1[i]? = some (met.serve q buffer).1 ∧
      met.kept.isSome = (s.kept.isSome || ((s.serveInto asked).1.take i).any Filling.failed) ∧
      met.reader.actions.length ≤ s.reader.actions.length := by
  induction asked generalizing s i with
  | nil => simp at found
  | cons first rest ih =>
    cases i with
    | zero =>
      cases Option.some.inj found
      exact ⟨s, rfl, by simp, Nat.le_refl _⟩
    | succ i =>
      obtain ⟨met, served, kept, fewer⟩ := ih (s := (s.serve first.1 first.2).2) found
      refine ⟨met, served, ?_, ?_⟩
      · simpa only [serveInto, List.take_succ_cons, List.any_cons, serveKept, Bool.or_assoc]
          using kept
      · exact Nat.le_trans fewer (conversationActions (s.serveConversation first.1 first.2))

end ElementSource

def Trace.fillings (t : Trace) : List Filling :=
  t.filterMap fun
    | .filled f => some f
    | _ => none

theorem fillingsAppend (t u : Trace) : Trace.fillings (t ++ u) = t.fillings ++ u.fillings :=
  List.filterMap_append

theorem fillingsOfServed (served : List Filling) :
    Trace.fillings (served.map .filled) = served := by
  induction served with
  | nil => rfl
  | cons f rest ih => exact congrArg (f :: ·) ih

theorem notedFillings {ε : Type} (note : Ruleset → String) (outcome : Except ε Ruleset)
    (s : Script) (e : Engine) :
    Trace.fillings ((Ruleset.noted note outcome).run s e).trace = [] := by
  cases outcome with
  | ok r => rfl
  | error f => rfl

theorem closingFillings {ε α : Type} (s : Script) (inner : Outcome (Except ε α)) :
    Trace.fillings (Token.closing s inner).trace = [] := by
  unfold Token.closing
  split
  · rfl
  · obtain ⟨severity, message, ran⟩ := Token.releaseRun ⟨⟩ s inner.engine
    rw [ran]
    rfl

theorem loadFillings (reader : Reader) (s : Script) (e : Engine) :
    Trace.fillings ((Ruleset.loadStream reader).run s e).trace =
      if s.statusOf e .setUp = 0 then ((ElementSource.ofReader reader).serveAll s.reads).1
      else [] := by
  split
  · rename_i granted
    rw [Ruleset.loadStream, Token.holdingGranted granted]
    change Trace.fillings (_ ++ _) = _
    rw [fillingsAppend, closingFillings, List.append_nil, Operation.runBind,
      Operation.callForStreamRun]
    change Trace.fillings (_ ++ _) = _
    rw [fillingsAppend, notedFillings, List.append_nil]
    exact fillingsOfServed _
  · rename_i refused
    obtain ⟨err, _, ran⟩ := Token.holdingRefused refused Failure.engine _
    rw [Ruleset.loadStream, ran]
    rfl

theorem requestsServedExactly (actions : List ReadAction) (asked : List (Request × Bytes)) :
    let served := (ElementSource.ofReader (.ofActions actions)).serveInto asked
    served.1.length = asked.length ∧
    (∀ i q buffer, asked[i]? = some (q, buffer) →
      ∃ f, served.1[i]? = some f ∧ f.steps.length ≤ actions.length + q.size * q.count ∧
        ((q.Void ∨ ∃ earlier ∈ served.1.take i, earlier.failed = true) → f.Ignored buffer) ∧
        (¬(q.Void ∨ ∃ earlier ∈ served.1.take i, earlier.failed = true) → f.Honoured q buffer)) ∧
    Conversation (.ofActions actions) (served.1.flatMap Filling.steps) served.2.reader ∧
    served.1.flatMap Filling.received ++ served.2.reader.remaining =
      (Reader.ofActions actions).remaining ∧
    ∀ (s : Script) (e : Engine),
      Trace.fillings ((Ruleset.loadStream (.ofActions actions)).run s e).trace =
        if s.statusOf e .setUp = 0 then ((ElementSource.ofReader (.ofActions actions)).serveInto
          (s.reads.map fun q => (q, ElementSource.freshBuffer q))).1
        else [] := by
  intro served
  have talk := ElementSource.serveIntoConversation (.ofReader (.ofActions actions)) asked
  refine ⟨ElementSource.serveIntoLength _ _, ?_, talk, ?_, loadFillings _⟩
  · intro i q buffer found
    obtain ⟨met, answered, kept, fewer⟩ :=
      ElementSource.serveIntoAt (s := .ofReader (.ofActions actions)) found
    have broken : met.kept.isSome = true ↔ ∃ earlier ∈ served.1.take i, earlier.failed = true := by
      rw [kept, ← List.any_eq_true]
      rfl
    rw [← broken, or_comm]
    refine ⟨_, answered, ?_, ?_, fun due => ElementSource.serveHonoured due buffer⟩
    · exact Nat.le_trans (met.serveCalls q buffer) (Nat.add_le_add_right fewer _)
    · intro idle
      rw [ElementSource.serveIgnored idle]
      exact ⟨rfl, rfl, rfl⟩
  · have kept := conversationBytes talk
    rwa [List.flatMap_assoc] at kept

example : ((ElementSource.ofReader (.ofActions [.data [1, 2, 3, 4, 5]])).serveInto
    [(⟨2, 4⟩, List.replicate 8 0)]).1.map (fun f => (f.returned, f.buffer)) =
    [(2, [1, 2, 3, 4, 5, 0, 0, 0])] := by cbv

end ScanEngine
