import ScanEngine.Proofs.Status.Sessions
import ScanEngine.Proofs.Stream.Faults

/-! Statuses of main calls. A plan lists what an operation asks of the engine while all goes well. A
heedful operation follows its plan up to the first call that fails or hands out nothing, and fails
there with what that call reported. -/
namespace ScanEngine
open Operation

/- Main calls in order. Where an input is refused before a call, its failure stands in its place. -/
abbrev Plan := List (Except Failure Call)

/- How the calls that were made and the outcome go with a plan. -/
inductive Heeds {α : Type} : Plan → List (Call × Answer) → Except Failure α → Prop where
  | finished (value : α) : Heeds [] [] (.ok value)
  | refused {f : Failure} (rest : Plan) (own : ∀ err, f ≠ .engine err) :
      Heeds (.error f :: rest) [] (.error f)
  | stopped {c : Call} {a : Answer} {err : EngineError} (rest : Plan)
      (error : c.error? a = some err) : Heeds (.ok c :: rest) [(c, a)] (.error (.engine err))
  | passed {c : Call} {a : Answer} {plan : Plan} {made : List (Call × Answer)}
      {outcome : Except Failure α} (fine : c.error? a = none) (rest : Heeds plan made outcome) :
      Heeds (.ok c :: plan) ((c, a) :: made) outcome

namespace Call
variable {c : Call} {a : Answer}

theorem errorFine (fine : c.error? a = none) : a.status = 0 :=
  EngineError.ofCodeSuccess.mp (Option.or_eq_none_iff.mp fine).1

theorem errorFailed (failed : a.status ≠ 0) :
    ∃ err, c.error? a = some err ∧ err.code = a.status := by
  cases coded : EngineError.ofCode? a.status with
  | none => exact absurd (EngineError.ofCodeSuccess.mp coded) failed
  | some err => exact ⟨err, by rw [error?, coded, Option.some_or], EngineError.codeKept coded⟩

theorem errorPlain (plain : c.withheldError? = none) :
    c.error? a = EngineError.ofCode? a.status := by
  rw [error?, plain, ite_self, Option.or_none]

theorem errorWithheld (fine : a.status = 0) (nothing : a.handedOut = none) :
    c.error? a = c.withheldError? := by
  rw [error?, EngineError.ofCodeSuccess.mpr fine, nothing]
  rfl

end Call

namespace Heeds
variable {α β : Type} {plan : Plan} {made : List (Call × Answer)} {outcome : Except Failure α}

theorem map (h : Heeds plan made outcome) (f : α → β) : Heeds plan made (outcome.map f) := by
  induction h with
  | finished value => exact .finished (f value)
  | refused rest own => exact .refused rest own
  | stopped rest error => exact .stopped rest error
  | passed fine _ ih => exact .passed fine ih

theorem madeInOrder (h : Heeds plan made outcome) : (made.map fun p => .ok p.1) <+: plan := by
  induction h with
  | finished value => exact List.prefix_refl _
  | refused rest own => exact List.nil_prefix
  | stopped rest _ => exact List.prefix_append [_] rest
  | passed _ _ ih => exact (List.prefix_cons_inj _).mpr ih

theorem madeAllIfOk (h : Heeds plan made outcome) {value : α} (ok : outcome = .ok value) :
    plan = made.map (fun p => .ok p.1) ∧ ∀ p ∈ made, p.1.error? p.2 = none := by
  induction h with
  | finished value => exact ⟨rfl, List.forall_mem_nil _⟩
  | refused rest own => cases ok
  | stopped rest _ => cases ok
  | passed fine _ ih =>
    obtain ⟨followed, all⟩ := ih ok
    exact ⟨congrArg _ followed, List.forall_mem_cons.mpr ⟨fine, all⟩⟩

theorem endsAtFailure (h : Heeds plan made outcome) {before after : List (Call × Answer)} {c : Call}
    {a : Answer} {err : EngineError} (made' : made = before ++ (c, a) :: after)
    (error : c.error? a = some err) : after = [] ∧ outcome = .error (.engine err) := by
  induction h generalizing before with
  | finished value => cases before <;> cases made'
  | refused rest own => cases before <;> cases made'
  | stopped rest found =>
    cases before with
    | nil =>
      cases made'
      exact ⟨rfl, by rw [Option.some.inj (found.symm.trans error)]⟩
    | cons first before => cases before <;> cases made'
  | passed fine _ ih =>
    cases before with
    | nil =>
      cases made'
      cases fine.symm.trans error
    | cons first before =>
      cases made'
      exact ih rfl

theorem failsAtLast (h : Heeds plan made outcome) {err : EngineError}
    (failed : outcome = .error (.engine err)) :
    ∃ before c a, made = before ++ [(c, a)] ∧ c.error? a = some err := by
  induction h with
  | finished value => cases failed
  | refused rest own => exact absurd (Except.error.inj failed) (own err)
  | stopped rest error =>
    cases failed
    exact ⟨[], _, _, rfl, error⟩
  | passed _ _ ih =>
    obtain ⟨before, c, a, made', error⟩ := ih failed
    exact ⟨_ :: before, c, a, congrArg _ made', error⟩

end Heeds

/- Whatever the engine answers; with streams, as long as no reader, writer or flush fails. -/
def Operation.Heedful {ε α : Type} (streams : Bool) (report : ε → Failure) (plan : Plan)
    (m : Operation (Except ε α)) : Prop :=
  ∀ s e, (streams = true → (m.run s e).trace.undisturbed = true) →
    Heeds plan (m.run s e).trace.main ((m.run s e).value.mapError report)

section
variable {ε φ α β : Type} {streams : Bool} {report : ε → Failure} {plan : Plan}

theorem heedfulRefused (report : ε → Failure) {z : ε} (own : ∀ err, report z ≠ .engine err) :
    (pure (.error z) : Operation (Except ε α)).Heedful streams report (.error (report z) :: plan) :=
  fun _ _ _ => .refused plan own

theorem heedfulThen {final : φ → Failure} {m : Operation (Except ε α)}
    {k : Except ε α → Operation (Except φ β)} (first : m.Heedful streams report plan)
    (rest : ∀ outcome s e, ((k outcome).run s e).trace.main = [] ∧
      ∃ f : α → β, ((k outcome).run s e).value.mapError final = (outcome.mapError report).map f) :
    (m >>= k).Heedful streams final plan := by
  intro s e calm
  rw [runBind] at calm ⊢
  simp only [Trace.undisturbedAppend, Bool.and_eq_true] at calm
  have calm := fun on => (calm on).1
  obtain ⟨silent, f, passedOn⟩ := rest (m.run s e).value s (m.run s e).engine
  simp only [Trace.mainAppend, silent, List.append_nil, passedOn]
  exact (first s e calm).map f

theorem heedsChecked {c : Call} {a : Answer} (plain : c.withheldError? = none) :
    Heeds [.ok c] [(c, a)] ((EngineError.check a.status).mapError .engine) := by
  rw [EngineError.check]
  cases coded : EngineError.ofCode? a.status with
  | none => exact .passed ((Call.errorPlain plain).trans coded) (.finished ())
  | some err => exact .stopped [] ((Call.errorPlain plain).trans coded)

theorem mainNone {t : Trace} (silent : ∀ event ∈ t, event.main? = none) : t.main = [] :=
  List.filterMap_eq_nil_iff.mpr silent

theorem mainCons {c : Call} (main : c.isMain = true) (a : Answer) (rest : Trace) :
    Trace.main (.call c a :: rest) = (c, a) :: rest.main :=
  List.filterMap_cons_some (if_pos main)

theorem checkedMap (status : Int32) (value : α) :
    ((EngineError.check status).map fun _ => value).mapError Failure.engine =
      ((EngineError.check status).mapError .engine).map fun _ => value := by
  cases EngineError.check status <;> rfl

theorem mapErrorId (outcome : Except ε α) : outcome.mapError id = outcome := by
  cases outcome <;> rfl

theorem checkedHeedful {c : Call} (plain : c.withheldError? = none) (main : c.isMain = true) :
    (call c >>= fun status => pure ((EngineError.check status).mapError .engine)).Heedful false id
      [.ok c] := by
  intro s e _
  simp only [runBind, runCall, runPure, List.append_nil, mainCons main, mapErrorId]
  exact heedsChecked plain

end

namespace Token
variable {ε α : Type} {streams : Bool} {report : ε → Failure} {plan : Plan}

theorem acquireHeedful : acquire.Heedful false .engine [.ok .setUp] := by
  intro s e _
  rw [acquire, runBind, runCall]
  cases coded : EngineError.ofCode? (s.statusOf e .setUp) with
  | none =>
    simp only [EngineError.check, coded]
    exact .passed ((Call.errorPlain rfl).trans coded) (.finished _)
  | some err =>
    simp only [EngineError.check, coded]
    exact .stopped [] ((Call.errorPlain rfl).trans coded)

theorem closingMain (s : Script) (inner : Outcome (Except ε α)) :
    (closing s inner).trace.main = [] := by
  unfold closing
  cases inner.value with
  | ok v => rfl
  | error f =>
    obtain ⟨severity, message, released⟩ := releaseRun ⟨⟩ s inner.engine
    simp only [released]
    rfl

theorem holdingHeedful {refusal : EngineError → ε} {body : Token → Operation (Except ε α)}
    (refused : ∀ err, report (refusal err) = .engine err)
    (inner : ∀ t, (body t).Heedful streams report plan) :
    (holding refusal body).Heedful streams report (.ok .setUp :: plan) := by
  intro s e calm
  cases coded : EngineError.ofCode? (s.statusOf e .setUp) with
  | none =>
    rw [holdingGranted (EngineError.ofCodeSuccess.mp coded)] at calm ⊢
    simp only [Trace.undisturbedAppend, Bool.and_eq_true] at calm
    simp only [Trace.mainAppend, closingMain, List.append_nil]
    exact .passed rfl (inner ⟨⟩ s e.called fun on => (calm on).1)
  | some err =>
    have ran : (holding refusal body).run s e = ⟨.error (refusal err), e.called,
        [.call .setUp ⟨s.statusOf e .setUp, none⟩]⟩ := by
      rw [holding, acquire]
      simp only [runBind, runCall, EngineError.check, coded]
      rfl
    rw [ran]
    change Heeds _ _ (.error (report (refusal err)))
    rw [refused]
    exact .stopped plan ((Call.errorPlain rfl).trans coded)

end Token

namespace Ruleset

theorem notedMain {ε : Type} (note : Ruleset → String) (outcome : Except ε Ruleset) (s : Script)
    (e : Engine) : ((noted note outcome).run s e).trace.main = [] := by
  cases outcome <;> rfl

theorem ownedHeeds (t : Token) {c : Call} (due : c.withheldError? = some .internalFatalError)
    (s : Script) (e : Engine) :
    let offered := (callForRules c).run s e
    Heeds [.ok c] [(c, offered.value.1)] ((own t offered.value).mapError .engine) := by
  simp only [callForRules, run, own]
  cases coded : EngineError.ofCode? (s.statusOf e c) with
  | some err =>
    simp only [EngineError.check, coded]
    exact .stopped [] (by rw [Call.error?, coded, Option.some_or])
  | none =>
    simp only [EngineError.check, EngineError.ofCodeSuccess.mp coded, if_true]
    cases s.table with
    | none => exact .stopped [] ((Call.errorWithheld rfl rfl).trans due)
    | some table => exact .passed rfl (.finished _)

theorem offerMain {c : Call} (main : c.isMain = true) (s : Script) (e : Engine) :
    ((callForRules c).run s e).trace.main = [(c, ((callForRules c).run s e).value.1)] :=
  mainCons main _ []

theorem offerHeedful {ε : Type} {report : ε → Failure} (t : Token) {c : Call}
    (due : c.withheldError? = some .internalFatalError) (main : c.isMain = true)
    (note : Ruleset → String) {taken : Answer × Option Table → Except ε Ruleset}
    (owned : ∀ offered, (taken offered).mapError report = (own t offered).mapError .engine) :
    (callForRules c >>= fun offered => noted note (taken offered)).Heedful false report
      [.ok c] := by
  intro s e _
  rw [runBind]
  simp only [Trace.mainAppend, notedMain, notedValue, List.append_nil, offerMain main, owned]
  exact ownedHeeds t due s e

theorem loadFileHeedful (path : Bytes) : (loadFile path).Heedful false id
    [.ok .setUp, ((pathString path).map .loadRules).mapError .zeroByte] := by
  refine Token.holdingHeedful (fun _ => rfl) fun t => ?_
  cases pathString path with
  | error z => exact heedfulRefused id (by rintro err ⟨⟩)
  | ok fileName => exact offerHeedful t rfl rfl _ fun _ => mapErrorId _

theorem undisturbedKept {source : ElementSource} (clear : source.kept = none)
    (requests : List Request)
    (calm : Trace.undisturbed ((source.serveAll requests).1.map .filled) = true) :
    (source.serveAll requests).2.kept = none := by
  rw [Trace.undisturbed, List.any_map, Bool.not_eq_true'] at calm
  have kept := source.serveIntoKept (requests.map fun q => (q, ElementSource.freshBuffer q))
  rw [clear, Option.isSome_none, Bool.false_or] at kept
  exact Option.isNone_iff_eq_none.mp (Option.isSome_eq_false_iff.mp (kept.trans calm))

theorem loadStreamHeedful (reader : Reader) : (loadStream reader).Heedful true id
    [.ok .setUp, .ok (.loadStream true false)] := by
  refine Token.holdingHeedful (fun _ => rfl) fun t s e calm => ?_
  rw [runBind, callForStreamRun] at calm ⊢
  simp only [Trace.undisturbedAppend, Bool.and_eq_true] at calm
  have silent (served : List Filling) : Trace.main (served.map .filled) = [] :=
    mainNone (List.forall_mem_map.mpr fun _ _ => rfl)
  simp only [Trace.mainAppend, notedMain, notedValue, List.append_nil, mapErrorId, silent,
    settledClear (undisturbedKept rfl s.reads (calm trivial).1.2)]
  exact ownedHeeds t rfl s e

theorem saveFileHeedful (r : Ruleset) (path : Bytes) : (r.saveFile path).Heedful false id
    [((pathString path).map (.saveRules r.handle)).mapError .zeroByte] := by
  unfold saveFile
  cases pathString path with
  | error z => exact heedfulRefused id (by rintro err ⟨⟩)
  | ok fileName => exact checkedHeedful rfl rfl

theorem undisturbedSink {sink : ElementSink} (clear : sink.kept = none)
    (requests : List WriteRequest)
    (calm : Trace.undisturbed ((sink.serveAll requests).1.map .drained) = true) :
    (sink.serveAll requests).2.kept = none := by
  rw [Trace.undisturbed, List.any_map, Bool.not_eq_true'] at calm
  have kept := sink.serveAllKept requests
  rw [clear, Option.isSome_none, Bool.false_or] at kept
  exact Option.isNone_iff_eq_none.mp (Option.isSome_eq_false_iff.mp (kept.trans calm))

theorem saveStreamHeedful (r : Ruleset) (writer : Writer) (flush : Reply Unit) :
    (Prod.fst <$> r.saveStream writer flush).Heedful true id
      [.ok (.saveStream r.handle false true)] := by
  intro s e calm
  rw [map_eq_pure_bind, runBind, saveStreamRun] at calm ⊢
  simp only [runPure, List.append_nil, mapErrorId] at calm ⊢
  have later : Trace.undisturbed (_ ++ _) = true := calm trivial
  rw [Trace.undisturbedAppend, Bool.and_eq_true] at later
  have clear := undisturbedSink rfl s.writes later.1
  have silent (served : List Draining) : Trace.main (served.map .drained) = [] :=
    mainNone (List.forall_mem_map.mpr fun _ _ => rfl)
  rw [clear] at later
  have main : Call.isMain (.saveStream r.handle false true) = true := rfl
  simp only [mainCons main, Trace.mainAppend, silent, clear, saveFault, Option.none_or]
  cases flush with
  | done _ => exact heedsChecked rfl
  | fault f => cases later.2

theorem deliverMain (found : List Nat) (messages : List Message) :
    ∀ event ∈ (Scan.deliver found messages).1, event.main? = none := by
  induction messages generalizing found with
  | nil => exact List.forall_mem_nil _
  | cons m rest ih => exact List.forall_mem_cons.mpr ⟨rfl, ih _⟩

theorem matchingHeedful {c : Call} (plain : c.withheldError? = none) (main : c.isMain = true) :
    (Scan.matching c).Heedful false .engine [.ok c] := by
  intro s e _
  rw [Scan.matchingRun, mainCons main, mainNone (deliverMain _ _), checkedMap]
  exact (heedsChecked plain).map _

theorem scanMemoryHeedful (r : Ruleset) (content : Bytes) (timeout : UInt16) :
    (r.scanMemory content timeout).Heedful false .engine
      [.ok (.scanMemory r.handle (r.options timeout) content)] := by
  refine heedfulThen (matchingHeedful rfl rfl) fun outcome s e => ?_
  cases outcome with
  | error err => exact ⟨rfl, id, rfl⟩
  | ok found => exact ⟨rfl, id, rfl⟩

theorem scanFileHeedful (r : Ruleset) (files : Files) (path : Bytes) (timeout : UInt16) :
    (r.scanFile files path timeout).Heedful false id
      [((files.read path).map (.scanFile r.handle (r.options timeout))).mapError
        fun fault => .io ⟨.openScanFile, .path fault⟩] := by
  unfold scanFile
  cases files.read path with
  | error fault => exact heedfulRefused id (by rintro err ⟨⟩)
  | ok content =>
    refine heedfulThen (matchingHeedful rfl rfl) fun outcome s e => ?_
    cases outcome with
    | error err => exact ⟨rfl, id, rfl⟩
    | ok found => exact ⟨rfl, id, rfl⟩

end Ruleset

namespace Compiler

theorem ownedHeeds (t : Token) (a : Answer) :
    Heeds [.ok .createCompiler] [(.createCompiler, a)] ((own t a).mapError .engine) := by
  obtain ⟨status, handedOut⟩ := a
  cases coded : EngineError.ofCode? status with
  | some err =>
    simp only [own, EngineError.check, coded]
    exact .stopped [] (by rw [Call.error?, coded, Option.some_or])
  | none =>
    have fine := EngineError.ofCodeSuccess.mp coded
    simp only [own, EngineError.check, coded]
    cases handedOut with
    | none => exact .stopped [] (Call.errorWithheld fine rfl)
    | some handle => exact .passed (by rw [Call.error?, coded]; rfl) (.finished _)

theorem createHeedful : create.Heedful false .engine [.ok .setUp, .ok .createCompiler] :=
  Token.holdingHeedful (fun _ => rfl) fun t _ _ _ => ownedHeeds t _

theorem defineHeedful (c : Compiler) (identifier : Bytes) (value : External) :
    (c.define identifier value).Heedful false id
      [(do return .define c.handle (← cString identifier) (← externalValue value) :
        Except ZeroByte Call).mapError .zeroByte] := by
  unfold define
  cases cString identifier with
  | error z => exact heedfulRefused id (by rintro err ⟨⟩)
  | ok identifier =>
    cases externalValue value with
    | error z => exact heedfulRefused id (by rintro err ⟨⟩)
    | ok value =>
      exact checkedHeedful rfl (by cases value <;> rfl)

theorem compileHeedful (c : Compiler) :
    c.compile.Heedful false .engine [.ok .setUp, .ok (.takeRules c.handle)] := by
  have taken (t : Token) : (c.take t).Heedful false .engine [.ok (.takeRules c.handle)] :=
    Ruleset.offerHeedful t rfl rfl _ fun _ => rfl
  refine heedfulThen (Token.holdingHeedful (fun _ => rfl) taken) fun outcome s e => ?_
  obtain ⟨severity, message, destroyed⟩ := c.destroyRun s e
  simp only [runBind, destroyed, runPure]
  exact ⟨rfl, id, by cases outcome <;> rfl⟩

end Compiler

namespace Setting

theorem changeHeedful (setting : Setting) (value : Nat) :
    (setting.change value).Heedful false .engine [.ok (.setConfig setting value)] :=
  fun _ _ _ => heedsChecked rfl

theorem readHeedful (setting : Setting) :
    setting.read.Heedful false .engine [.ok (.getConfig setting)] := by
  intro s e _
  have read : (setting.read.run s e).value.mapError Failure.engine = _ := checkedMap _ _
  rw [read]
  exact (heedsChecked rfl).map _

end Setting
end ScanEngine
