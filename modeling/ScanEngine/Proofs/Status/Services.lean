import ScanEngine.Proofs.Status.Plans

/-! The operations that answer with a status of the engine, one name for each, and their plans.
What a service reports is the status of its first failing call, and nothing else of the engine. -/
namespace ScanEngine
open Operation

inductive Service where
  | acquire
  | create
  | define (c : Compiler) (identifier : Bytes) (value : External)
  | compile (c : Compiler)
  | loadFile (path : Bytes)
  | loadStream (reader : Reader)
  | saveFile (r : Ruleset) (path : Bytes)
  | saveStream (r : Ruleset) (writer : Writer) (flush : Reply Unit)
  | scanMemory (r : Ruleset) (content : Bytes) (timeout : UInt16)
  | scanFile (r : Ruleset) (files : Files) (path : Bytes) (timeout : UInt16)
  | change (setting : Setting) (value : Nat)
  | read (setting : Setting)

namespace Service

def plan : Service → Plan
  | acquire => [.ok .setUp]
  | create => [.ok .setUp, .ok .createCompiler]
  | define c identifier value =>
    [(do return .define c.handle (← cString identifier) (← Compiler.externalValue value) :
      Except ZeroByte Call).mapError .zeroByte]
  | compile c => [.ok .setUp, .ok (.takeRules c.handle)]
  | loadFile path => [.ok .setUp, ((pathString path).map .loadRules).mapError .zeroByte]
  | loadStream _ => [.ok .setUp, .ok (.loadStream true false)]
  | saveFile r path => [((pathString path).map (.saveRules r.handle)).mapError .zeroByte]
  | saveStream r _ _ => [.ok (.saveStream r.handle false true)]
  | scanMemory r content timeout => [.ok (.scanMemory r.handle (r.options timeout) content)]
  | scanFile r files path timeout =>
    [((files.read path).map (.scanFile r.handle (r.options timeout))).mapError
      fun fault => .io ⟨.openScanFile, .path fault⟩]
  | change setting value => [.ok (.setConfig setting value)]
  | read setting => [.ok (.getConfig setting)]

def streams : Service → Bool
  | loadStream _ | saveStream _ _ _ => true
  | _ => false

def reporting {ε α : Type} (report : ε → Failure) (m : Operation (Except ε α)) :
    Operation (Except Failure Unit) :=
  return ((← m).mapError report).map fun _ => ()

def perform : Service → Operation (Except Failure Unit)
  | acquire => reporting .engine Token.acquire
  | create => reporting .engine Compiler.create
  | define c identifier value => reporting id (c.define identifier value)
  | compile c => reporting .engine c.compile
  | loadFile path => reporting id (Ruleset.loadFile path)
  | loadStream reader => reporting id (Ruleset.loadStream reader)
  | saveFile r path => reporting id (r.saveFile path)
  | saveStream r writer flush => reporting id (Prod.fst <$> r.saveStream writer flush)
  | scanMemory r content timeout => reporting .engine (r.scanMemory content timeout)
  | scanFile r files path timeout => reporting id (r.scanFile files path timeout)
  | change setting value => reporting .engine (setting.change value)
  | read setting => reporting .engine setting.read

theorem reportingHeedful {ε α : Type} {streams : Bool} {report : ε → Failure} {plan : Plan}
    {m : Operation (Except ε α)} (first : m.Heedful streams report plan) :
    (reporting report m).Heedful streams id plan :=
  heedfulThen first fun _ _ _ => ⟨rfl, fun _ => (), mapErrorId _⟩

theorem performHeedful (service : Service) :
    service.perform.Heedful service.streams id service.plan := by
  cases service with
  | acquire => exact reportingHeedful Token.acquireHeedful
  | create => exact reportingHeedful Compiler.createHeedful
  | define c identifier value => exact reportingHeedful (c.defineHeedful identifier value)
  | compile c => exact reportingHeedful c.compileHeedful
  | loadFile path => exact reportingHeedful (Ruleset.loadFileHeedful path)
  | loadStream reader => exact reportingHeedful (Ruleset.loadStreamHeedful reader)
  | saveFile r path => exact reportingHeedful (r.saveFileHeedful path)
  | saveStream r writer flush => exact reportingHeedful (r.saveStreamHeedful writer flush)
  | scanMemory r content timeout => exact reportingHeedful (r.scanMemoryHeedful content timeout)
  | scanFile r files path timeout => exact reportingHeedful (r.scanFileHeedful files path timeout)
  | change setting value => exact reportingHeedful (setting.changeHeedful value)
  | read setting => exact reportingHeedful setting.readHeedful

theorem reportingTidy {ε α : Type} {report : ε → Failure} {m : Operation (Except ε α)}
    (first : m.Tidy) : (reporting report m).Tidy :=
  tidyBind first fun _ => tidyPure _

theorem performTidy (service : Service) : service.perform.Tidy := by
  cases service with
  | acquire => exact reportingTidy Token.acquireTidy
  | create => exact reportingTidy Compiler.createTidy
  | define c identifier value => exact reportingTidy (Compiler.defineTidy identifier value)
  | compile c => exact reportingTidy c.compileTidy
  | loadFile path => exact reportingTidy (Ruleset.loadFileTidy path)
  | loadStream reader => exact reportingTidy (Ruleset.loadStreamTidy reader)
  | saveFile r path => exact reportingTidy (r.saveFileTidy path)
  | saveStream r writer flush =>
    refine reportingTidy ?_
    rw [map_eq_pure_bind]
    exact tidyBind (r.saveStreamTidy writer flush) fun _ => tidyPure _
  | scanMemory r content timeout => exact reportingTidy (r.scanMemoryTidy content timeout)
  | scanFile r files path timeout => exact reportingTidy (r.scanFileTidy files path timeout)
  | change setting value => exact reportingTidy (setting.changeTidy value)
  | read setting => exact reportingTidy setting.readTidy

end Service

/- No status is swallowed or altered. A service makes the calls of its plan in order: it succeeds
only with all of them made and answered with zero, and the first that fails, or that withholds what
it was made for, is the last and gives the error, with the very status of the call. Statuses of
clean-up calls are warned of, once each, and change no result, of services and of whole sessions. -/
theorem statusesReported :
    (∀ code : Int32, EngineError.check code = .ok () ↔ code = 0) ∧
    (∀ code : Int32, code ≠ 0 → ∃ err, EngineError.check code = .error err ∧ err.code = code) ∧
    (∀ code other : Int32, EngineError.check code = EngineError.check other → code = other) ∧
    (∀ (service : Service) (s : Script) (e : Engine),
      let ran := service.perform.run s e
      let made := ran.trace.main
      ((service.streams = true → ran.trace.undisturbed = true) →
        (made.map fun p => .ok p.1) <+: service.plan ∧
        (∀ value, ran.value = .ok value →
          service.plan = (made.map fun p => .ok p.1) ∧ ∀ p ∈ made, p.2.status = 0) ∧
        (∀ before c a after, made = before ++ (c, a) :: after →
          (a.status ≠ 0 → after = [] ∧
            ∃ err, err.code = a.status ∧ ran.value = .error (.engine err)) ∧
          (a.status = 0 → a.handedOut = none → ∀ err, c.withheldError? = some err → after = [] ∧
            ran.value = .error (.engine err))) ∧
        ∀ err, ran.value = .error (.engine err) →
          ∃ before c a, made = before ++ [(c, a)] ∧ c.error? a = some err) ∧
      ran.trace.warnings = ran.trace.warningsDue s ∧
      ∀ tearDowns destructions,
        (service.perform.run (s.withCleanUps tearDowns destructions) e).value = ran.value) ∧
    (∀ (files : Files) (state : Session.State) (acts : List (Session.Act × Statuses × Statuses)),
      let plain := Session.advanceAll files state (acts.map Prod.fst)
      let recast :=
        Session.advanceAll files state (acts.map fun (act, reports) => act.withCleanUps reports)
      recast.1.map Session.Entry.result = plain.1.map Session.Entry.result ∧ recast.2 = plain.2 ∧
      Trace.warnings (plain.1.flatMap Session.Entry.trace) =
        ((acts.map Prod.fst).zip plain.1).flatMap fun (act, entry) =>
          entry.trace.warningsDue act.script) ∧
    ∀ (session : Session) (s : Script) (e : Engine),
      (session.close.run s e).trace.warnings = (session.close.run s e).trace.warningsDue s := by
  refine ⟨fun _ => EngineError.checkSuccess, fun _ => EngineError.checkFailure,
    fun _ _ => EngineError.checkDistinct, fun service s e => ⟨fun calm => ?_, ?_, fun a b => ?_⟩,
    fun files state acts => ?_, fun session s e => session.closeTidy.warned s e⟩
  · have heeds := service.performHeedful s e calm
    rw [mapErrorId] at heeds
    refine ⟨heeds.madeInOrder, fun value ok => ?_, fun before c a after split => ⟨fun failed => ?_, ?_⟩,
      fun err failed => heeds.failsAtLast failed⟩
    · obtain ⟨followed, fine⟩ := heeds.madeAllIfOk ok
      exact ⟨followed, fun p mem => Call.errorFine (fine p mem)⟩
    · obtain ⟨err, error, code⟩ := Call.errorFailed failed
      obtain ⟨last, value⟩ := heeds.endsAtFailure split error
      exact ⟨last, err, code, value⟩
    · intro fine nothing err due
      exact heeds.endsAtFailure split ((Call.errorWithheld fine nothing).trans due)
  · exact service.performTidy.warned s e
  · exact (service.performTidy.indifferent s e a b).1
  · obtain ⟨results, final⟩ := Session.advanceAllIndifferent files state acts
    exact ⟨results, final, Session.advanceAllWarned files state _⟩

example :
    let reports : Routine → Statuses
      | .takeRules => (-7 : Int32)
      | .tearDown => (5 : Int32)
      | _ => (0 : Int32)
    let ran := (Service.compile ⟨⟨⟩, 0⟩).perform.run { status := reports } {}
    ran.value = .error (.engine (.unknown (-7))) ∧
      ran.trace.main.map (fun p => p.2.status) = [0, -7] ∧ ran.trace.warnings.length = 2 :=
  ⟨rfl, rfl, rfl⟩

end ScanEngine
