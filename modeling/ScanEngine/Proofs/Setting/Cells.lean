import ScanEngine.Operation

/-! The settings as cells that do not touch one another. The engine knows a cell by a number, so what
a read gives can be told from the calls alone: it is the value stored last under the number of the
setting, and it was stored in the width that the read asks for. -/
namespace ScanEngine
open Operation

def Routine.width? : Routine → Option Width
  | setWord | getWord => some .word
  | setLong | getLong => some .long
  | _ => none

def Call.width? (c : Call) : Option Width := c.routine?.bind Routine.width?

def Event.stored? (number : Nat) : Event → Option (Option Width × Nat)
  | .call (.setConfig setting value) answer =>
    if setting.number = number ∧ answer.status = 0 then
      some ((Call.setConfig setting value).width?, value)
    else none
  | _ => none

def Trace.cell (number : Nat) (first : Option Width × Nat) (t : Trace) : Option Width × Nat :=
  (t.filterMap (Event.stored? number)).getLastD first

namespace Setting

inductive Use where
  | change (setting : Setting) (value : Nat)
  | read (setting : Setting)
  deriving DecidableEq, Repr

abbrev Performed := Use × Outcome (Except EngineError (Option Nat))

namespace Use

def perform : Use → Operation (Except EngineError (Option Nat))
  | change setting value => return (← setting.change value).map fun () => none
  | read setting => return (← setting.read).map some

def performAll (e : Engine) : List (Use × Script) → List Performed × Engine
  | [] => ([], e)
  | (use, s) :: rest =>
    let ran := use.perform.run s e
    let later := performAll ran.engine rest
    ((use, ran) :: later.1, later.2)

def call : Use → Call
  | change setting value => .setConfig setting value
  | read setting => .getConfig setting

def given? (setting : Setting) : Use → Option Nat
  | change other value => if other = setting then some value else none
  | read _ => none

def applied (cells : Settings) : Use → Settings
  | change setting value => cells.set value setting
  | read _ => cells

def found (cells : Settings) : Use → Option Nat
  | change _ _ => none
  | read setting => some (cells.get setting)

end Use

def changed? (setting : Setting) : Performed → Option Nat
  | (use, ran) => if ran.value.isOk then use.given? setting else none

def latest (setting : Setting) (first : Nat) (history : List Performed) : Nat :=
  (history.filterMap setting.changed?).getLastD first

section
variable (setting : Setting) (use : Use) (s : Script) (e : Engine)

theorem numberInjective : Function.Injective number := by
  intro s t same
  cases s <;> cases t <;> first | rfl | cases same

theorem widthOfSet (value : Nat) : (Call.setConfig setting value).width? = some setting.width := by
  cases setting <;> rfl

theorem widthOfGet : (Call.getConfig setting).width? = some setting.width := by
  cases setting <;> rfl

theorem appliedGet (cells : Settings) :
    (use.applied cells).get setting = (use.given? setting).getD (cells.get setting) := by
  cases use with
  | read other => rfl
  | change other value =>
    rw [Use.applied, Settings.getSet, Use.given?]
    split <;> rfl

theorem storedCall (status : Int32) :
    Event.stored? setting.number (.call use.call ⟨status, none⟩) =
      if status = 0 then (use.given? setting).map (some setting.width, ·) else none := by
  cases use with
  | read other => exact (ite_self _).symm
  | change other value =>
    by_cases same : other = setting
    · subst same
      simp [Event.stored?, Use.call, Use.given?, widthOfSet]
    · simp [Event.stored?, Use.call, Use.given?, same, numberInjective.ne same]

theorem checkedOk {α : Type} (status : Int32) (a : α) :
    ((EngineError.check status).map fun () => a).isOk = decide (status = 0) := by
  by_cases fine : status = 0
  · rw [EngineError.checkSuccess.mpr fine, decide_eq_true fine]
    rfl
  · obtain ⟨err, failed, -⟩ := EngineError.checkFailure fine
    rw [failed, decide_eq_false fine]
    rfl

theorem performRun :
    let status := s.statusOf e use.call
    use.perform.run s e =
      ⟨(EngineError.check status).map fun () => use.found e.settings,
        { e.called with settings := if status = 0 then use.applied e.settings else e.settings },
        [.call use.call ⟨status, none⟩]⟩ := by
  intro status
  cases use with
  | change setting value =>
    change Outcome.mk ((EngineError.check status).map fun () => none) _ _ = _
    rfl
  | read setting =>
    have settings : (if status = 0 then e.settings else e.settings) = e.settings := ite_self _
    simp only [Use.applied, settings]
    change Outcome.mk (((EngineError.check status).map fun () => _).map some) _ _ = _
    cases EngineError.check status <;> rfl

theorem performKept :
    let ran := use.perform.run s e
    let kept := ran.engine.settings.get setting
    setting.latest (e.settings.get setting) [(use, ran)] = kept ∧
      ran.trace.cell setting.number (some setting.width, e.settings.get setting) =
        (some setting.width, kept) := by
  simp only [performRun, latest, changed?, checkedOk, decide_eq_true_eq, Trace.cell,
    List.filterMap_cons, List.filterMap_nil, storedCall]
  by_cases fine : s.statusOf e use.call = 0
  · simp only [if_pos fine, appliedGet]
    cases use.given? setting <;> exact ⟨rfl, rfl⟩
  · simp only [if_neg fine]
    exact ⟨rfl, rfl⟩

theorem lastOnward {α β : Type} (found : α → Option β) (first : β) (front back : List α) :
    ((front ++ back).filterMap found).getLastD first =
      (back.filterMap found).getLastD ((front.filterMap found).getLastD first) := by
  simp only [List.filterMap_append, List.getLastD_eq_getLast?, List.getLast?_append, Option.getD_or]

theorem performAllKept (uses : List (Use × Script)) :
    let past := Use.performAll e uses
    let kept := past.2.settings.get setting
    setting.latest (e.settings.get setting) past.1 = kept ∧
      Trace.cell setting.number (some setting.width, e.settings.get setting)
        (past.1.flatMap fun p => p.2.trace) = (some setting.width, kept) := by
  induction uses generalizing e with
  | nil => exact ⟨rfl, rfl⟩
  | cons asked rest ih =>
    obtain ⟨use, s⟩ := asked
    obtain ⟨changed, stored⟩ := performKept setting use s e
    obtain ⟨later, cell⟩ := ih (use.perform.run s e).engine
    rw [latest] at changed later
    rw [Trace.cell] at stored cell
    constructor
    · rw [Use.performAll, latest, ← List.singleton_append, lastOnward, changed]
      exact later
    · rw [Use.performAll, List.flatMap_cons, Trace.cell, lastOnward, stored]
      exact cell

end

/- The uses of the four settings, one after another under any answers of the engine. A use makes one
call. If that fails, its status is the error and no setting moves. A change that succeeds moves its
own setting alone; a read that succeeds gives what the last successful change of its setting gave it,
or what the engine started with, and that is also what was stored under its number, in its width. -/
theorem settingsIndependent (e : Engine) (before : List (Use × Script)) (use : Use) (s : Script) :
    let past := Use.performAll e before
    let ran := use.perform.run s past.2
    let status := s.statusOf past.2 use.call
    ran.trace = [.call use.call ⟨status, none⟩] ∧
    (status ≠ 0 → ran.engine.settings = past.2.settings ∧
      ∃ err, EngineError.check status = .error err ∧ err.code = status ∧ ran.value = .error err) ∧
    (status = 0 →
      match use with
      | .change setting value => ran.value = .ok none ∧
        ∀ other, ran.engine.settings.get other =
          if setting = other then value else past.2.settings.get other
      | .read setting => ran.engine.settings = past.2.settings ∧
        ∃ value, ran.value = .ok (some value) ∧
          value = setting.latest (e.settings.get setting) past.1 ∧
          (use.call.width?, value) =
            Trace.cell setting.number (use.call.width?, e.settings.get setting)
              (past.1.flatMap fun p => p.2.trace)) ∧
    ∀ setting, ({} : Engine).settings.get setting = setting.initial := by
  intro past ran status
  have performed := performRun use s past.2
  refine ⟨congrArg Outcome.trace performed, fun failed => ?_, fun fine => ?_, Settings.getInitial⟩
  · obtain ⟨err, checked, code⟩ := EngineError.checkFailure failed
    refine ⟨(congrArg (·.engine.settings) performed).trans (if_neg failed), err, checked, code, ?_⟩
    have value := congrArg Outcome.value performed
    rwa [checked] at value
  · have value := congrArg Outcome.value performed
    rw [EngineError.checkSuccess.mpr fine] at value
    have settings := (congrArg (·.engine.settings) performed).trans (if_pos fine)
    cases use with
    | change setting given =>
      refine ⟨value, fun other => ?_⟩
      rw [settings]
      exact Settings.getSet _ _ _ _
    | read setting =>
      obtain ⟨latest, cell⟩ := performAllKept setting e before
      refine ⟨settings, _, value, latest.symm, ?_⟩
      have width : (Use.read setting).call.width? = some setting.width := widthOfGet setting
      rw [width]
      exact cell.symm

example :
    let failing : Script := { status := fun _ => (5 : Int32) }
    let uses : List (Use × Script) :=
      [(.change .maxMatchData 7, {}), (.change .maxProcessMemoryChunk 9, {}),
        (.change .maxMatchData 8, failing), (.read .maxMatchData, {})]
    (Use.performAll {} uses).1.map (fun p => p.2.value) =
      [.ok none, .ok none, .error (.unknown 5), .ok (some 7)] :=
  rfl

end Setting
end ScanEngine
