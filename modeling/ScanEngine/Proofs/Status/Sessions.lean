import ScanEngine.Proofs.Status.CleanUps
import ScanEngine.Session

/-! Sessions are tidy step by step and to their end, so a whole session comes out the same whatever
its clean-up calls report. -/
namespace ScanEngine
open Operation

section
variable {α : Type} {release : α → Operation Unit}

theorem releaseFoundTidy (each : ∀ v, (release v).Tidy) (found : Option α) :
    (found.forM release).Tidy := by
  cases found with
  | none => exact tidyPure ()
  | some v => exact each v

theorem releaseAllTidy (each : ∀ v, (release v).Tidy) (values : List α) :
    (values.forM release).Tidy := by
  induction values with
  | nil => exact tidyPure ()
  | cons v rest ih => exact tidyBind (each v) fun _ => ih

end

namespace Session

theorem keepTokenTidy (s : Session) (name : String) (t : Token) : (s.keepToken name t).Tidy :=
  tidyBind (releaseFoundTidy Token.releaseTidy _) fun _ => tidyPure _

theorem keepCompilerTidy (s : Session) (name : String) (c : Compiler) :
    (s.keepCompiler name c).Tidy :=
  tidyBind (releaseFoundTidy Compiler.destroyTidy _) fun _ => tidyPure _

theorem keepRulesetTidy (s : Session) (name : String) (r : Ruleset) :
    (s.keepRuleset name r).Tidy :=
  tidyBind (releaseFoundTidy Ruleset.destroyTidy _) fun _ => tidyPure _

theorem dropTidy (s : Session) (name : String) : (s.drop name).Tidy :=
  tidyBind (releaseFoundTidy Token.releaseTidy _) fun _ =>
    tidyBind (releaseFoundTidy Compiler.destroyTidy _) fun _ =>
      tidyBind (releaseFoundTidy Ruleset.destroyTidy _) fun _ => tidyPure _

theorem withCompilerTidy {s : Session} {name : String} {use : Compiler → Operation Result}
    (uses : ∀ c, (use c).Tidy) : (s.withCompiler name use).Tidy := by
  unfold withCompiler
  cases s.compilers.find? name with
  | none => exact tidyPure _
  | some c => exact tidyBind (uses c) fun _ => tidyPure _

theorem withRulesetTidy {s : Session} {name : String} {use : Ruleset → Operation Result}
    (uses : ∀ r, (use r).Tidy) : (s.withRuleset name use).Tidy := by
  unfold withRuleset
  cases s.rulesets.find? name with
  | none => exact tidyPure _
  | some r => exact tidyBind (uses r) fun _ => tidyPure _

theorem withTableTidy {s : Session} {name : Option String} {use : Option Table → Operation Result}
    (uses : ∀ table, (use table).Tidy) : (s.withTable name use).Tidy := by
  cases name with
  | none => exact tidyBind (uses none) fun _ => tidyPure _
  | some name => exact withRulesetTidy fun r => uses (some r.table)

theorem compileTidy (s : Session) (compiler name : String) : (s.compile compiler name).Tidy := by
  unfold compile
  cases s.compilers.find? compiler with
  | none => exact tidyPure _
  | some c =>
    refine tidyBind c.compileTidy fun outcome => ?_
    cases outcome with
    | error err => exact tidyPure _
    | ok r => exact keepRulesetTidy _ name r

theorem setFlagsTidy (s : Session) (name : String) (flags : ScanFlags) :
    (s.setFlags name flags).Tidy := by
  unfold setFlags
  cases s.rulesets.find? name <;> exact tidyPure _

theorem stepTidy (files : Files) (s : Session) (st : Step) : (s.step files st).Tidy := by
  cases st with
  | token name =>
    refine tidyBind Token.acquireTidy fun outcome => ?_
    cases outcome with
    | error err => exact tidyPure _
    | ok t => exact s.keepTokenTidy name t
  | compiler name =>
    refine tidyBind Compiler.createTidy fun outcome => ?_
    cases outcome with
    | error err => exact tidyPure _
    | ok c => exact s.keepCompilerTidy name c
  | drop name => exact s.dropTidy name
  | addText name source space =>
    exact withCompilerTidy fun c => tidyBind (c.addTextTidy source space) fun _ => tidyPure _
  | addFile name path space =>
    exact withCompilerTidy fun c => tidyBind (c.addFileTidy files path space) fun _ => tidyPure _
  | define name identifier value =>
    exact withCompilerTidy fun c => tidyBind (c.defineTidy identifier value) fun _ => tidyPure _
  | compile compiler name => exact s.compileTidy compiler name
  | loadFile path name =>
    refine tidyBind (Ruleset.loadFileTidy path) fun outcome => ?_
    cases outcome with
    | error f => exact tidyPure _
    | ok r => exact s.keepRulesetTidy name r
  | loadStream reader name =>
    refine tidyBind (Ruleset.loadStreamTidy _) fun outcome => ?_
    cases outcome with
    | error f => exact tidyPure _
    | ok r => exact s.keepRulesetTidy name r
  | saveFile name path =>
    exact withRulesetTidy fun r => tidyBind (r.saveFileTidy path) fun _ => tidyPure _
  | saveStream name writer flush =>
    refine withRulesetTidy fun r => tidyBind (r.saveStreamTidy _ flush) fun outcome => ?_
    obtain ⟨saved, after⟩ := outcome
    cases saved <;> exact tidyPure _
  | scanMemory name content timeout =>
    refine withRulesetTidy fun r => tidyBind (r.scanMemoryTidy content timeout) fun outcome => ?_
    cases outcome <;> exact tidyPure _
  | scanFile name path timeout =>
    refine withRulesetTidy fun r => tidyBind (r.scanFileTidy files path timeout) fun outcome => ?_
    cases outcome <;> exact tidyPure _
  | setFlags name flags => exact s.setFlagsTidy name flags
  | describe name => exact withRulesetTidy fun _ => tidyPure _
  | iterate name pulls => exact withRulesetTidy fun _ => tidyPure _
  | count name => exact withRulesetTidy fun _ => tidyPure _
  | enumerate name length capacity => exact withRulesetTidy fun _ => tidyPure _
  | copyRules name length slots =>
    rw [step]
    exact withTableTidy fun table => tidyBind (Ruleset.copyTidy table _ slots) fun _ => tidyPure _
  | countRules name =>
    rw [step]
    exact withTableTidy fun _ => tidyPure _
  | setConfig setting value => exact tidyBind (setting.changeTidy value) fun _ => tidyPure _
  | getConfig setting =>
    refine tidyBind setting.readTidy fun outcome => ?_
    cases outcome <;> exact tidyPure _

theorem closeTidy (s : Session) : s.close.Tidy :=
  tidyBind (releaseAllTidy Ruleset.destroyTidy _) fun _ =>
    tidyBind (releaseAllTidy Compiler.destroyTidy _) fun _ =>
      releaseAllTidy Token.releaseTidy _

def Act.withCleanUps (act : Act) (reports : Statuses × Statuses) : Act :=
  { act with script := act.script.withCleanUps reports.1 reports.2 }

theorem advanceIndifferent (files : Files) (state : State) (act : Act)
    (reports : Statuses × Statuses) :
    (advance files state (act.withCleanUps reports)).1.result = (advance files state act).1.result ∧
      (advance files state (act.withCleanUps reports)).2 = (advance files state act).2 := by
  obtain ⟨value, engine⟩ := (stepTidy files state.session act.step).indifferent act.script
    state.engine reports.1 reports.2
  simp only [advance, Act.withCleanUps, value, engine, and_self]

theorem advanceAllIndifferent (files : Files) (state : State)
    (acts : List (Act × Statuses × Statuses)) :
    let recast := advanceAll files state (acts.map fun (act, reports) => act.withCleanUps reports)
    let plain := advanceAll files state (acts.map Prod.fst)
    recast.1.map Entry.result = plain.1.map Entry.result ∧ recast.2 = plain.2 := by
  induction acts generalizing state with
  | nil => exact ⟨rfl, rfl⟩
  | cons first rest ih =>
    obtain ⟨result, after⟩ := advanceIndifferent files state first.1 first.2
    obtain ⟨results, final⟩ := ih (advance files state first.1).2
    simp only [List.map_cons, advanceAll, after, result]
    exact ⟨congrArg _ results, final⟩

theorem advanceAllWarned (files : Files) (state : State) (acts : List Act) :
    Trace.warnings ((advanceAll files state acts).1.flatMap Entry.trace) =
      (acts.zip (advanceAll files state acts).1).flatMap fun (act, entry) =>
        entry.trace.warningsDue act.script := by
  induction acts generalizing state with
  | nil => rfl
  | cons act rest ih =>
    rw [advanceAll, List.flatMap_cons, Trace.warningsAppend, List.zip_cons_cons, List.flatMap_cons,
      ih]
    exact congrArg (· ++ _) ((stepTidy files state.session act.step).warned _ _)

end Session
end ScanEngine
