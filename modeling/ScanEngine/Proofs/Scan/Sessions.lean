import ScanEngine.Proofs.Scan.Outcomes
import ScanEngine.Session

/-! Scans in sessions. A ruleset starts without flags, whether it is compiled or loaded, and has
those last set on it, whatever is done meanwhile, to it or to others. A scan of a memory and one of
a file with the same content pass them on alike and come out alike. -/
namespace ScanEngine
open Operation

def Operation.Yields {α : Type} (m : Operation α) (P : α → Prop) : Prop :=
  ∀ s e, P (m.run s e).value

def Operation.Grants {ε α : Type} (m : Operation (Except ε α)) (P : α → Prop) : Prop :=
  m.Yields fun outcome => ∀ v, outcome = .ok v → P v

section
variable {α β ε φ : Type}

theorem yieldsPure {P : α → Prop} {v : α} (holds : P v) : (pure v : Operation α).Yields P :=
  fun _ _ => holds

theorem yieldsBind {m : Operation α} {k : α → Operation β} {P : α → Prop} {Q : β → Prop}
    (first : m.Yields P) (rest : ∀ v, P v → (k v).Yields Q) : (m >>= k).Yields Q :=
  fun s e => rest _ (first s e) s _

theorem yieldsAfter {m : Operation α} {k : α → Operation β} {Q : β → Prop}
    (rest : ∀ v, (k v).Yields Q) : (m >>= k).Yields Q :=
  fun s _ => rest _ s _

theorem grantsError {P : α → Prop} (f : ε) : (pure (.error f) : Operation (Except ε α)).Grants P :=
  yieldsPure fun _ same => nomatch same

theorem grantsOk {P : α → Prop} {v : α} (holds : P v) :
    (pure (.ok v) : Operation (Except ε α)).Grants P := by
  intro s e w same
  cases same
  exact holds

theorem grantsBind {m : Operation (Except ε α)} {k : Except ε α → Operation β} {P : α → Prop}
    {Q : β → Prop} (granted : m.Grants P) (failed : ∀ f, (k (.error f)).Yields Q)
    (rest : ∀ v, P v → (k (.ok v)).Yields Q) : (m >>= k).Yields Q := by
  refine yieldsBind granted fun outcome holds => ?_
  cases outcome with
  | error f => exact failed f
  | ok v => exact rest v (holds v rfl)

theorem mapErrorOk {outcome : Except ε α} {f : ε → φ} {v : α}
    (mapped : outcome.mapError f = .ok v) : outcome = .ok v := by
  cases outcome with
  | error err => cases mapped
  | ok value => exact congrArg Except.ok (Except.ok.inj mapped)

theorem holdingGrants {refusal : EngineError → ε} {body : Token → Operation (Except ε α)}
    {P : α → Prop} (inner : ∀ t, (body t).Grants P) : (Token.holding refusal body).Grants P := by
  refine yieldsAfter fun acquired => ?_
  cases acquired with
  | error err => exact grantsError _
  | ok t =>
    refine grantsBind (inner t) (fun f => ?_) fun v holds => ?_
    · exact yieldsAfter fun _ => grantsError f
    · exact grantsOk holds

end

namespace Ruleset

theorem ownUnflagged {token : Token} {answer : Answer × Option Table} {r : Ruleset}
    (owned : own token answer = .ok r) : r.flags = .empty := by
  unfold own at owned
  cases checked : EngineError.check answer.1.status with
  | error err =>
    rw [checked] at owned
    cases owned
  | ok _ =>
    rw [checked] at owned
    simp only [bind, Except.bind] at owned
    split at owned <;> cases owned
    rfl

theorem notedGrants {ε : Type} {note : Ruleset → String} {outcome : Except ε Ruleset}
    {P : Ruleset → Prop} (granted : ∀ r, outcome = .ok r → P r) :
    (noted note outcome).Grants P := by
  cases outcome with
  | error f => exact grantsError f
  | ok r => exact yieldsAfter fun _ => yieldsPure granted

theorem loadFileUnflagged (path : Bytes) : (loadFile path).Grants (·.flags = .empty) := by
  refine holdingGrants fun token => ?_
  cases pathString path with
  | error z => exact grantsError _
  | ok fileName =>
    exact yieldsAfter fun answer => notedGrants fun r owned => ownUnflagged (mapErrorOk owned)

theorem loadStreamUnflagged (reader : Reader) :
    (loadStream reader).Grants (·.flags = .empty) := by
  refine holdingGrants fun token => yieldsAfter fun loaded => notedGrants ?_
  unfold settle
  split
  · exact fun _ same => nomatch same
  · exact fun r owned => ownUnflagged (mapErrorOk owned)

end Ruleset

theorem Compiler.compileUnflagged (c : Compiler) : c.compile.Grants (·.flags = .empty) := by
  have taken : (Token.holding id c.take).Grants (·.flags = .empty) :=
    holdingGrants fun token => yieldsAfter fun answer =>
      Ruleset.notedGrants fun r => Ruleset.ownUnflagged
  exact yieldsBind taken fun outcome granted => yieldsAfter fun _ => yieldsPure granted

namespace Session

/- The flags of the ruleset that a name stands for, after one more step with its result. A name that
is taken for a new ruleset starts over. -/
def flagsAfter (name : String) (flags : ScanFlags) : Step → Result → ScanFlags
  | .setFlags other word, .flags _ => if other = name then word else flags
  | .compile _ other, .gained _ => if other = name then .empty else flags
  | .loadFile _ other, .gained _ => if other = name then .empty else flags
  | .loadStream _ other, .gained _ => if other = name then .empty else flags
  | _, _ => flags

def lastFlags (name : String) (flags : ScanFlags) (done : List (Act × Entry)) : ScanFlags :=
  done.foldl (fun flags (act, entry) => flagsAfter name flags act.step entry.result) flags

def Flagged (s : Session) (name : String) (flags : ScanFlags) : Prop :=
  ∀ r, s.rulesets.find? name = some r → r.flags = flags

section
variable {s : Session} {name : String} {flags : ScanFlags}

theorem flaggedErase (held : s.Flagged name flags) (tokens : Store Token)
    (compilers : Store Compiler) (other : String) :
    Flagged ⟨tokens, compilers, s.rulesets.erase other⟩ name flags := by
  intro r found
  by_cases same : name = other
  · rw [same, Store.eraseFound] at found
    contradiction
  · exact held r ((Store.eraseElsewhere same s.rulesets).symm.trans found)

theorem flaggedPut (held : s.Flagged name flags) (other : String) (r : Ruleset) :
    Flagged { s with rulesets := s.rulesets.put other r } name
      (if other = name then r.flags else flags) := by
  intro r' found
  by_cases same : other = name
  · rw [same, Store.putFound] at found
    rw [if_pos same, Option.some.inj found]
  · rw [if_neg same]
    exact held r' ((Store.putElsewhere (Ne.symm same) s.rulesets r).symm.trans found)

theorem withCompilerSame (use : Compiler → Operation Result) :
    (s.withCompiler name use).Yields fun out => out.2 = s := by
  unfold withCompiler
  cases s.compilers.find? name with
  | none => exact yieldsPure rfl
  | some c => exact yieldsAfter fun _ => yieldsPure rfl

theorem withRulesetSame (use : Ruleset → Operation Result) :
    (s.withRuleset name use).Yields fun out => out.2 = s := by
  unfold withRuleset
  cases s.rulesets.find? name with
  | none => exact yieldsPure rfl
  | some r => exact yieldsAfter fun _ => yieldsPure rfl

theorem withTableSame {name : Option String} (use : Option Table → Operation Result) :
    (s.withTable name use).Yields fun out => out.2 = s := by
  cases name with
  | none => exact yieldsAfter fun _ => yieldsPure rfl
  | some name => exact withRulesetSame _

theorem setFlagsFlagged (held : s.Flagged name flags) (other : String) (word : ScanFlags) :
    (s.setFlags other word).Yields fun out =>
      out.2.Flagged name (flagsAfter name flags (.setFlags other word) out.1) := by
  unfold setFlags
  cases s.rulesets.find? other with
  | none => exact yieldsPure held
  | some r => exact yieldsPure (flaggedPut held other (r.setFlags word))

theorem keepRulesetFlagged {other : String} {r : Ruleset} {after : Result → ScanFlags}
    (held : s.Flagged name flags) (unflagged : r.flags = .empty)
    (gains : ∀ n, after (.gained n) = if other = name then .empty else flags) :
    (s.keepRuleset other r).Yields fun out => out.2.Flagged name (after out.1) := by
  refine yieldsAfter fun _ => yieldsPure ?_
  rw [gains, ← unflagged]
  exact flaggedPut held other r

theorem compileFlagged (held : s.Flagged name flags) (compiler other : String) :
    (s.compile compiler other).Yields fun out =>
      out.2.Flagged name (flagsAfter name flags (.compile compiler other) out.1) := by
  unfold compile
  cases s.compilers.find? compiler with
  | none => exact yieldsPure held
  | some c =>
    refine grantsBind c.compileUnflagged (fun err => ?_) fun r unflagged => ?_
    · exact yieldsPure held
    · exact keepRulesetFlagged held unflagged fun _ => rfl

theorem stepFlagged (files : Files) (held : s.Flagged name flags) (st : Step) :
    (s.step files st).Yields fun out => out.2.Flagged name (flagsAfter name flags st out.1) := by
  have same {m : Operation (Result × Session)} (kept : m.Yields fun out => out.2 = s) :
      m.Yields fun out => out.2.Flagged name flags := by
    intro script e
    rw [kept script e]
    exact held
  cases st with
  | token other =>
    refine yieldsAfter fun acquired => ?_
    cases acquired with
    | error err => exact yieldsPure held
    | ok t => exact yieldsAfter fun _ => yieldsPure held
  | compiler other =>
    refine yieldsAfter fun created => ?_
    cases created with
    | error err => exact yieldsPure held
    | ok c => exact yieldsAfter fun _ => yieldsPure held
  | drop other =>
    refine yieldsAfter fun _ => yieldsAfter fun _ => yieldsAfter fun _ => yieldsPure ?_
    exact flaggedErase held _ _ other
  | compile compiler other => exact compileFlagged held compiler other
  | loadFile path other =>
    refine grantsBind (Ruleset.loadFileUnflagged path) (fun f => ?_) fun r unflagged => ?_
    · exact yieldsPure held
    · exact keepRulesetFlagged held unflagged fun _ => rfl
  | loadStream reader other =>
    refine grantsBind (Ruleset.loadStreamUnflagged _) (fun f => ?_) fun r unflagged => ?_
    · exact yieldsPure held
    · exact keepRulesetFlagged held unflagged fun _ => rfl
  | setFlags other word => exact setFlagsFlagged held other word
  | addText | addFile | define => exact same (withCompilerSame _)
  | saveFile | saveStream | scanMemory | scanFile => exact same (withRulesetSame _)
  | describe | iterate | count | enumerate => exact same (withRulesetSame _)
  | copyRules | countRules => exact same (withTableSame _)
  | setConfig setting value => exact yieldsAfter fun _ => yieldsPure held
  | getConfig setting =>
    refine yieldsAfter fun read => ?_
    cases read <;> exact yieldsPure held

theorem advanceAllFlagged (files : Files) (state : State) (held : state.session.Flagged name flags)
    (acts : List Act) :
    let played := advanceAll files state acts
    played.2.session.Flagged name (lastFlags name flags (acts.zip played.1)) := by
  induction acts generalizing state flags with
  | nil => exact held
  | cons act rest ih =>
    exact ih (advance files state act).2
      (stepFlagged files held act.step act.script state.engine)

end

/- Whatever was done before, with the same status for both scans. -/
theorem scansAgree (files : Files) (acts : List Act) (name : String) (r : Ruleset)
    (held : (advanceAll files {} acts).2.session.rulesets.find? name = some r)
    {path content : Bytes} (opened : files.read path = .ok content) (timeout : UInt16) (s : Script)
    (e : Engine) :
    let flags := lastFlags name .empty (acts.zip (advanceAll files {} acts).1)
    let memory := Call.scanMemory r.handle ⟨flags, timeout⟩ content
    let file := Call.scanFile r.handle ⟨flags, timeout⟩ content
    let inMemory := (r.scanMemory content timeout).run s e
    let inFile := (r.scanFile files path timeout).run s e
    Scan.Concluded id memory (s.statusOf e memory) s.messages inMemory ∧
      Scan.Concluded .engine file (s.statusOf e file) s.messages inFile ∧
      (s.statusOf e memory = s.statusOf e file →
        inFile.value = inMemory.value.mapError .engine) := by
  intro flags memory file inMemory inFile
  have fresh : Flagged {} name .empty := fun r found => by simp [Store.find?] at found
  have options : r.options timeout = ⟨flags, timeout⟩ := by
    simp [Ruleset.options, advanceAllFlagged files {} fresh acts r held, flags]
  have first : Scan.Concluded id memory (s.statusOf e memory) s.messages inMemory := by
    simp only [inMemory, Ruleset.scanMemoryConcluding, options]
    exact Scan.concludes _ _ _ s e
  have second : Scan.Concluded .engine file (s.statusOf e file) s.messages inFile := by
    simp only [inFile, Ruleset.scanFileConcluding timeout opened, options]
    exact Scan.concludes _ _ _ s e
  refine ⟨first, second, fun same => ?_⟩
  rw [same] at first
  exact first.agree second

theorem scansAgreeAtLastFlags :
    let files : Files := ⟨[([0x66], [0x61, 0x62])]⟩
    let load (name : String) : Act := ⟨.loadStream [] name, { table := some [] }⟩
    let set (name : String) (word : UInt32) : Act := ⟨.setFlags name ⟨word⟩, {}⟩
    let acts := [load "r", load "q", set "r" 1, set "q" 4, set "r" 0x80000009]
    let r : Ruleset := ⟨⟨⟩, 0, [], ⟨0x80000009⟩⟩
    let s : Script := { messages := [⟨1, some 3⟩, ⟨2, some 5⟩, ⟨1, none⟩, ⟨1, some 3⟩] }
    (advanceAll files {} acts).2.session.rulesets.find? "r" = some r ∧
      files.read [0x66] = .ok [0x61, 0x62] ∧
      ((r.scanMemory [0x61, 0x62] 7).run s {}).value = .ok [3, 3] ∧
      ((r.scanFile files [0x66] 7).run s {}).value = .ok [3, 3] := by
  intro files load set acts r s
  have held : (advanceAll files {} acts).2.session.rulesets.find? "r" = some r := by
    decide +kernel
  have opened : files.read [0x66] = .ok [0x61, 0x62] := rfl
  obtain ⟨memory, file, -⟩ := scansAgree files acts "r" r held opened 7 s {}
  exact ⟨held, opened, memory.found rfl, file.found rfl⟩

end Session
end ScanEngine
