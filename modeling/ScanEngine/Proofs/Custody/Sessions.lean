import ScanEngine.Proofs.Custody.Uses
import ScanEngine.Session

/-! What a session holds, and that each of its steps leads from what it held to what it holds: a name
that is taken again gives up its old value after the new one exists, and closing gives up all. -/
namespace ScanEngine
open Operation

namespace Holdings

def gainAll (h : Holdings) (xs : List Handle) : Holdings := ⟨h.bare, xs + h.held⟩

theorem gainAllNil (h : Holdings) : h.gainAll [] = h := by
  simp only [gainAll, Multiset.coe_nil, Multiset.zero_add]

theorem gainAllCons (h : Holdings) (x : Handle) (xs : List Handle) :
    h.gainAll (x :: xs) = (h.gainAll xs).gain x := by
  simp only [gainAll, gain, ← Multiset.cons_coe, Multiset.cons_add]

theorem gainAllGain (h : Holdings) (x : Handle) (xs : List Handle) :
    (h.gain x).gainAll xs = (h.gainAll xs).gain x := by
  simp only [gainAll, gain, Multiset.add_cons]

theorem gainAllPerm (h : Holdings) {xs ys : List Handle} (same : xs.Perm ys) :
    h.gainAll xs = h.gainAll ys := by
  simp only [gainAll, Multiset.coe_eq_coe.mpr same]

theorem gainAllTokens (h : Holdings) (xs : List Handle) :
    (h.gainAll xs).tokens = h.tokens + xs.length := by
  simp only [gainAll, tokens, Multiset.card_add, Multiset.coe_card]
  omega

end Holdings

def Compiler.asHandle (c : Compiler) : Handle := .compiler c.handle

def Ruleset.asHandle (r : Ruleset) : Handle := .ruleset r.handle

namespace Session

def holdings (s : Session) : Holdings :=
  (Holdings.gainAll ⟨s.tokens.size, 0⟩ (s.compilers.values.map Compiler.asHandle)).gainAll
    (s.rulesets.values.map Ruleset.asHandle)

variable {s : Session} {name : String}

theorem holdingsTokens (s : Session) :
    s.holdings.tokens = s.tokens.size + s.compilers.size + s.rulesets.size := by
  simp only [holdings, Holdings.gainAllTokens, List.length_map, Store.valuesLength]
  rfl

theorem tokensMore {more fewer : Store Token} {t : Token}
    (same : more.values.Perm (t :: fewer.values)) :
    { s with tokens := more }.holdings = { s with tokens := fewer }.holdings.addToken := by
  have size := same.length_eq
  rw [List.length_cons, Store.valuesLength, Store.valuesLength] at size
  simp only [holdings, size]
  rfl

theorem compilersMore {more fewer : Store Compiler} {c : Compiler}
    (same : more.values.Perm (c :: fewer.values)) :
    { s with compilers := more }.holdings =
      { s with compilers := fewer }.holdings.gain (.compiler c.handle) := by
  unfold holdings
  rw [Holdings.gainAllPerm _ (same.map _), List.map_cons, Holdings.gainAllCons,
    Holdings.gainAllGain]
  rfl

theorem rulesetsMore {more fewer : Store Ruleset} {r : Ruleset}
    (same : more.values.Perm (r :: fewer.values)) :
    { s with rulesets := more }.holdings =
      { s with rulesets := fewer }.holdings.gain (.ruleset r.handle) := by
  unfold holdings
  rw [Holdings.gainAllPerm _ (same.map _), List.map_cons, Holdings.gainAllCons]
  rfl

theorem heldToken {t : Token} (held : s.tokens.find? name = some t) :
    s.holdings = { s with tokens := s.tokens.erase name }.holdings.addToken :=
  tokensMore (Store.eraseValues held)

theorem heldCompiler {c : Compiler} (held : s.compilers.find? name = some c) :
    s.holdings =
      { s with compilers := s.compilers.erase name }.holdings.gain (.compiler c.handle) :=
  compilersMore (Store.eraseValues held)

theorem heldRuleset {r : Ruleset} (held : s.rulesets.find? name = some r) :
    s.holdings =
      { s with rulesets := s.rulesets.erase name }.holdings.gain (.ruleset r.handle) :=
  rulesetsMore (Store.eraseValues held)

theorem absentToken (absent : s.tokens.find? name = none) :
    { s with tokens := s.tokens.erase name }.holdings = s.holdings := by
  have size := congrArg List.length (Store.eraseAbsent absent)
  rw [Store.valuesLength, Store.valuesLength] at size
  simp only [holdings, size]

theorem absentCompiler (absent : s.compilers.find? name = none) :
    { s with compilers := s.compilers.erase name }.holdings = s.holdings := by
  unfold holdings
  rw [Store.eraseAbsent absent]

theorem absentRuleset (absent : s.rulesets.find? name = none) :
    { s with rulesets := s.rulesets.erase name }.holdings = s.holdings := by
  unfold holdings
  rw [Store.eraseAbsent absent]

end Session

section
variable {α : Type} {h after : Holdings} {release : α → Operation Unit}

theorem releaseFound {value : Option α}
    (found : ∀ v, value = some v → (release v).Leads h fun _ => after)
    (absent : value = none → after = h) : (value.forM release).Leads h fun _ => after := by
  cases value with
  | some v => exact found v rfl
  | none => exact leadsPure (absent rfl)

theorem releaseAll (handle : α → Handle)
    (each : ∀ v h, (release v).Leads (h.gain (handle v)) fun _ => h) (values : List α) :
    (values.forM release).Leads (h.gainAll (values.map handle)) fun _ => h := by
  induction values with
  | nil =>
    rw [List.map_nil, Holdings.gainAllNil]
    exact leadsPure rfl
  | cons v rest ih =>
    rw [List.map_cons, Holdings.gainAllCons]
    exact leadsBind (each v _) fun _ _ => ih

theorem Token.releaseAllLeads (ts : List Token) :
    (ts.forM Token.release).Leads ⟨ts.length, 0⟩ fun _ => ⟨0, 0⟩ := by
  induction ts with
  | nil => exact leadsPure rfl
  | cons t rest ih => exact leadsBind (t.releaseLeads (h := ⟨rest.length, 0⟩)) fun _ _ => ih

end

namespace Session
variable {s : Session} {name : String}

theorem keepTokenLeads (s : Session) (name : String) (t : Token) :
    (s.keepToken name t).Leads s.holdings.addToken fun out => out.2.holdings := by
  have old : ((s.tokens.find? name).forM Token.release).Leads s.holdings.addToken
      fun _ => { s with tokens := s.tokens.put name t }.holdings := by
    refine releaseFound ?_ ?_
    · intro old found
      rw [tokensMore (s.tokens.putValues name t), heldToken found]
      exact old.releaseLeads
    · intro absent
      rw [tokensMore (s.tokens.putValues name t), absentToken absent]
  exact leadsBind old fun _ _ => leadsPure rfl

theorem keepCompilerLeads (s : Session) (name : String) (c : Compiler) :
    (s.keepCompiler name c).Leads (s.holdings.gain (.compiler c.handle))
      fun out => out.2.holdings := by
  have old : ((s.compilers.find? name).forM Compiler.destroy).Leads (s.holdings.gain (.compiler c.handle))
      fun _ => { s with compilers := s.compilers.put name c }.holdings := by
    refine releaseFound ?_ ?_
    · intro old found
      rw [compilersMore (s.compilers.putValues name c), heldCompiler found, Holdings.gainComm]
      exact old.destroyLeads
    · intro absent
      rw [compilersMore (s.compilers.putValues name c), absentCompiler absent]
  exact leadsBind old fun _ _ => leadsPure rfl

theorem keepRulesetLeads (s : Session) (name : String) (r : Ruleset) :
    (s.keepRuleset name r).Leads (s.holdings.gain (.ruleset r.handle))
      fun out => out.2.holdings := by
  have old : ((s.rulesets.find? name).forM Ruleset.destroy).Leads (s.holdings.gain (.ruleset r.handle))
      fun _ => { s with rulesets := s.rulesets.put name r }.holdings := by
    refine releaseFound ?_ ?_
    · intro old found
      rw [rulesetsMore (s.rulesets.putValues name r), heldRuleset found, Holdings.gainComm]
      exact old.destroyLeads
    · intro absent
      rw [rulesetsMore (s.rulesets.putValues name r), absentRuleset absent]
  exact leadsBind old fun _ _ => leadsPure rfl

theorem dropTokenLeads (s : Session) (name : String) :
    ((s.tokens.find? name).forM Token.release).Leads s.holdings
      fun _ => { s with tokens := s.tokens.erase name }.holdings := by
  refine releaseFound ?_ absentToken
  intro t found
  rw [heldToken found]
  exact t.releaseLeads

theorem dropCompilerLeads (s : Session) (name : String) :
    ((s.compilers.find? name).forM Compiler.destroy).Leads s.holdings
      fun _ => { s with compilers := s.compilers.erase name }.holdings := by
  refine releaseFound ?_ absentCompiler
  intro c found
  rw [heldCompiler found]
  exact c.destroyLeads

theorem dropRulesetLeads (s : Session) (name : String) :
    ((s.rulesets.find? name).forM Ruleset.destroy).Leads s.holdings
      fun _ => { s with rulesets := s.rulesets.erase name }.holdings := by
  refine releaseFound ?_ absentRuleset
  intro r found
  rw [heldRuleset found]
  exact r.destroyLeads

theorem dropLeads (s : Session) (name : String) :
    (s.drop name).Leads s.holdings fun out => out.2.holdings := by
  refine leadsBind (s.dropTokenLeads name) fun _ _ => ?_
  refine leadsBind (dropCompilerLeads { s with tokens := s.tokens.erase name } name) fun _ _ => ?_
  refine leadsBind (dropRulesetLeads
    ⟨s.tokens.erase name, s.compilers.erase name, s.rulesets⟩ name) fun _ _ => ?_
  exact leadsPure rfl

theorem withCompilerLeads {use : Compiler → Operation Result}
    (uses : ∀ c, .compiler c.handle ∈ s.holdings.held → (use c).Leads s.holdings fun _ => s.holdings) :
    (s.withCompiler name use).Leads s.holdings fun out => out.2.holdings := by
  unfold withCompiler
  cases found : s.compilers.find? name with
  | none => exact leadsPure rfl
  | some c =>
    have held : .compiler c.handle ∈ s.holdings.held := by
      rw [heldCompiler found]
      exact Holdings.gainMem _ _
    exact leadsBind (uses c held) fun _ _ => leadsPure rfl

theorem withRulesetLeads {use : Ruleset → Operation Result}
    (uses : ∀ r, .ruleset r.handle ∈ s.holdings.held → (use r).Leads s.holdings fun _ => s.holdings) :
    (s.withRuleset name use).Leads s.holdings fun out => out.2.holdings := by
  unfold withRuleset
  cases found : s.rulesets.find? name with
  | none => exact leadsPure rfl
  | some r =>
    have held : .ruleset r.handle ∈ s.holdings.held := by
      rw [heldRuleset found]
      exact Holdings.gainMem _ _
    exact leadsBind (uses r held) fun _ _ => leadsPure rfl

theorem withTableLeads {name : Option String} {use : Option Table → Operation Result}
    (uses : ∀ table, (use table).Leads s.holdings fun _ => s.holdings) :
    (s.withTable name use).Leads s.holdings fun out => out.2.holdings := by
  cases name with
  | none => exact leadsBind (uses none) fun _ _ => leadsPure rfl
  | some name => exact withRulesetLeads fun r _ => uses (some r.table)

theorem compileLeads (s : Session) (compiler name : String) :
    (s.compile compiler name).Leads s.holdings fun out => out.2.holdings := by
  unfold compile
  cases found : s.compilers.find? compiler with
  | none => exact leadsPure rfl
  | some c =>
    rw [heldCompiler found]
    refine leadsBind c.compileLeads fun s' e => ?_
    cases (c.compile.run s' e).value with
    | error err => exact leadsPure rfl
    | ok r => exact keepRulesetLeads { s with compilers := s.compilers.erase compiler } name r

theorem setFlagsLeads (s : Session) (name : String) (flags : ScanFlags) :
    (s.setFlags name flags).Leads s.holdings fun out => out.2.holdings := by
  unfold setFlags
  cases found : s.rulesets.find? name with
  | none => exact leadsPure rfl
  | some r =>
    have same : { s with rulesets := s.rulesets.put name (r.setFlags flags) }.holdings =
        s.holdings := by
      rw [rulesetsMore (s.rulesets.putValues name _), heldRuleset found]
      rfl
    exact leadsPure same

theorem stepLeads (files : Files) (s : Session) (st : Step) :
    (s.step files st).Leads s.holdings fun out => out.2.holdings := by
  cases st with
  | token name =>
    refine leadsBind Token.acquireLeads fun s' e => ?_
    cases (Token.acquire.run s' e).value with
    | error err => exact leadsPure rfl
    | ok t => exact s.keepTokenLeads name t
  | compiler name =>
    refine leadsBind Compiler.createLeads fun s' e => ?_
    cases (Compiler.create.run s' e).value with
    | error err => exact leadsPure rfl
    | ok c => exact s.keepCompilerLeads name c
  | drop name => exact s.dropLeads name
  | addText name source space =>
    exact withCompilerLeads fun c held =>
      leadsBind (Compiler.addTextLeads held source space) fun _ _ => leadsPure rfl
  | addFile name path space =>
    exact withCompilerLeads fun c held =>
      leadsBind (Compiler.addFileLeads held files path space) fun _ _ => leadsPure rfl
  | define name identifier value =>
    exact withCompilerLeads fun c held =>
      leadsBind (Compiler.defineLeads held identifier value) fun _ _ => leadsPure rfl
  | compile compiler name => exact s.compileLeads compiler name
  | loadFile path name =>
    refine leadsBind (Ruleset.loadFileLeads path) fun s' e => ?_
    cases ((Ruleset.loadFile path).run s' e).value with
    | error f => exact leadsPure rfl
    | ok r => exact s.keepRulesetLeads name r
  | loadStream reader name =>
    refine leadsBind (Ruleset.loadStreamLeads (.ofActions reader)) fun s' e => ?_
    cases ((Ruleset.loadStream (.ofActions reader)).run s' e).value with
    | error f => exact leadsPure rfl
    | ok r => exact s.keepRulesetLeads name r
  | saveFile name path =>
    exact withRulesetLeads fun r held =>
      leadsBind (Ruleset.saveFileLeads held path) fun _ _ => leadsPure rfl
  | saveStream name writer flush =>
    refine withRulesetLeads fun r held =>
      leadsBind (Ruleset.saveStreamLeads held (.ofActions writer) flush) fun s' e => ?_
    obtain ⟨outcome, after⟩ := ((r.saveStream (.ofActions writer) flush).run s' e).value
    cases outcome <;> exact leadsPure rfl
  | scanMemory name content timeout =>
    refine withRulesetLeads fun r held =>
      leadsBind (Ruleset.scanMemoryLeads held content timeout) fun s' e => ?_
    cases ((r.scanMemory content timeout).run s' e).value <;> exact leadsPure rfl
  | scanFile name path timeout =>
    refine withRulesetLeads fun r held =>
      leadsBind (Ruleset.scanFileLeads held files path timeout) fun s' e => ?_
    cases ((r.scanFile files path timeout).run s' e).value <;> exact leadsPure rfl
  | setFlags name flags => exact s.setFlagsLeads name flags
  | describe name => exact withRulesetLeads fun _ _ => leadsPure rfl
  | iterate name pulls => exact withRulesetLeads fun _ _ => leadsPure rfl
  | count name => exact withRulesetLeads fun _ _ => leadsPure rfl
  | enumerate name length capacity => exact withRulesetLeads fun _ _ => leadsPure rfl
  | copyRules name length slots =>
    exact withTableLeads fun table =>
      leadsBind (Ruleset.copyLeads table _ slots) fun _ _ => leadsPure rfl
  | countRules name => exact withTableLeads fun _ => leadsPure rfl
  | setConfig setting value =>
    exact leadsBind (setting.changeLeads value) fun _ _ => leadsPure rfl
  | getConfig setting =>
    refine leadsBind setting.readLeads fun s' e => ?_
    cases (setting.read.run s' e).value <;> exact leadsPure rfl

theorem closeLeads (s : Session) : s.close.Leads s.holdings fun _ => ⟨0, 0⟩ := by
  have rulesets (h : Holdings) := releaseAll Ruleset.asHandle
    (fun r h => r.destroyLeads (h := h)) s.rulesets.values (h := h)
  have compilers (h : Holdings) := releaseAll Compiler.asHandle
    (fun c h => c.destroyLeads (h := h)) s.compilers.values (h := h)
  have tokens := Token.releaseAllLeads s.tokens.values
  rw [Store.valuesLength] at tokens
  exact leadsBind (rulesets _) fun _ _ => leadsBind (compilers _) fun _ _ => tokens

end Session
end ScanEngine
