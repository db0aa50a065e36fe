import ScanEngine.Compiler
import ScanEngine.Ruleset.Scan
import ScanEngine.Ruleset.Storage
import ScanEngine.Store

/-! Sessions: tokens, compilers and rulesets kept by name and used step by step. Each step runs under
a script of its own. A name may stand for one of each; dropping it lets go of its token, then its
compiler, then its ruleset. What is left at the end is dropped under one more script, first the
rulesets, then the compilers, then the tokens. -/
namespace ScanEngine

structure Session where
  tokens : Store Token := {}
  compilers : Store Compiler := {}
  rulesets : Store Ruleset := {}
  deriving DecidableEq, Repr

namespace Session
open Operation

inductive Step where
  | token (name : String)
  | compiler (name : String)
  | drop (name : String)
  | addText (name : String) (source : Bytes) (space : Option Bytes)
  | addFile (name : String) (path : Bytes) (space : Option Bytes)
  | define (name : String) (identifier : Bytes) (value : External)
  | compile (compiler name : String)
  | loadFile (path : Bytes) (name : String)
  | loadStream (reader : List ReadAction) (name : String)
  | saveFile (name : String) (path : Bytes)
  | saveStream (name : String) (writer : List WriteAction) (flush : Reply Unit)
  | scanMemory (name : String) (content : Bytes) (timeout : UInt16)
  | scanFile (name : String) (path : Bytes) (timeout : UInt16)
  | setFlags (name : String) (flags : ScanFlags)
  | describe (name : String)
  | iterate (name : String) (pulls : Nat)
  | count (name : String)
  | enumerate (name : String) (length capacity : Nat)
  | copyRules (name : Option String) (length : Option Nat) (slots : Nat)
  | countRules (name : Option String)
  | setConfig (setting : Setting) (value : Nat)
  | getConfig (setting : Setting)
  deriving DecidableEq, Repr

structure RuleDescription where
  identifier : String
  space : String
  tags : List String
  flags : RuleFlags
  isPrivate : Bool
  isGlobal : Bool
  metadata : List Metadata
  debug : String
  deriving DecidableEq, Repr

structure Description where
  debug : String
  flags : ScanFlags
  rules : List RuleDescription
  deriving DecidableEq, Repr

inductive Result where
  | done
  | noSuchName
  | refused (e : EngineError)
  | failed (f : Failure)
  | dropped (found : Bool)
  | gained (count : Nat)
  | saved (failure : Option Failure) (written : Bytes)
  | matched (found : List (Nat × String))
  | flags (flags : ScanFlags)
  | described (description : Description)
  | pulled (items : List (Option Nat))
  | counted (rules view generic plain : Nat)
  | enumerated (written : Nat) (slots : List (Option Nat))
  | copied (written : Nat) (slots : Option (List (Option Nat)))
  | rulesCounted (plain : Nat) (view : Option Nat)
  | value (value : Nat)
  deriving DecidableEq, Repr

def describeRule (r : Rule) : RuleDescription :=
  ⟨r.identifier, r.namespaceName, r.tagTexts, r.flags, r.isPrivate, r.isGlobal, r.metadata, r.debug⟩

def describe (r : Ruleset) : Description :=
  ⟨r.debug, r.flags, r.table.handles.filterMap fun position => r.table[position]?.map describeRule⟩

def withNames (r : Ruleset) (found : List Nat) : List (Nat × String) :=
  found.map fun position => (position, (r.table[position]?.map Rule.identifier).getD "")

def ofEngine : Except EngineError Unit → Result
  | .ok () => .done
  | .error e => .refused e

def ofFailure : Except Failure Unit → Result
  | .ok () => .done
  | .error f => .failed f

def keepRuleset (s : Session) (name : String) (r : Ruleset) : Operation (Result × Session) := do
  (s.rulesets.find? name).forM Ruleset.destroy
  return (.gained r.count, { s with rulesets := s.rulesets.put name r })

def keepCompiler (s : Session) (name : String) (c : Compiler) : Operation (Result × Session) := do
  (s.compilers.find? name).forM Compiler.destroy
  return (.done, { s with compilers := s.compilers.put name c })

def keepToken (s : Session) (name : String) (t : Token) : Operation (Result × Session) := do
  (s.tokens.find? name).forM Token.release
  return (.done, { s with tokens := s.tokens.put name t })

def drop (s : Session) (name : String) : Operation (Result × Session) := do
  let token := s.tokens.find? name
  let compiler := s.compilers.find? name
  let ruleset := s.rulesets.find? name
  token.forM Token.release
  compiler.forM Compiler.destroy
  ruleset.forM Ruleset.destroy
  return (.dropped (token.isSome || compiler.isSome || ruleset.isSome),
    ⟨s.tokens.erase name, s.compilers.erase name, s.rulesets.erase name⟩)

def withCompiler (s : Session) (name : String) (use : Compiler → Operation Result) :
    Operation (Result × Session) := do
  match s.compilers.find? name with
  | none => return (.noSuchName, s)
  | some c => return (← use c, s)

def withRuleset (s : Session) (name : String) (use : Ruleset → Operation Result) :
    Operation (Result × Session) := do
  match s.rulesets.find? name with
  | none => return (.noSuchName, s)
  | some r => return (← use r, s)

def withTable (s : Session) (name : Option String) (use : Option Table → Operation Result) :
    Operation (Result × Session) := do
  match name with
  | none => return (← use none, s)
  | some name => s.withRuleset name fun r => use (some r.table)

def compile (s : Session) (compiler name : String) : Operation (Result × Session) := do
  match s.compilers.find? compiler with
  | none => return (.noSuchName, s)
  | some c =>
    let rest := { s with compilers := s.compilers.erase compiler }
    match ← c.compile with
    | .error e => return (.refused e, rest)
    | .ok r => rest.keepRuleset name r

def setFlags (s : Session) (name : String) (flags : ScanFlags) : Operation (Result × Session) := do
  match s.rulesets.find? name with
  | none => return (.noSuchName, s)
  | some r => return (.flags flags, { s with rulesets := s.rulesets.put name (r.setFlags flags) })

def saveStream (r : Ruleset) (writer : List WriteAction) (flush : Reply Unit) :
    Operation Result := do
  match ← r.saveStream (.ofActions writer) flush with
  | (.ok (), writer) => return .saved none writer.taken
  | (.error f, writer) => return .saved (some f) writer.taken

def step (files : Files) (s : Session) : Step → Operation (Result × Session)
  | .token name => do
    match ← Token.acquire with
    | .error e => return (.refused e, s)
    | .ok t => s.keepToken name t
  | .compiler name => do
    match ← Compiler.create with
    | .error e => return (.refused e, s)
    | .ok c => s.keepCompiler name c
  | .drop name => s.drop name
  | .addText name source space =>
    s.withCompiler name fun c => return ofFailure (← c.addText source space)
  | .addFile name path space =>
    s.withCompiler name fun c => return ofFailure (← c.addFile files path space)
  | .define name identifier value =>
    s.withCompiler name fun c => return ofFailure (← c.define identifier value)
  | .compile compiler name => s.compile compiler name
  | .loadFile path name => do
    match ← Ruleset.loadFile path with
    | .error f => return (.failed f, s)
    | .ok r => s.keepRuleset name r
  | .loadStream reader name => do
    match ← Ruleset.loadStream (.ofActions reader) with
    | .error f => return (.failed f, s)
    | .ok r => s.keepRuleset name r
  | .saveFile name path => s.withRuleset name fun r => return ofFailure (← r.saveFile path)
  | .saveStream name writer flush => s.withRuleset name fun r => saveStream r writer flush
  | .scanMemory name content timeout => s.withRuleset name fun r => do
    match ← r.scanMemory content timeout with
    | .error e => return .refused e
    | .ok found => return .matched (withNames r found)
  | .scanFile name path timeout => s.withRuleset name fun r => do
    match ← r.scanFile files path timeout with
    | .error f => return .failed f
    | .ok found => return .matched (withNames r found)
  | .setFlags name flags => s.setFlags name flags
  | .describe name => s.withRuleset name fun r => return .described (describe r)
  | .iterate name pulls =>
    s.withRuleset name fun r => return .pulled (r.table.pulls pulls r.table.first?)
  | .count name => s.withRuleset name fun r =>
    return .counted r.count r.table.count (Enumeration.count r.table.handles).1
      (Ruleset.Buffer.count (some r.table))
  | .enumerate name length capacity => s.withRuleset name fun r =>
    let filled :=
      Enumeration.enumerate some capacity (List.replicate length none) r.table.handles
    return .enumerated filled.written filled.slots
  | .copyRules name length slots => s.withTable name fun table => do
    let buffer := length.map fun length => List.replicate length none
    let (written, after) ← Ruleset.Buffer.copy table buffer slots
    return .copied written after
  | .countRules name => s.withTable name fun table =>
    return .rulesCounted (Ruleset.Buffer.count table) (table.map Table.count)
  | .setConfig setting value => return (ofEngine (← setting.change value), s)
  | .getConfig setting => do
    match ← setting.read with
    | .error e => return (.refused e, s)
    | .ok value => return (.value value, s)

def close (s : Session) : Operation Unit := do
  s.rulesets.values.forM Ruleset.destroy
  s.compilers.values.forM Compiler.destroy
  s.tokens.values.forM Token.release

structure State where
  session : Session := {}
  engine : Engine := {}
  deriving DecidableEq, Repr

structure Act where
  step : Step
  script : Script

structure Entry where
  result : Result
  trace : Trace
  deriving DecidableEq, Repr

def advance (files : Files) (state : State) (act : Act) : Entry × State :=
  let outcome := (state.session.step files act.step).run act.script state.engine
  (⟨outcome.value.1, outcome.trace⟩, ⟨outcome.value.2, outcome.engine⟩)

def advanceAll (files : Files) (state : State) : List Act → List Entry × State
  | [] => ([], state)
  | act :: rest =>
    let first := advance files state act
    let later := advanceAll files first.2 rest
    (first.1 :: later.1, later.2)

def play (files : Files) (acts : List Act) (last : Script) : List Entry × Trace :=
  let played := advanceAll files {} acts
  (played.1, (played.2.session.close.run last played.2.engine).trace)

def whole (files : Files) (acts : List Act) (last : Script) : Trace :=
  let played := play files acts last
  played.1.flatMap Entry.trace ++ played.2

end Session
end ScanEngine
