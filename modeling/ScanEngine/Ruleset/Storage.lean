import ScanEngine.Files
import ScanEngine.Ruleset.Basic

/-! Loading and saving rulesets, by path and through streams. A load whose reader failed reports the
fault before it looks at what the engine handed out. -/
namespace ScanEngine.Ruleset
open Operation

def loadFile (path : Bytes) : Operation (Except Failure Ruleset) :=
  Token.holding .engine fun token => do
    match pathString path with
    | .error z => return .error (.zeroByte z)
    | .ok fileName =>
      let answer ← callForRules (.loadRules fileName)
      noted (fun r => s!"loaded {r.count} rules from {Text.lossy path}")
        ((own token answer).mapError .engine)

/-- What comes of a stream load: the fault of its reader, or else what the engine handed out. -/
def settle (token : Token) (loaded : (Answer × Option Table) × ElementSource) :
    Except Failure Ruleset :=
  match loaded.2.kept with
  | some f => .error (.io ⟨.readingRules, .transfer f⟩)
  | none => (own token loaded.1).mapError .engine

def loadStream (reader : Reader) : Operation (Except Failure Ruleset) :=
  Token.holding .engine fun token => do
    let loaded ← callForStream reader
    noted (fun r => s!"loaded {r.count} rules from stream") (settle token loaded)

def saveFile (r : Ruleset) (path : Bytes) : Operation (Except Failure Unit) := do
  match pathString path with
  | .error z => return .error (.zeroByte z)
  | .ok fileName =>
    let status ← call (.saveRules r.handle fileName)
    return (EngineError.check status).mapError .engine

def finish (sink : ElementSink) (flush : Reply Unit) : Operation (Option Fault) := do
  match sink.kept with
  | some f => return some f
  | none =>
    emit [.flushed flush]
    match flush with
    | .done () => return none
    | .fault f => return some f

def saveStream (r : Ruleset) (writer : Writer) (flush : Reply Unit) :
    Operation (Except Failure Unit × Writer) := do
  let status ← call (.saveStream r.handle false true)
  let sink ← serveWrites (.ofWriter writer)
  match ← finish sink flush with
  | some f => return (.error (.io ⟨.writingRules, .transfer f⟩), sink.writer)
  | none => return ((EngineError.check status).mapError .engine, sink.writer)

end ScanEngine.Ruleset
