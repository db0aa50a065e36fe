import ScanEngine.Proofs.Text.Decoding
import ScanEngine.Proofs.Text.Passage

/-! File names that the engine is told. A path is told as its lossy text, which is the path itself
exactly if it is well-formed. Every other path is told as a well-formed one, so what is saved under
it stands where that one is loaded from. -/
namespace ScanEngine
open Operation

def Call.fileName? : Call → Option Bytes
  | addFile _ _ _ fileName | loadRules fileName | saveRules _ fileName => some fileName
  | _ => none

def Trace.fileNames (t : Trace) : List Bytes := t.calls.filterMap Call.fileName?

namespace Text
variable {u v : Bytes}

theorem lossyOfShown (same : encode (lossy u) = encode (lossy v)) : lossy u = lossy v := by
  rw [← lossyEncoded (lossy u), same, lossyEncoded]

theorem faultShown (fault : none ∈ pieces v) : replacement ∈ (lossy v).toList := by
  rw [lossy, String.toList_ofList]
  exact List.mem_map.mpr ⟨none, fault, rfl⟩

theorem strayRead (before after : List Char) :
    lossy (before.flatMap String.utf8EncodeChar ++ 0xff :: after.flatMap String.utf8EncodeChar) =
      String.ofList (before ++ replacement :: after) := by
  have behind := charsRead after []
  have stray (w : Bytes) : pieces (0xff :: w) = none :: pieces w := rfl
  rw [List.append_nil] at behind
  rw [lossy, charsRead, stray, behind]
  simp [pieces, piecesFrom, Function.comp_def]

theorem strayByteShown {b : UInt8} (stray : 0x80 ≤ b) :
    encode (lossy [b]) = [0xef, 0xbf, 0xbd] := by
  have unread : pieces [b] = [none] := by
    change (start b).1 ++ (if (start b).2.isSome then [none] else []) = [none]
    rw [start, if_neg (UInt8.not_lt.mpr stray)]
    -- Either the byte starts nothing, or what it starts is never gone on with.
    repeat' split <;> try rfl
  rw [lossy, unread]
  rfl

theorem shownAloneIff (whole : 0 ∉ v) :
    (∀ other, 0 ∉ other → encode (lossy other) = encode (lossy v) → other = v) ↔
      ∃ text, encode text = v ∧ replacement ∉ text.toList := by
  constructor
  · intro alone
    have own : encode (lossy v) = v := by
      refine alone _ (fun zero => whole ((zeroShown v).mp zero)) ?_
      rw [lossyEncoded]
    refine ⟨lossy v, own, fun shown => ?_⟩
    obtain ⟨before, after, split⟩ := List.append_of_mem shown
    have text : String.ofList (before ++ replacement :: after) = lossy v := by
      rw [← split, String.ofList_toList]
    have stray := (strayRead before after).trans text
    have other := alone _ (fun zero => whole ((zeroShown v).mp ?_)) (congrArg encode stray)
    · have size : (String.utf8EncodeChar replacement).length = 3 := rfl
      have lengths := congrArg List.length (other.trans own.symm)
      rw [encode, split, List.flatMap_append, List.flatMap_cons] at lengths
      simp only [List.length_append, List.length_cons, size] at lengths
      omega
    · rw [← stray]
      exact (zeroShown _).mpr zero
  · rintro ⟨text, rfl, clear⟩ other - same
    have shown : lossy other = text := (lossyOfShown same).trans (lossyEncoded text)
    rw [← lossyFaultless fun fault => clear (shown ▸ faultShown fault), shown]

end Text

section
variable {path : Bytes}

theorem saveFileNames (r : Ruleset) (whole : 0 ∉ path) (s : Script) (e : Engine) :
    ((r.saveFile path).run s e).trace.fileNames = [Text.encode (Text.lossy path)] := by
  simp only [Ruleset.saveFile, pathPassed whole, runBind, runCall, runPure]
  rfl

theorem addFileNames (c : Compiler) {files : Files} {content : Bytes} {space : Option Bytes}
    (opened : files.read path = .ok content) (fits : ∀ name, space = some name → 0 ∉ name)
    (s : Script) (e : Engine) :
    ((c.addFile files path space).run s e).trace.fileNames = [Text.encode (Text.lossy path)] := by
  rw [Trace.fileNames, Compiler.addFilePassed opened fits, Compiler.collectingCalls]
  rfl

theorem fileNamesAppend (t u : Trace) : Trace.fileNames (t ++ u) = t.fileNames ++ u.fileNames := by
  rw [Trace.fileNames, Trace.callsAppend, List.filterMap_append]
  rfl

theorem closingNames {ε α : Type} (s : Script) (inner : Outcome (Except ε α)) :
    (Token.closing s inner).trace.fileNames = [] := by
  unfold Token.closing
  cases inner.value with
  | ok v => rfl
  | error f =>
    obtain ⟨severity, message, released⟩ := Token.releaseRun ⟨⟩ s inner.engine
    simp only [released]
    rfl

theorem notedNames {ε : Type} (note : Ruleset → String) (outcome : Except ε Ruleset) (s : Script)
    (e : Engine) : ((Ruleset.noted note outcome).run s e).trace.fileNames = [] := by
  cases outcome <;> rfl

theorem loadFileNames (whole : 0 ∉ path) (s : Script) (e : Engine) :
    ((Ruleset.loadFile path).run s e).trace.fileNames =
      if s.statusOf e .setUp = 0 then [Text.encode (Text.lossy path)] else [] := by
  split
  case isFalse refused =>
    rw [Trace.fileNames, (Ruleset.loadFileHeldOff path refused).2]
    rfl
  case isTrue granted =>
    have setUp (rest : Trace) :
        Trace.fileNames (.call .setUp ⟨0, none⟩ :: .log .debug "libyara initialized" :: rest) =
          rest.fileNames := rfl
    have asked (fileName : Bytes) (before : Engine) :
        ((callForRules (.loadRules fileName)).run s before).trace.fileNames = [fileName] := rfl
    rw [Ruleset.loadFile, Token.holdingGranted granted]
    simp only [pathPassed whole, runBind, setUp, List.cons_append, fileNamesAppend, asked, notedNames,
      closingNames, List.append_nil]

end

/- What the engine is told for a path without a zero byte when a ruleset is saved or loaded or a file
is added; when that is the path; when no other path is told alike; and that no two well-formed paths
ever are. -/
theorem pathToldIfWellFormed (c : Compiler) (r : Ruleset) (files : Files) (path : Bytes)
    (whole : 0 ∉ path) :
    let name := Text.encode (Text.lossy path)
    ((∀ s e, ((r.saveFile path).run s e).trace.fileNames = [name]) ∧
      (∀ s e, ((Ruleset.loadFile path).run s e).trace.fileNames =
        if s.statusOf e .setUp = 0 then [name] else []) ∧
      ∀ content space, files.read path = .ok content →
        (∀ name, space = some name → 0 ∉ name) → ∀ s e,
          ((c.addFile files path space).run s e).trace.fileNames = [name]) ∧
    (name = path ↔ Text.WellFormed path) ∧
    ((∀ other, 0 ∉ other → Text.encode (Text.lossy other) = name → other = path) ↔
      ∃ text, Text.encode text = path ∧ Text.replacement ∉ text.toList) ∧
    (Text.WellFormed path → ∀ other, Text.WellFormed other →
      Text.encode (Text.lossy other) = name → other = path) := by
  intro name
  refine ⟨⟨saveFileNames r whole, loadFileNames whole, fun content space opened fits =>
    addFileNames c opened fits⟩, Text.shownIffWellFormed, Text.shownAloneIff whole, ?_⟩
  intro formed other others same
  rw [← Text.shownIffWellFormed.mpr others, same]
  exact Text.shownIffWellFormed.mpr formed

theorem strayBytesToldAlike (r : Ruleset) {a b : UInt8} (left : 0x80 ≤ a) (right : 0x80 ≤ b)
    {s : Script} {e : Engine} (granted : s.statusOf e .setUp = 0) :
    ((r.saveFile [a]).run s e).trace.fileNames =
      ((Ruleset.loadFile [b]).run s e).trace.fileNames := by
  have whole {x : UInt8} (stray : 0x80 ≤ x) : 0 ∉ [x] := fun zero => by
    cases List.mem_singleton.mp zero
    contradiction
  rw [saveFileNames r (whole left), loadFileNames (whole right), if_pos granted,
    Text.strayByteShown left, Text.strayByteShown right]

end ScanEngine
