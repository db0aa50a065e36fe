import ScanEngine.Compiler
import ScanEngine.Proofs.Text.Spelling
import ScanEngine.Ruleset.Scan
import ScanEngine.Ruleset.Storage

/-! Texts on their way to the engine. A text with a zero byte would end there as a C string, so it
is refused before any call; every other text arrives as it is. Of several inputs the first that
cannot be passed is the one that is reported. -/
namespace ScanEngine
open Operation

structure ZeroByte.Marks (z : ZeroByte) (text : Bytes) : Prop where
  data : z.data = text
  zero : text[z.position]? = some 0
  first : 0 ∉ text.take z.position

/- An outcome without any call: nothing happened but that an input was looked at. -/
def Operation.Refuses {α : Type} (m : Operation (Except Failure α)) (f : Failure) : Prop :=
  ∀ s e, m.run s e = ⟨.error f, e, []⟩

section
variable {text : Bytes}

theorem cStringRefused (ends : 0 ∈ text) : ∃ z, z.Marks text ∧ cString text = .error z := by
  unfold cString
  cases found : text.findIdx? (· == 0) with
  | none =>
    have clear := List.findIdx?_eq_none_iff.mp found 0 ends
    simp at clear
  | some position =>
    obtain ⟨within, zero, before⟩ := List.findIdx?_eq_some_iff_getElem.mp found
    refine ⟨⟨position, text⟩, ⟨rfl, ?_, ?_⟩, rfl⟩
    · rw [List.getElem?_eq_getElem within, beq_iff_eq.mp zero]
    · intro mem
      obtain ⟨i, inside, same⟩ := List.mem_take_iff_getElem.mp mem
      exact before i (Nat.lt_of_lt_of_le inside (Nat.min_le_left _ _)) (beq_iff_eq.mpr same)

theorem cStringPassed (whole : 0 ∉ text) : cString text = .ok text := by
  unfold cString
  cases found : text.findIdx? (· == 0) with
  | none => rfl
  | some position =>
    obtain ⟨within, zero, -⟩ := List.findIdx?_eq_some_iff_getElem.mp found
    exact absurd (beq_iff_eq.mp zero ▸ List.getElem_mem within) whole

theorem pathRefused {path : Bytes} (ends : 0 ∈ path) :
    ∃ z, z.Marks (Text.encode (Text.lossy path)) ∧ pathString path = .error z :=
  cStringRefused ((Text.zeroShown path).mpr ends)

theorem pathPassed {path : Bytes} (whole : 0 ∉ path) :
    pathString path = .ok (Text.encode (Text.lossy path)) :=
  cStringPassed fun ends => whole ((Text.zeroShown path).mp ends)

theorem spacePassed {space : Option Bytes} (whole : ∀ name, space = some name → 0 ∉ name) :
    cStringOrNull space = .ok space := by
  cases space with
  | none => rfl
  | some name =>
    rw [cStringOrNull, cStringPassed (whole name rfl)]
    rfl

theorem valuePassed {value : External} (whole : ∀ text, value = .text text → 0 ∉ text) :
    Compiler.externalValue value = .ok value := by
  cases value with
  | text text =>
    rw [Compiler.externalValue, cStringPassed (whole text rfl)]
    rfl
  | _ => rfl

theorem readWhole {files : Files} {path content : Bytes} (opened : files.read path = .ok content) :
    0 ∉ path := by
  intro ends
  rw [Files.read, if_pos ends] at opened
  contradiction

end

namespace Compiler
variable {c : Compiler}

theorem addTextRefused {source : Bytes} (space : Option Bytes) (ends : 0 ∈ source) :
    ∃ z, z.Marks source ∧ (c.addText source space).Refuses (.zeroByte z) := by
  obtain ⟨z, marks, refused⟩ := cStringRefused ends
  refine ⟨z, marks, fun s e => ?_⟩
  simp only [addText, refused, runPure]

theorem addTextSpaceRefused {source name : Bytes} (whole : 0 ∉ source) (ends : 0 ∈ name) :
    ∃ z, z.Marks name ∧ (c.addText source (some name)).Refuses (.zeroByte z) := by
  obtain ⟨z, marks, refused⟩ := cStringRefused ends
  refine ⟨z, marks, fun s e => ?_⟩
  simp only [addText, cStringPassed whole, cStringOrNull, refused, Except.map, runPure]

theorem addTextPassed {source : Bytes} {space : Option Bytes} (whole : 0 ∉ source)
    (fits : ∀ name, space = some name → 0 ∉ name) :
    c.addText source space = c.collecting (.addText c.handle source space) := by
  simp only [addText, cStringPassed whole, spacePassed fits]

theorem addFileUnopened {files : Files} {path : Bytes} {fault : PathFault} (space : Option Bytes)
    (unopened : files.read path = .error fault) :
    (c.addFile files path space).Refuses (.io ⟨.openRulesFile, .path fault⟩) := by
  intro s e
  simp only [addFile, unopened, runPure]

theorem addFileSpaceRefused {files : Files} {path content name : Bytes}
    (opened : files.read path = .ok content) (ends : 0 ∈ name) :
    ∃ z, z.Marks name ∧ (c.addFile files path (some name)).Refuses (.zeroByte z) := by
  obtain ⟨z, marks, refused⟩ := cStringRefused ends
  refine ⟨z, marks, fun s e => ?_⟩
  simp only [addFile, opened, pathPassed (readWhole opened), cStringOrNull, refused, Except.map,
    runPure]

theorem addFilePassed {files : Files} {path content : Bytes} {space : Option Bytes}
    (opened : files.read path = .ok content) (fits : ∀ name, space = some name → 0 ∉ name) :
    c.addFile files path space =
      c.collecting (.addFile c.handle content space (Text.encode (Text.lossy path))) := by
  simp only [addFile, opened, pathPassed (readWhole opened), spacePassed fits]

theorem collectingCalls (c : Compiler) (addition : Call) (s : Script) (e : Engine) :
    ((c.collecting addition).run s e).trace.calls =
      [.setCallback c.handle true true, addition, .setCallback c.handle false false] := by
  rw [collectingRun]
  simp [Trace.calls, List.filterMap_map]

theorem defineRefused {identifier : Bytes} (value : External) (ends : 0 ∈ identifier) :
    ∃ z, z.Marks identifier ∧ (c.define identifier value).Refuses (.zeroByte z) := by
  obtain ⟨z, marks, refused⟩ := cStringRefused ends
  refine ⟨z, marks, fun s e => ?_⟩
  simp only [define, refused, runPure]

theorem defineTextRefused {identifier text : Bytes} (whole : 0 ∉ identifier) (ends : 0 ∈ text) :
    ∃ z, z.Marks text ∧ (c.define identifier (.text text)).Refuses (.zeroByte z) := by
  obtain ⟨z, marks, refused⟩ := cStringRefused ends
  refine ⟨z, marks, fun s e => ?_⟩
  simp only [define, cStringPassed whole, externalValue, refused, Except.map, runPure]

theorem definePassed {identifier : Bytes} {value : External} (whole : 0 ∉ identifier)
    (fits : ∀ text, value = .text text → 0 ∉ text) (s : Script) (e : Engine) :
    ((c.define identifier value).run s e).trace.calls = [.define c.handle identifier value] := by
  simp only [define, cStringPassed whole, valuePassed fits, runBind, runCall, runPure]
  rfl

end Compiler

namespace Ruleset

theorem saveFileRefused (r : Ruleset) {path : Bytes} {z : ZeroByte}
    (refused : pathString path = .error z) : (r.saveFile path).Refuses (.zeroByte z) := by
  intro s e
  simp only [saveFile, refused, runPure]

theorem scanFileUnopened (r : Ruleset) {files : Files} {path : Bytes} {fault : PathFault}
    (timeout : UInt16) (unopened : files.read path = .error fault) :
    (r.scanFile files path timeout).Refuses (.io ⟨.openScanFile, .path fault⟩) := by
  intro s e
  simp only [scanFile, unopened, runPure]

theorem loadFileRefused {path : Bytes} {z : ZeroByte} (refused : pathString path = .error z)
    {s : Script} {e : Engine} (granted : s.statusOf e .setUp = 0) :
    ((loadFile path).run s e).value = .error (.zeroByte z) ∧
      ((loadFile path).run s e).trace.calls = [.setUp, .tearDown] := by
  obtain ⟨severity, message, released⟩ := Token.releaseRun ⟨⟩ s e.called
  rw [loadFile, Token.holdingGranted granted]
  simp only [refused, runPure, Token.closing, released]
  exact ⟨trivial, rfl⟩

theorem loadFileHeldOff (path : Bytes) {s : Script} {e : Engine}
    (refused : s.statusOf e .setUp ≠ 0) :
    (∃ err, err.code = s.statusOf e .setUp ∧
      ((loadFile path).run s e).value = .error (.engine err)) ∧
        ((loadFile path).run s e).trace.calls = [.setUp] := by
  obtain ⟨err, code, held⟩ := Token.holdingRefused refused Failure.engine _
  rw [loadFile, held]
  exact ⟨⟨err, code, rfl⟩, rfl⟩

end Ruleset

/- What cannot be passed whole is refused before any call, the first such input with its first zero
byte, or with the fault of its path; what can be is what the engine is given, byte for byte. Loading
from a path sets the engine up first and, if that succeeded, tears it down again. -/
theorem unfitTextsNeverPassed (c : Compiler) (r : Ruleset) (files : Files) :
    (∀ source space,
      (0 ∈ source → ∃ z, z.Marks source ∧ (c.addText source space).Refuses (.zeroByte z)) ∧
      (0 ∉ source → ∀ name, space = some name → 0 ∈ name →
        ∃ z, z.Marks name ∧ (c.addText source space).Refuses (.zeroByte z)) ∧
      (0 ∉ source → (∀ name, space = some name → 0 ∉ name) → ∀ s e,
        ((c.addText source space).run s e).trace.calls =
          [.setCallback c.handle true true, .addText c.handle source space,
            .setCallback c.handle false false])) ∧
    (∀ path space,
      (∀ fault, files.read path = .error fault →
        (c.addFile files path space).Refuses (.io ⟨.openRulesFile, .path fault⟩)) ∧
      ∀ content, files.read path = .ok content →
        (∀ name, space = some name → 0 ∈ name →
          ∃ z, z.Marks name ∧ (c.addFile files path space).Refuses (.zeroByte z)) ∧
        ((∀ name, space = some name → 0 ∉ name) → ∀ s e,
          ((c.addFile files path space).run s e).trace.calls =
            [.setCallback c.handle true true,
              .addFile c.handle content space (Text.encode (Text.lossy path)),
              .setCallback c.handle false false])) ∧
    (∀ identifier value,
      (0 ∈ identifier →
        ∃ z, z.Marks identifier ∧ (c.define identifier value).Refuses (.zeroByte z)) ∧
      (0 ∉ identifier → ∀ text, value = .text text → 0 ∈ text →
        ∃ z, z.Marks text ∧ (c.define identifier value).Refuses (.zeroByte z)) ∧
      (0 ∉ identifier → (∀ text, value = .text text → 0 ∉ text) → ∀ s e,
        ((c.define identifier value).run s e).trace.calls = [.define c.handle identifier value])) ∧
    (∀ path, 0 ∈ path →
      ∃ z, z.Marks (Text.encode (Text.lossy path)) ∧ (r.saveFile path).Refuses (.zeroByte z) ∧
        ∀ s e, let ran := (Ruleset.loadFile path).run s e
          (s.statusOf e .setUp = 0 →
            ran.value = .error (.zeroByte z) ∧ ran.trace.calls = [.setUp, .tearDown]) ∧
          (s.statusOf e .setUp ≠ 0 →
            (∃ err, err.code = s.statusOf e .setUp ∧ ran.value = .error (.engine err)) ∧
              ran.trace.calls = [.setUp])) ∧
    ∀ path timeout fault, files.read path = .error fault →
      (r.scanFile files path timeout).Refuses (.io ⟨.openScanFile, .path fault⟩) := by
  refine ⟨fun source space => ⟨Compiler.addTextRefused space, ?_, fun whole fits s e => ?_⟩,
    fun path space => ⟨fun fault => Compiler.addFileUnopened space, fun content opened => ⟨?_,
      fun fits s e => ?_⟩⟩,
    fun identifier value => ⟨Compiler.defineRefused value, ?_, Compiler.definePassed⟩,
    fun path ends => ?_, fun path timeout fault => r.scanFileUnopened timeout⟩
  · rintro whole name rfl ends
    exact Compiler.addTextSpaceRefused whole ends
  · rw [Compiler.addTextPassed whole fits]
    exact c.collectingCalls _ s e
  · rintro name rfl ends
    exact Compiler.addFileSpaceRefused opened ends
  · rw [Compiler.addFilePassed opened fits]
    exact c.collectingCalls _ s e
  · rintro whole text rfl ends
    exact Compiler.defineTextRefused whole ends
  · obtain ⟨z, marks, refused⟩ := pathRefused ends
    exact ⟨z, marks, r.saveFileRefused refused, fun s e =>
      ⟨Ruleset.loadFileRefused refused, Ruleset.loadFileHeldOff path⟩⟩

end ScanEngine
