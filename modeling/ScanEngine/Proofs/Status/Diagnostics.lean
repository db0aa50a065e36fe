import Mathlib.Data.List.Forall2
import ScanEngine.Proofs.Text.Passage

/-! Diagnostics of additions. One is kept for each report, in order, warnings included; a level code
other than that of warnings makes it an error. An addition succeeds with status zero and no error,
and whatever comes of it, its warnings are logged after the callback is removed. -/
namespace ScanEngine
open Operation

structure Report.Kept (r : Report) (d : Diagnostic) : Prop where
  warning : d.level = .warning ↔ r.level = 1
  error : d.level = .error ↔ r.level ≠ 1
  line : (d.line : Int) = max r.line.toInt 0
  file : d.file = r.file.map fun file => Text.lossy (file.takeWhile (· != 0))
  text : d.text = (r.message.map fun message => Text.lossy (message.takeWhile (· != 0))).getD ""

theorem levelWarning {code : Int32} : (Level.ofCode? code).getD .error = .warning ↔ code = 1 := by
  unfold Level.ofCode?
  split
  case isTrue zero => simp [zero]
  case isFalse => split <;> simp_all

theorem levelError {code : Int32} : (Level.ofCode? code).getD .error = .error ↔ code ≠ 1 := by
  rw [Ne, ← levelWarning]
  cases (Level.ofCode? code).getD .error <;> simp

theorem reportKept (r : Report) : r.Kept (.ofReport r) where
  warning := levelWarning
  error := levelError
  line := Int.toNat_eq_max _
  file := rfl
  text := rfl

theorem keptIff {r : Report} {d : Diagnostic} : r.Kept d ↔ .ofReport r = d := by
  constructor
  · cases d with
    | mk level file line text =>
      intro kept
      have sameLevel : (Level.ofCode? r.level).getD .error = level := by
        by_cases warns : r.level = 1
        · exact (levelWarning.mpr warns).trans (kept.warning.mpr warns).symm
        · exact (levelError.mpr warns).trans (kept.error.mpr warns).symm
      have sameLine : r.line.toInt.toNat = line :=
        Int.ofNat_inj.mp ((Int.toNat_eq_max _).trans kept.line.symm)
      rw [Diagnostic.ofReport, Diagnostic.mk.injEq]
      exact ⟨sameLevel, kept.file.symm, sameLine, kept.text.symm⟩
  · rintro rfl
    exact reportKept r

theorem reportsKeptIff {reports : List Report} {found : List Diagnostic} :
    List.Forall₂ Report.Kept reports found ↔ reports.map .ofReport = found := by
  have same : Report.Kept = fun r d => Diagnostic.ofReport r = d := by
    funext r d
    exact propext keptIff
  rw [same, ← List.forall₂_map_left_iff, List.forall₂_eq_eq_eq]

section
variable {reports : List Report}

theorem errorIff {r : Report} : (Diagnostic.ofReport r).isError = true ↔ r.level ≠ 1 := by
  rw [Diagnostic.isError, beq_iff_eq, (reportKept r).error]

theorem noErrorIff {r : Report} : (Diagnostic.ofReport r).isError = false ↔ r.level = 1 := by
  rw [← Bool.not_eq_true, errorIff, not_not]

theorem errorsAbsent :
    (reports.map Diagnostic.ofReport).any Diagnostic.isError = false ↔
      ∀ r ∈ reports, r.level = 1 := by
  simp only [List.any_map, List.any_eq_false, Function.comp_apply, errorIff, not_not]

theorem firstErrorAt {x : Diagnostic} :
    (reports.map Diagnostic.ofReport).find? Diagnostic.isError = some x ↔ ∃ before r after,
      reports = before ++ r :: after ∧ (∀ q ∈ before, q.level = 1) ∧ r.level ≠ 1 ∧
        (reports.map Diagnostic.ofReport)[before.length]? = some x := by
  simp only [List.find?_map, Option.map_eq_some_iff, List.find?_eq_some_iff_append,
    Function.comp_apply, Bool.not_eq_true', errorIff, noErrorIff]
  constructor
  · rintro ⟨r, ⟨fails, before, after, split, warned⟩, rfl⟩
    exact ⟨before, r, after, split, warned, fails, by simp [split]⟩
  · rintro ⟨before, r, after, split, warned, fails, found⟩
    exact ⟨r, ⟨fails, before, after, split, warned⟩, by simpa [split] using found⟩

theorem firstErrorPresent (failed : ¬∀ r ∈ reports, r.level = 1) :
    ((reports.map Diagnostic.ofReport).find? Diagnostic.isError).isSome = true := by
  rw [List.find?_isSome, ← List.any_eq_true, ← Bool.not_eq_false, errorsAbsent]
  exact failed

theorem verdictFine {status : Int32} :
    Compiler.verdict status (reports.map Diagnostic.ofReport) = .ok () ↔
      status = 0 ∧ ∀ r ∈ reports, r.level = 1 := by
  rw [Compiler.verdict, ← errorsAbsent]
  split <;> simp_all

theorem verdictFailed {status : Int32}
    (failed : Compiler.verdict status (reports.map Diagnostic.ofReport) ≠ .ok ()) :
    Compiler.verdict status (reports.map Diagnostic.ofReport) =
      .error (.compile ⟨reports.map Diagnostic.ofReport⟩) := by
  unfold Compiler.verdict at failed ⊢
  split
  case isTrue fine => exact absurd (if_pos fine) failed
  case isFalse => rfl

end

/- What an addition that reaches the engine makes of the reports during it. -/
structure Compiler.Told (c : Compiler) (addition : Call) (s : Script) (e : Engine)
    (ran : Outcome (Except Failure Unit)) (found : List Diagnostic) : Prop where
  oneEach : List.Forall₂ Report.Kept s.reports found
  succeeded : ran.value = .ok () ↔
    s.statusOf e.called addition = 0 ∧ ∀ r ∈ s.reports, r.level = 1
  failed : ran.value ≠ .ok () → ran.value = .error (.compile ⟨found⟩)
  first : ∀ x, Diagnostics.firstError? ⟨found⟩ = some x ↔ ∃ before r after,
    s.reports = before ++ r :: after ∧ (∀ q ∈ before, q.level = 1) ∧ r.level ≠ 1 ∧
      found[before.length]? = some x
  present : ran.value ≠ .ok () → s.statusOf e.called addition = 0 →
    (Diagnostics.firstError? ⟨found⟩).isSome = true
  logged : ran.trace = .call (.setCallback c.handle true true) ⟨0, none⟩ ::
    .call addition ⟨s.statusOf e.called addition, none⟩ ::
      .call (.setCallback c.handle false false) ⟨0, none⟩ ::
        (found.filter (·.level = .warning)).map fun d => .log .warn d.display

theorem collectingTold (c : Compiler) (addition : Call) (s : Script) (e : Engine) :
    c.Told addition s e ((c.collecting addition).run s e)
      (s.reports.map Diagnostic.ofReport) := by
  rw [Compiler.collectingRun]
  constructor
  case oneEach => exact reportsKeptIff.mpr rfl
  case succeeded => exact verdictFine
  case failed => exact verdictFailed
  case first => exact fun x => firstErrorAt
  case present =>
    intro failed succeeded
    exact firstErrorPresent fun warned => failed (verdictFine.mpr ⟨succeeded, warned⟩)
  case logged => rfl

theorem additionTold (c : Compiler) (files : Files) (s : Script) (e : Engine) :
    (∀ source space, 0 ∉ source → (∀ name, space = some name → 0 ∉ name) →
      ∃ found, c.Told (.addText c.handle source space) s e
        ((c.addText source space).run s e) found) ∧
    ∀ path content space, files.read path = .ok content →
      (∀ name, space = some name → 0 ∉ name) →
        ∃ found, c.Told (.addFile c.handle content space (Text.encode (Text.lossy path))) s e
          ((c.addFile files path space).run s e) found := by
  constructor
  · intro source space whole fits
    rw [Compiler.addTextPassed whole fits]
    exact ⟨_, collectingTold c _ s e⟩
  · intro path content space opened fits
    rw [Compiler.addFilePassed opened fits]
    exact ⟨_, collectingTold c _ s e⟩

/- A warning, then a report of no known level, with no texts and a line below zero: the text that
is added fails at the second. With the warning alone, the file passes. -/
theorem unknownLevelTold :
    let c : Compiler := ⟨⟨⟩, 0⟩
    let files : Files := ⟨[([0x66], [0x7b])]⟩
    let warned : Report := ⟨1, some [0x61, 0, 0x62], 3, some [0x75, 0xff]⟩
    let unknown : Report := ⟨7, none, -2, none⟩
    let found : List Diagnostic := [⟨.warning, some "a", 3, "u\ufffd"⟩, ⟨.error, none, 0, ""⟩]
    let logged : Event := .log .warn "compile warning in a at line 3: u\ufffd"
    let both : Script := { reports := [warned, unknown] }
    let added := (c.addText [0x72] (some [0x6e])).run both {}
    let opened := (c.addFile files [0x66] none).run { reports := [warned] } {}
    (0 : UInt8) ∉ [0x72] ∧ (0 : UInt8) ∉ [0x6e] ∧ files.read [0x66] = .ok [0x7b] ∧
      added.value = .error (.compile ⟨found⟩) ∧ added.trace.getLast? = some logged ∧
      Diagnostics.firstError? ⟨found⟩ = some ⟨.error, none, 0, ""⟩ ∧
      opened.value = .ok () ∧ opened.trace.getLast? = some logged := by
  intro c files warned unknown found logged both added opened
  have whole : (0 : UInt8) ∉ [0x72] := by decide
  have fits : (0 : UInt8) ∉ [0x6e] := by decide
  have content : files.read [0x66] = .ok [0x7b] := by decide
  obtain ⟨kept, told⟩ := (additionTold c files both {}).1 [0x72] (some [0x6e]) whole
    (by rintro _ ⟨⟩; exact fits)
  have same : kept = found := by
    rw [← reportsKeptIff.mp told.oneEach]
    decide +kernel
  rw [same] at told
  have failed : added.value ≠ .ok () := fun fine =>
    absurd ((told.succeeded.mp fine).2 unknown (by simp [both])) (by decide)
  have earliest : Diagnostics.firstError? ⟨found⟩ = some ⟨.error, none, 0, ""⟩ :=
    (told.first _).mpr ⟨[warned], unknown, [], rfl, by simp [warned], by decide, rfl⟩
  obtain ⟨alone, passed⟩ := (additionTold c files { reports := [warned] } {}).2 [0x66] [0x7b] none
    content nofun
  have single : alone = [⟨.warning, some "a", 3, "u\ufffd"⟩] := by
    rw [← reportsKeptIff.mp passed.oneEach]
    decide +kernel
  rw [single] at passed
  have succeeded : opened.value = .ok () :=
    passed.succeeded.mpr ⟨rfl, by simp [warned]⟩
  refine ⟨whole, fits, content, told.failed failed, ?_, earliest, succeeded, ?_⟩
  · rw [told.logged]
    decide +kernel
  · rw [passed.logged]
    decide +kernel

end ScanEngine
