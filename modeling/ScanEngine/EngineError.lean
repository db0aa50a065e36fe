/-! Status codes of the engine. Zero is success; every other code is an error that keeps the code,
also where the code has no name. -/
namespace ScanEngine

inductive EngineError where
  | insufficientMemory | couldNotAttach | couldNotOpenFile | couldNotMapFile | invalidFile
  | corruptFile | unsupportedFileVersion | syntaxError | duplicatedIdentifier
  | undefinedIdentifier | wrongType | scanTimeout | callbackError | invalidArgument
  | tooManyMatches | internalFatalError
  | unknown (code : Int32)
  deriving DecidableEq, Repr

namespace EngineError

def code : EngineError → Int32
  | insufficientMemory => 1
  | couldNotAttach => 2
  | couldNotOpenFile => 3
  | couldNotMapFile => 4
  | invalidFile => 6
  | corruptFile => 7
  | unsupportedFileVersion => 8
  | syntaxError => 11
  | duplicatedIdentifier => 14
  | undefinedIdentifier => 20
  | wrongType => 24
  | scanTimeout => 26
  | callbackError => 28
  | invalidArgument => 29
  | tooManyMatches => 30
  | internalFatalError => 31
  | unknown code => code

def named : List EngineError :=
  [insufficientMemory, couldNotAttach, couldNotOpenFile, couldNotMapFile, invalidFile, corruptFile,
    unsupportedFileVersion, syntaxError, duplicatedIdentifier, undefinedIdentifier, wrongType,
    scanTimeout, callbackError, invalidArgument, tooManyMatches, internalFatalError]

def ofCode? (code : Int32) : Option EngineError :=
  if code = 0 then none else some ((named.find? (·.code = code)).getD (unknown code))

def check (status : Int32) : Except EngineError Unit :=
  match ofCode? status with
  | none => .ok ()
  | some e => .error e

def message : EngineError → String
  | insufficientMemory => "insufficient memory"
  | couldNotAttach => "could not attach to process"
  | couldNotOpenFile => "file could not be opened"
  | couldNotMapFile => "file could not be mapped into memory"
  | invalidFile => "file is not a valid rules file"
  | corruptFile => "rules file is corrupt"
  | unsupportedFileVersion => "rules file version is not supported"
  | syntaxError => "syntax error in rule"
  | duplicatedIdentifier => "duplicated identifier"
  | undefinedIdentifier => "undefined identifier"
  | wrongType => "wrong type"
  | scanTimeout => "scan timed out"
  | callbackError => "callback returned an error"
  | invalidArgument => "invalid argument"
  | tooManyMatches => "too many matches"
  | internalFatalError => "internal fatal error"
  | unknown code => s!"unknown yara error code {code}"

theorem ofCodeSuccess {code : Int32} : ofCode? code = none ↔ code = 0 := by
  unfold ofCode?
  split <;> simp_all

theorem codeKept {code : Int32} {e : EngineError} (h : ofCode? code = some e) : e.code = code := by
  unfold ofCode? at h
  split at h <;> try contradiction
  cases Option.some.inj h
  cases found : named.find? (·.code = code) with
  | none => rfl
  | some e => simpa using List.find?_some found

theorem checkFailure {code : Int32} (h : code ≠ 0) : ∃ e, check code = .error e ∧ e.code = code := by
  cases found : ofCode? code with
  | none => exact absurd (ofCodeSuccess.mp found) h
  | some e => exact ⟨e, by simp [check, found], codeKept found⟩

theorem checkSuccess {code : Int32} : check code = .ok () ↔ code = 0 := by
  rw [check, ← ofCodeSuccess]
  cases ofCode? code <;> simp

theorem checkDistinct {code other : Int32} (same : check code = check other) : code = other := by
  by_cases success : code = 0
  · exact success.trans (checkSuccess.mp (same.symm.trans (checkSuccess.mpr success))).symm
  · have failure : other ≠ 0 := fun zero =>
      success (checkSuccess.mp (same.trans (checkSuccess.mpr zero)))
    obtain ⟨err, checked, kept⟩ := checkFailure success
    obtain ⟨_, checked', kept'⟩ := checkFailure failure
    cases checked.symm.trans (same.trans checked')
    exact kept.symm.trans kept'

end EngineError
end ScanEngine
