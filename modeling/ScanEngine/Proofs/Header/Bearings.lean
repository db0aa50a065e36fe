import ScanEngine.Proofs.Header.LineScan
import ScanEngine.Version

/-! The search for a macro against a plain scan: the lines in order, without those that an unclosed
opener stands before, and of the rest the first define. A line bears on this by what it defines the
macro as, by an opener it leaves open and by a closer in it. How often it mentions the macro does not
matter, nor does any line behind the define. -/
namespace ScanEngine.Header

def Line.Skipped (l : Line) : Prop :=
  ∃ front rest, l.before = front ++ blockOpener ++ rest ∧
    ¬blockOpener <:+: rest ∧ ¬blockCloser <:+: rest

instance : DecidablePred Line.Skipped := fun _ => decidable_of_iff _ underOpenerLast

def firstDefine? (m : VersionMacro) (header : Bytes) : Option Define :=
  ((linesOf header).filter fun l => ¬l.Skipped).findSome? fun l => Define.ofMacro? m l.text

def Define.outcome (m : VersionMacro) : Option Define → Except VersionError (Option UInt32)
  | none => .ok none
  | some d =>
    match readNumber? d.value with
    | some n => .ok (some n)
    | none => .error (.invalid m d.value)

theorem scanRemaining (m : VersionMacro) (before : Bytes) (texts : List Bytes) :
    scanFrom m before texts =
      ((linesFrom before texts).filter fun l => ¬l.Skipped).findSome? (Line.reading? m) := by
  induction texts generalizing before with
  | nil => rfl
  | cons text more ih =>
    have under : underOpener before = true ↔ Line.Skipped ⟨before, text⟩ := underOpenerLast
    rw [scanFrom, ih, linesFrom, List.filter_cons, lineReadingEq m ⟨before, text⟩]
    by_cases skipped : Line.Skipped ⟨before, text⟩
    · simp [skipped, under.mpr skipped]
    · simp [skipped, under.not.mpr skipped, List.findSome?_cons]
      cases Line.reading? m ⟨before, text⟩ <;> rfl

theorem lookupDefine (m : VersionMacro) (header : Bytes) :
    lookup m header = (firstDefine? m header).map fun d => .ofValue d.value := by
  rw [lookupScan, scanLines, scanRemaining, funext (readingDefine m), firstDefine?,
    List.map_findSome?]
  rfl

theorem macroValueDefine (m : VersionMacro) (header : Bytes) :
    Version.macroValue? m header = Define.outcome m (firstDefine? m header) := by
  rw [Version.macroValue?, lookupDefine]
  cases firstDefine? m header with
  | none => rfl
  | some d =>
    rw [Option.map_some, Define.outcome, Reading.ofValue]
    cases readNumber? d.value <;> rfl

structure Bearing where
  value : Option Bytes
  opens : Bool
  closes : Bool
  deriving DecidableEq, Repr

namespace Bearing

def idle : Bearing := ⟨none, false, false⟩

def ofLine (m : VersionMacro) (text : Bytes) : Bearing :=
  ⟨(Define.ofMacro? m text).map Define.value, underOpener text, Bytes.contains blockCloser text⟩

def scan : Bool → List Bearing → Option Bytes
  | _, [] => none
  | under, b :: rest =>
    (if under then none else b.value).or (scan (b.opens || (under && !b.closes)) rest)

theorem scanIdle (under : Bool) (bs : List Bearing) :
    scan under (bs.filter (· ≠ idle)) = scan under bs := by
  induction bs generalizing under with
  | nil => rfl
  | cons b bs ih =>
    rw [List.filter_cons]
    split
    · rw [scan, scan, ih]
    · rename_i dropped
      have same : b = idle := by simpa using dropped
      rw [ih, same]
      cases under <;> rfl

theorem scanFound {under : Bool} {bs : List Bearing} {value : Bytes}
    (found : scan under bs = some value) (more : List Bearing) :
    scan under (bs ++ more) = some value := by
  induction bs generalizing under with
  | nil => cases found
  | cons b bs ih =>
    rw [List.cons_append, scan, Option.or_eq_some_iff] at *
    exact found.imp_right fun ⟨passed, later⟩ => ⟨passed, ih later⟩

end Bearing

def bearings (m : VersionMacro) (header : Bytes) : List Bearing :=
  ((Bytes.lines header).map (Bearing.ofLine m)).filter (· ≠ .idle)

def Ended (before : Bytes) : Prop := ∀ b ∈ before.getLast?, b = Bytes.newline

section
variable {m : VersionMacro} {before : Bytes}

theorem underOpenerLine (ended : Ended before) (text : Bytes) :
    underOpener (before ++ text ++ [Bytes.newline]) =
      (underOpener text || (underOpener before && !Bytes.contains blockCloser text)) := by
  have broken : underOpener (before ++ text ++ [Bytes.newline]) = true ↔
      underOpener (before ++ text) = true := by
    rw [underOpenerAppend (fun _ => by decide) fun _ => by decide]
    simp [show underOpener [Bytes.newline] = false from rfl,
      show ¬blockCloser <:+: [Bytes.newline] by decide]
  rw [Bool.eq_iff_iff, broken, underOpenerAppend (fun last => by cases ended _ last)
    fun last => by cases ended _ last]
  simp [← Bytes.containsIff]

theorem scanBearings (ended : Ended before) (texts : List Bytes) :
    scanFrom m before texts =
      (Bearing.scan (underOpener before) (texts.map (Bearing.ofLine m))).map .ofValue := by
  induction texts generalizing before with
  | nil => rfl
  | cons text more ih =>
    have next : Ended (before ++ text ++ [Bytes.newline]) := by simp [Ended]
    rw [scanFrom, ih next, underOpenerLine ended, lineReadingEq m ⟨before, text⟩, readingDefine,
      List.map_cons, Bearing.scan, Option.map_or]
    cases underOpener before <;> simp [Bearing.ofLine, Function.comp_def]

theorem lookupBearings (m : VersionMacro) (header : Bytes) :
    lookup m header = (Bearing.scan false (bearings m header)).map .ofValue := by
  have start : Ended [] := nofun
  rw [lookupScan, scanLines, scanBearings start, bearings, Bearing.scanIdle]
  rfl

theorem bearingsJoined (m : VersionMacro) (v more : Bytes) :
    bearings m (v ++ Bytes.newline :: more) = bearings m v ++ bearings m more := by
  rw [bearings, Bytes.linesJoined, List.map_append, List.filter_append, bearings, bearings]

theorem bearingsClosed (m : VersionMacro) (v : Bytes) :
    bearings m (v ++ [Bytes.newline]) = bearings m v := by
  have empty : bearings m [] = [] := rfl
  rw [bearingsJoined, empty, List.append_nil]

theorem lookupAppended {header : Bytes} {r : Reading}
    (closed : header.getLast? = some Bytes.newline) (found : lookup m header = some r)
    (more : Bytes) : lookup m (header ++ more) = some r := by
  obtain ⟨front, rfl⟩ := List.getLast?_eq_some_iff.mp closed
  rw [lookupBearings, bearingsClosed, Option.map_eq_some_iff] at found
  obtain ⟨value, found, rfl⟩ := found
  rw [List.append_assoc, List.singleton_append, lookupBearings, bearingsJoined,
    Bearing.scanFound found, Option.map_some]

end

/- The search is a scan of the lines in order, so headers with the same bearings have the same outcome
however they mention the macro, and nothing behind a result changes it. -/
theorem searchScansLines (m : VersionMacro) (header : Bytes) :
    Version.macroValue? m header = Define.outcome m (firstDefine? m header) ∧
    (∀ other, bearings m other = bearings m header →
      Version.macroValue? m other = Version.macroValue? m header) ∧
    (header.getLast? = some Bytes.newline → Version.macroValue? m header ≠ .ok none →
      ∀ more, Version.macroValue? m (header ++ more) = Version.macroValue? m header) := by
  refine ⟨macroValueDefine m header, fun other same => ?_, fun closed some more => ?_⟩
  · rw [Version.macroValue?, Version.macroValue?, lookupBearings, lookupBearings, same]
  · cases found : lookup m header with
    | none => exact absurd (by rw [Version.macroValue?, found]) some
    | some r =>
      rw [Version.macroValue?, Version.macroValue?, lookupAppended closed found, found]

theorem mentionsCountForNothing :
    let plain := Bytes.ofAscii "#define YR_MAJOR_VERSION 4\n"
    let noisy := Bytes.ofAscii
      "// YR_MAJOR_VERSION\n#define YR_MAJOR_VERSION_ 3\n#define YR_MAJOR_VERSION 4//YR_MAJOR_VERSION\n"
    bearings .major noisy = bearings .major plain ∧
      Version.macroValue? .major noisy = Version.macroValue? .major plain ∧
      ∀ more, Version.macroValue? .major (plain ++ more) = .ok (some 4) := by
  intro plain noisy
  have same : bearings .major noisy = bearings .major plain := by decide +kernel
  have found : lookup .major plain = some (.number 4) := by decide +kernel
  have value : Version.macroValue? .major plain = .ok (some 4) := by
    rw [Version.macroValue?, found]
  obtain ⟨-, alike, appended⟩ := searchScansLines .major plain
  refine ⟨same, alike noisy same, fun more => ?_⟩
  rw [appended (by decide) (by rw [value]; nofun) more, value]

end ScanEngine.Header
