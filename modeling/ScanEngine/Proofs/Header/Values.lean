import Mathlib.Data.List.TakeWhile
import ScanEngine.Proofs.Header.Bearings
import ScanEngine.Proofs.Header.Numerals

/-! Values that are no integers. The outcome of a define is decided by its value up to the first
slash. Where the value has no slash but that of a comment this is the whole value, so one that is no
integer is rejected as it stands; a division is judged by its dividend. -/
namespace ScanEngine.Header

theorem uncommentedCut (v : Bytes) :
    (uncommented v).takeWhile (· != slash) = v.takeWhile (· != slash) := by
  induction v using uncommented.induct with
  | case1 => rfl
  | case2 b => rfl
  | case3 a b rest comment =>
    obtain ⟨rfl, second⟩ := comment
    rw [uncommented, if_pos ⟨rfl, second⟩]
    rfl
  | case4 a b rest plain ih =>
    rw [uncommented, if_neg plain, List.takeWhile_cons, List.takeWhile_cons, ih]

theorem cutTrimmed (v : Bytes) :
    Bytes.trim ((Bytes.trim v).takeWhile (· != slash)) =
      Bytes.trim (v.takeWhile (· != slash)) := by
  obtain ⟨left, right, whole, before, after⟩ := Bytes.trimBetween v
  have passes {gap : Bytes} (blank : ∀ b ∈ gap, Bytes.isBlank b) :
      ∀ b ∈ gap, (b != slash) = true := by
    intro b mem
    refine bne_iff_ne.mpr ?_
    rintro rfl
    cases blank _ mem
  have cut : v.takeWhile (· != slash) =
      left ++ (Bytes.trim v ++ right).takeWhile (· != slash) := by
    conv => lhs; rw [whole, List.append_assoc]
    exact List.takeWhile_append_of_pos (passes before)
  rw [cut, List.takeWhile_append]
  split
  · rename_i all
    have full := (List.takeWhile_prefix (· != slash) (l := Bytes.trim v)).eq_of_length all
    have rest : right.takeWhile (· != slash) = right :=
      List.takeWhile_eq_self_iff.mpr (passes after)
    rw [full, rest, ← List.append_assoc, Bytes.trimAround before after]
  · have around := Bytes.trimAround before (List.forall_mem_nil _)
      ((Bytes.trim v).takeWhile (· != slash))
    rw [List.append_nil] at around
    exact around.symm

namespace Define

def front (d : Define) : Bytes := Bytes.trim (d.fullValue.takeWhile (· != slash))

theorem valueFront (d : Define) : d.value = d.front := by
  rw [front, fullValue, cutTrimmed, uncommentedCut, value]

theorem frontPlain (d : Define) : slash ∉ d.front := by
  intro mem
  have cut := (Bytes.trimInfix _).subset mem
  have other := List.mem_takeWhile_imp cut
  simp at other

theorem frontWhole {d : Define} : d.front = d.fullValue ↔ slash ∉ d.fullValue := by
  refine ⟨fun same => same ▸ d.frontPlain, fun plain => ?_⟩
  have whole : d.fullValue.takeWhile (· != slash) = d.fullValue :=
    List.takeWhile_eq_self_iff.mpr fun b mem => bne_iff_ne.mpr fun same => plain (same ▸ mem)
  rw [front, whole, fullValue, Bytes.trimAgain]

variable {m : VersionMacro} {d : Define}

theorem outcomeNumber {n : UInt32} :
    outcome m (some d) = .ok (some n) ↔ Numeral d.front n := by
  rw [← numeralIff, outcome, valueFront]
  cases readNumber? d.front <;> simp

theorem outcomeInvalid {value : Bytes} :
    outcome m (some d) = .error (.invalid m value) ↔
      value = d.front ∧ ∀ n, ¬Numeral d.front n := by
  rw [← numeralNone, outcome, valueFront]
  cases readNumber? d.front <;> simp [eq_comm]

end Define

theorem firstDefined {m : VersionMacro} {header : Bytes} {earlier later : List Line} {l : Line}
    {d : Define} (split : linesOf header = earlier ++ l :: later)
    (above : ¬blockOpener <:+: l.before)
    (first : ∀ k ∈ earlier, Define.ofMacro? m k.text = none)
    (defines : Define.ofMacro? m l.text = some d) : firstDefine? m header = some d := by
  have kept : ¬l.Skipped := by
    rintro ⟨front, rest, whole, -⟩
    exact above ⟨front, rest, whole.symm⟩
  have passed : (earlier.filter fun k => ¬k.Skipped).findSome?
      (fun k => Define.ofMacro? m k.text) = none :=
    List.findSome?_eq_none_iff.mpr fun k mem => first k (List.mem_filter.mp mem).1
  rw [firstDefine?, split, List.filter_append, List.findSome?_append, passed, Option.none_or,
    List.filter_cons_of_pos (by simpa using kept), List.findSome?_cons, defines]

/- The first define of a macro, with no comment open above it and a value that is no integer, is
rejected with its whole value exactly if the value has no slash in it. Any other is judged by what
stands before the first slash. -/
theorem nonNumberRejectedUnlessDivided (m : VersionMacro) (header : Bytes)
    (earlier later : List Line) (l : Line) (d : Define)
    (split : linesOf header = earlier ++ l :: later) (above : ¬blockOpener <:+: l.before)
    (first : ∀ k ∈ earlier, Define.ofMacro? m k.text = none)
    (defines : Define.ofMacro? m l.text = some d) (unlike : ∀ n, ¬Numeral d.fullValue n) :
    (Version.macroValue? m header = .error (.invalid m d.fullValue) ↔ slash ∉ d.fullValue) ∧
    (∀ n, Version.macroValue? m header = .ok (some n) ↔ Numeral d.front n) ∧
    ∀ value, Version.macroValue? m header = .error (.invalid m value) ↔
      value = d.front ∧ ∀ n, ¬Numeral d.front n := by
  rw [macroValueDefine, firstDefined split above first defines]
  refine ⟨?_, fun n => Define.outcomeNumber, fun value => Define.outcomeInvalid⟩
  rw [Define.outcomeInvalid, ← Define.frontWhole]
  constructor
  · rintro ⟨same, -⟩
    exact same.symm
  · intro same
    exact ⟨same.symm, fun n => same ▸ unlike n⟩

theorem sumRejected :
    let header := Bytes.ofAscii "#pragma once\n#define YR_MAJOR_VERSION 4 + 1 /* 5 */"
    (∀ n, ¬Numeral (Bytes.ofAscii "4 + 1") n) ∧
      Version.macroValue? .major header = .error (.invalid .major (Bytes.ofAscii "4 + 1")) := by
  intro header
  have unlike : ∀ n, ¬Numeral (Bytes.ofAscii "4 + 1") n := numeralNone.mp (by decide +kernel)
  have split : linesOf header = [⟨[], Bytes.ofAscii "#pragma once"⟩] ++
      ⟨Bytes.ofAscii "#pragma once\n",
        Bytes.ofAscii "#define YR_MAJOR_VERSION 4 + 1 /* 5 */"⟩ :: [] := by
    decide +kernel
  have defines : Define.ofMacro? .major (Bytes.ofAscii "#define YR_MAJOR_VERSION 4 + 1 /* 5 */") =
      some ⟨VersionMacro.major.bytes, Bytes.ofAscii " 4 + 1 /* 5 */"⟩ := by decide +kernel
  obtain ⟨rejected, -⟩ := nonNumberRejectedUnlessDivided .major header _ _ _ _ split
    (by decide +kernel) (List.forall_mem_singleton.mpr (by decide +kernel)) defines unlike
  exact ⟨unlike, rejected.mpr (by decide +kernel)⟩

theorem divisionAccepted :
    let header := Bytes.ofAscii "#define YR_MAJOR_VERSION 8/2\n#define YR_MINOR_VERSION 5\n"
    ¬ ∀ earlier l later d, linesOf header = earlier ++ l :: later → ¬blockOpener <:+: l.before →
      (∀ k ∈ earlier, Define.ofMacro? .major k.text = none) →
      Define.ofMacro? .major l.text = some d → (∀ n, ¬Numeral d.fullValue n) →
      Version.macroValue? .major header = .error (.invalid .major d.fullValue) := by
  intro header claim
  have unlike : ∀ n, ¬Numeral (Bytes.ofAscii "8/2") n := numeralNone.mp (by decide +kernel)
  have split : linesOf header = [] ++ ⟨[], Bytes.ofAscii "#define YR_MAJOR_VERSION 8/2"⟩ ::
      (linesOf header).tail := by decide +kernel
  have defines : Define.ofMacro? .major (Bytes.ofAscii "#define YR_MAJOR_VERSION 8/2") =
      some ⟨VersionMacro.major.bytes, Bytes.ofAscii " 8/2"⟩ := by decide +kernel
  have rejected := claim [] _ _ _ split (by decide) (List.forall_mem_nil _) defines unlike
  have found : lookup .major header = some (.number 8) := by decide +kernel
  rw [Version.macroValue?, found] at rejected
  cases rejected

end ScanEngine.Header
