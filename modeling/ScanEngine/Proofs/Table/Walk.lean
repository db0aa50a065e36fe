import ScanEngine.Rule.Table

/-! Walks over a rule table. Whatever marks stand in it, a walk hands out the positions before the
first end mark, in order, and looks at no entry behind that mark. -/
namespace ScanEngine.Table

theorem endMarked {r : Rule} : r.isEnd = true ↔ r.flags.word &&& 4 ≠ 0 := by
  simp [Rule.isEnd, FlagWord.intersects, Rule.endFlag]

theorem liveFront (t : Table) : t.live <+: t := List.takeWhile_prefix _

theorem liveUnmarked {t : Table} {r : Rule} (mem : r ∈ t.live) : r.isEnd = false := by
  simpa using List.all_eq_true.mp List.all_takeWhile r mem

theorem liveEnded {t : Table} {r : Rule} (next : t[t.live.length]? = some r) : r.isEnd = true := by
  have split : t.live ++ t.dropWhile (fun r => !r.isEnd) = t := List.takeWhile_append_dropWhile
  have behind : (t.live ++ t.dropWhile fun r => !r.isEnd)[t.live.length]? = some r :=
    (congrArg (·[t.live.length]?) split).trans next
  rw [List.getElem?_append_right (Nat.le_refl _), Nat.sub_self, ← List.head?_eq_getElem?] at behind
  have first := List.head?_dropWhile_not (fun r : Rule => !r.isEnd) t
  simpa [behind] using first

theorem isRuleBefore {t : Table} {position : Nat} (before : position < t.live.length) :
    t.isRule position = true := by
  rw [isRule, List.prefix_iff_getElem?.mp t.liveFront position before]
  exact congrArg not (liveUnmarked (List.getElem_mem before))

theorem isRuleEnd (t : Table) : t.isRule t.live.length = false := by
  unfold isRule
  split
  · rename_i r found
    rw [liveEnded found]
    rfl
  · rfl

theorem atBefore {t : Table} {position : Nat} (before : position < t.live.length) :
    t.at? position = some position :=
  if_pos (isRuleBefore before)

theorem atEnd (t : Table) : t.at? t.live.length = none :=
  if_neg (by rw [t.isRuleEnd]; decide)

theorem walkFromLive {t : Table} {position : Nat} (within : position ≤ t.live.length) :
    t.walkFrom position = List.range' position (t.live.length - position) := by
  induction left : t.live.length - position generalizing position with
  | zero =>
    have last : position = t.live.length := by omega
    rw [walkFrom, last, atEnd]
    rfl
  | succ n ih =>
    have before : position < t.live.length := by omega
    rw [walkFrom, atBefore before, List.range'_succ]
    exact congrArg (position :: ·) (ih before (by omega))

theorem handlesLive (t : Table) : t.handles = List.range t.live.length := by
  rw [handles, walkFromLive (Nat.zero_le _), Nat.sub_zero, List.range_eq_range']

theorem countLive (t : Table) : t.count = t.live.length := by
  rw [count, handlesLive, List.length_range]

theorem pullsNone (t : Table) (n : Nat) : t.pulls n none = List.replicate n none := by
  induction n with
  | zero => rfl
  | succ n ih => rw [pulls, ih, List.replicate_succ]

theorem pullsFrom {t : Table} (n : Nat) {position : Nat} (within : position ≤ t.live.length) :
    t.pulls n (t.at? position) =
      (List.range' position n).map fun i => if i < t.live.length then some i else none := by
  induction n generalizing position with
  | zero => rfl
  | succ n ih =>
    rw [List.range'_succ, List.map_cons]
    rcases Nat.lt_or_eq_of_le within with before | last
    · rw [atBefore before, pulls, if_pos before, next?, ih before]
    · rw [last, atEnd, pulls, pullsNone, if_neg (Nat.lt_irrefl _)]
      refine congrArg (none :: ·) (List.eq_replicate_iff.mpr ⟨by simp, fun x mem => ?_⟩).symm
      obtain ⟨i, inside, rfl⟩ := List.mem_map.mp mem
      exact if_neg (Nat.not_lt.mpr (Nat.le_of_succ_le (List.mem_range'_1.mp inside).1))

def looks (t : Table) : Nat → Option Nat → List Nat
  | 0, _ => []
  | n + 1, none => looks t n none
  | n + 1, some position => (position + 1) :: looks t n (t.next? position)

theorem looksNone (t : Table) (n : Nat) : t.looks n none = [] := by
  induction n with
  | zero => rfl
  | succ n ih => exact ih

theorem looksWithin {t : Table} (n : Nat) {position : Nat} (within : position ≤ t.live.length) :
    ∀ p ∈ t.looks n (t.at? position), p ≤ t.live.length := by
  induction n generalizing position with
  | zero => exact List.forall_mem_nil _
  | succ n ih =>
    rcases Nat.lt_or_eq_of_le within with before | last
    · rw [atBefore before]
      exact List.forall_mem_cons.mpr ⟨before, ih before⟩
    · rw [last, atEnd, looksNone]
      exact List.forall_mem_nil _

theorem looksSuffice {t u : Table} (n : Nat) {position : Nat}
    (alike : ∀ p ∈ position :: t.looks n (t.at? position), u.isRule p = t.isRule p) :
    u.pulls n (u.at? position) = t.pulls n (t.at? position) := by
  have same : u.at? position = t.at? position := by
    rw [at?, at?, alike position List.mem_cons_self]
  induction n generalizing position with
  | zero => rfl
  | succ n ih =>
    rw [same]
    cases found : t.at? position with
    | none => rw [pullsNone, pullsNone]
    | some here =>
      obtain ⟨rfl, -⟩ := atBound found
      rw [found] at alike
      have later := (List.forall_mem_cons.mp alike).2
      refine congrArg (some here :: ·) (ih later ?_)
      rw [at?, at?, later _ List.mem_cons_self]

end ScanEngine.Table
