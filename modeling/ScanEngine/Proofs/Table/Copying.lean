import ScanEngine.Proofs.Table.Walk
import ScanEngine.Ruleset.Basic

/-! Copies of a walk into buffers. However many slots and rules there are, the first handles go into
the first slots, every other slot keeps what it held, and a full buffer pulls nothing more. -/
namespace ScanEngine

namespace Enumeration
variable {ρ σ : Type}

theorem countAll (rules : List ρ) : count rules = (rules.length, rules.length + 1) := by
  induction rules with
  | nil => rfl
  | cons rule rules ih => rw [count, ih, List.length_cons]

theorem enumerateFilled (convert : ρ → σ) (capacity : Nat) (slots : List σ) (rules : List ρ) :
    let room := min capacity slots.length
    let written := min rules.length room
    enumerate convert capacity slots rules =
      ⟨written, (rules.take written).map convert ++ slots.drop written,
        min room (rules.length + 1)⟩ := by
  induction capacity generalizing slots rules with
  | zero => simp [enumerate]
  | succ capacity ih =>
    cases slots with
    | nil => simp [enumerate]
    | cons slot slots =>
      have room : min (capacity + 1) (slots.length + 1) = min capacity slots.length + 1 :=
        Nat.succ_min_succ _ _
      cases rules with
      | nil => simp [enumerate, room]
      | cons rule rules =>
        simp only [enumerate, ih, List.length_cons, room, Nat.succ_min_succ, List.take_succ_cons,
          List.map_cons, List.cons_append, List.drop_succ_cons]

theorem writeFromFilled (convert : ρ → σ) (limit : Nat) (front back : List (Option σ))
    (inside : limit ≤ front.length + back.length) (rules : List ρ) :
    let room := limit - front.length
    let written := min rules.length room
    writeFrom convert limit front.length (front ++ back) rules =
      ⟨front.length + written,
        front ++ ((rules.take written).map (fun rule => some (convert rule)) ++ back.drop written),
        min room (rules.length + 1)⟩ := by
  induction rules generalizing front back with
  | nil =>
    have pulls : (if front.length < limit then 1 else 0) = min (limit - front.length) 1 := by
      split <;> omega
    simp [writeFrom, pulls]
  | cons rule rules ih =>
    rw [writeFrom]
    split
    · rename_i before
      cases back with
      | nil => exact absurd inside (Nat.not_le.mpr before)
      | cons slot back =>
        have put : (front ++ slot :: back).set front.length (some (convert rule)) =
            (front ++ [some (convert rule)]) ++ back := by
          rw [List.set_append_right _ _ (Nat.le_refl _), Nat.sub_self, List.set_cons_zero,
            List.append_assoc, List.singleton_append]
        have next : (front ++ [some (convert rule)]).length = front.length + 1 :=
          List.length_append
        have room : limit - front.length = limit - (front.length + 1) + 1 := by omega
        have more := ih (front ++ [some (convert rule)]) back
          (by rw [next]; rw [List.length_cons] at inside; omega)
        rw [next] at more
        simp only [put]
        rw [more]
        simp only [room, List.length_cons, Nat.succ_min_succ, List.take_succ_cons, List.map_cons,
          List.drop_succ_cons, List.append_assoc, List.cons_append, List.nil_append,
          Filled.mk.injEq, and_true]
        omega
    · have full : limit - front.length = 0 := by omega
      simp [full]

theorem enumerateFreshFilled (convert : ρ → σ) (capacity : Nat) (slots : List (Option σ))
    (rules : List ρ) :
    let room := min capacity slots.length
    let written := min rules.length room
    enumerateFresh convert capacity slots rules =
      ⟨written, (rules.take written).map (fun rule => some (convert rule)) ++ slots.drop written,
        min room (rules.length + 1)⟩ := by
  have inside : min capacity slots.length ≤ ([] : List (Option σ)).length + slots.length := by
    rw [List.length_nil, Nat.zero_add]
    exact Nat.min_le_right ..
  have filled := writeFromFilled convert (min capacity slots.length) [] slots inside rules
  simp only [List.length_nil, Nat.sub_zero, Nat.zero_add, List.nil_append] at filled
  exact filled

end Enumeration

namespace Ruleset.Buffer

theorem handlesFilled (t : Table) {slots : Slots} {n : Nat}
    (room : min n t.live.length ≤ slots.length) :
    let written := min n t.live.length
    Enumeration.enumerateFresh id written (slots.take written) t.handles =
      ⟨written, (List.range written).map some, written⟩ := by
  have length : (slots.take (min n t.live.length)).length = min n t.live.length :=
    List.length_take.trans (Nat.min_eq_left room)
  have within : min n t.live.length ≤ t.live.length := Nat.min_le_right ..
  simp only [Enumeration.enumerateFreshFilled, t.handlesLive, List.length_range, length,
    Nat.min_self, Nat.min_eq_right within, List.take_range, Nat.min_eq_left within,
    List.drop_take_self, List.append_nil, Nat.min_eq_left (Nat.le_succ_of_le within)]
  rfl

theorem copyRun (t : Table) {slots : Slots} {n : Nat}
    (room : min n t.live.length ≤ slots.length) (s : Script) (e : Engine) :
    let total := t.live.length
    let written := min n total
    (copy (some t) (some slots) n).run s e =
      ⟨(written, some ((List.range written).map some ++ slots.drop written)), e,
        if 0 < n ∧ n < total then [.log .trace s!"rule buffer of {n} slots truncated {total} rules"]
        else []⟩ := by
  by_cases none : n = 0
  · subst none
    simp [copy]
  · by_cases short : n < t.live.length
    · simp only [copy, if_neg none, t.countLive, if_pos (And.intro (Nat.pos_of_ne_zero none) short)]
      rw [if_pos short]
      simp only [Operation.runBind, Operation.runLog, Operation.runPure, handlesFilled t room,
        List.append_nil]
    · have idle : ¬(0 < n ∧ n < t.live.length) := fun due => short due.2
      simp only [copy, if_neg none, t.countLive, if_neg idle]
      rw [if_neg short]
      simp only [Operation.runPure, handlesFilled t room]

theorem copyNothing {table : Option Table} {buffer : Option Slots}
    (null : table = none ∨ buffer = none) (n : Nat) (s : Script) (e : Engine) :
    (copy table buffer n).run s e = ⟨(0, buffer), e, []⟩ := by
  rcases null with rfl | rfl
  · rfl
  · cases table <;> rfl

end Ruleset.Buffer

namespace Table
open Ruleset

/- Every walk over a table visits the longest front part without an end mark. Cursors hand out its
positions in order and nothing afterwards, and a table that has a rule at the same places among
those that they look at, all up to the first end mark, gives the same pulls. Counts are its length.
A copy by pointer, into a buffer with room for what it writes, and an enumeration of the same
capacity write its first positions into the first slots and nothing else. -/
theorem everyWalkAgrees (t : Table) :
    let k := t.live.length
    (t.live <+: t ∧ (∀ r ∈ t.live, r.flags.word &&& 4 = 0) ∧
      ∀ r, t[k]? = some r → r.flags.word &&& 4 ≠ 0) ∧
    (∀ n, t.pulls n t.first? = (List.range n).map (fun i => if i < k then some i else none) ∧
      (∀ p ∈ 0 :: t.looks n t.first?, p ≤ k) ∧
      ∀ u : Table, (∀ p ∈ 0 :: t.looks n t.first?, u.isRule p = t.isRule p) →
        u.pulls n u.first? = t.pulls n t.first?) ∧
    (t.handles = List.range k ∧ (∀ r : Ruleset, r.table = t → r.count = k) ∧
      Enumeration.count t.handles = (k, k + 1) ∧
      Buffer.count (some t) = k ∧ Buffer.count none = 0) ∧
    (∀ (n : Nat) (slots : Buffer.Slots) (s : Script) (e : Engine), min n k ≤ slots.length →
      let written := min n k
      let after := (List.range written).map some ++ slots.drop written
      (Buffer.copy (some t) (some slots) n).run s e =
        ⟨(written, some after), e,
          if 0 < n ∧ n < k then [.log .trace s!"rule buffer of {n} slots truncated {k} rules"]
          else []⟩ ∧
      ∀ out : Buffer.Slots, out.length = n →
        Enumeration.enumerate some n out t.handles =
          ⟨written, after.take written ++ out.drop written, min n (k + 1)⟩) ∧
    ∀ (table : Option Table) (buffer : Option Buffer.Slots) (n : Nat) (s : Script) (e : Engine),
      table = none ∨ buffer = none →
        (Buffer.copy table buffer n).run s e = ⟨(0, buffer), e, []⟩ := by
  refine ⟨⟨t.liveFront, fun r mem => ?_, fun r next => endMarked.mp (liveEnded next)⟩,
    fun n => ⟨?_, ?_, fun u alike => looksSuffice n alike⟩,
    ⟨t.handlesLive, fun r own => ?_, ?_, t.countLive, rfl⟩,
    fun n slots s e room => ⟨Buffer.copyRun t room s e, fun out length => ?_⟩,
    fun table buffer n s e null => Buffer.copyNothing null n s e⟩
  · exact Decidable.byContradiction fun marked =>
      Bool.false_ne_true ((liveUnmarked mem).symm.trans (endMarked.mpr marked))
  · rw [List.range_eq_range']
    exact pullsFrom n (Nat.zero_le _)
  · exact List.forall_mem_cons.mpr ⟨Nat.zero_le _, looksWithin n (Nat.zero_le _)⟩
  · rw [Ruleset.count, own, t.countLive]
  · rw [Enumeration.countAll, t.handlesLive, List.length_range]
  · have front : ((List.range (min n t.live.length)).map some ++
        slots.drop (min n t.live.length)).take (min n t.live.length) =
        (List.range (min n t.live.length)).map some :=
      List.take_left' (by rw [List.length_map, List.length_range])
    rw [Enumeration.enumerateFilled]
    simp only [t.handlesLive, List.length_range, length, Nat.min_self, Nat.min_comm t.live.length,
      List.take_range, Nat.min_eq_left (Nat.min_le_right n t.live.length), front]

example :
    let rule (flags : UInt32) : Rule := ⟨none, none, ⟨flags⟩, none, []⟩
    let t : Table := [rule 0, rule 3, rule 5, rule 0]
    t.pulls 4 t.first? = [some 0, some 1, none, none] := by decide

end Table
end ScanEngine
