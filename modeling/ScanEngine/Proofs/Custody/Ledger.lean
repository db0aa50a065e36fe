import Mathlib.Algebra.Order.Group.Multiset
import Mathlib.Data.List.TakeWhile
import Mathlib.Data.Multiset.Count
import ScanEngine.Proofs.Custody.Moves

/-! The books kept over a trace: its tokens are those held, and what was handed out is, each thing
once, destroyed, lost, or held. Every move keeps them. -/
namespace ScanEngine

namespace Event

def Quiet (event : Event) : Prop :=
  event.tokens = 0 ∧ event.granted = none ∧ event.destroyed = none

def isCall : Event → Bool
  | call _ _ => true
  | _ => false

theorem silentQuiet {event : Event} (silent : event.isCall = false) : event.Quiet := by
  cases event <;> first | exact ⟨rfl, rfl, rfl⟩ | cases silent

theorem noteSilent {event : Event} (note : event.isNote = true) :
    event.isCall = false ∧ [event].takeWhile isFilling = [] := by
  cases event <;> first | exact ⟨rfl, rfl⟩ | cases note

theorem servedSilent (served : List Filling) :
    ∀ event ∈ served.map Event.filled, event.isCall = false := by
  simp only [List.forall_mem_map, isCall, implies_true]

theorem warningsSilent (notes : List String) :
    ∀ event ∈ notes.map (Event.log .warn), event.isCall = false := by
  simp only [List.forall_mem_map, isCall, implies_true]

theorem useQuiet {c : Call} (plain : c.isUse = true) (a : Answer) : (call c a).Quiet := by
  cases c <;> first | exact ⟨rfl, rfl, rfl⟩ | cases plain

theorem additionQuiet {c : Call} {n : Nat} (inside : c.isAdditionTo n = true) (a : Answer) :
    (call c a).Quiet := by
  cases c <;> first | exact ⟨rfl, rfl, rfl⟩ | cases inside

theorem bracketQuiet {c : Call} {n : Nat} (inside : c.isAdditionTo n = true) (a b d : Answer) :
    ∀ event ∈ [call (.setCallback n true true) a, call c b, call (.setCallback n false false) d],
      event.Quiet := by
  simp only [List.forall_mem_cons, List.not_mem_nil, false_implies, implies_true, and_true]
  exact ⟨⟨rfl, rfl, rfl⟩, additionQuiet inside b, rfl, rfl, rfl⟩

theorem createsOnly {c : Call} (creates : c.creates = true) (a : Answer) :
    (call c a).tokens = 0 ∧ (call c a).destroyed = none := by
  cases c <;> first | exact ⟨rfl, rfl⟩ | cases creates

theorem destroysOnly {c : Call} {a : Answer} {x : Handle} (gone : (call c a).destroyed = some x) :
    (call c a).tokens = 0 ∧ (call c a).granted = none ∧ c.subject? = some x ∧
      c.needsToken = true := by
  cases c <;> first | exact ⟨rfl, rfl, gone, rfl⟩ | cases gone

end Event

namespace Trace

theorem quietTrace {t : Trace} (quiet : ∀ event ∈ t, event.Quiet) :
    tokens t = 0 ∧ granted t = [] ∧ destroyed t = [] := by
  induction t with
  | nil => exact ⟨rfl, rfl, rfl⟩
  | cons event rest ih =>
    obtain ⟨⟨nothing, out, gone⟩, quiet⟩ := List.forall_mem_cons.mp quiet
    obtain ⟨tokens, granted, destroyed⟩ := ih quiet
    refine ⟨?_, ?_, ?_⟩
    · rw [Trace.tokens, nothing, tokens, Int.zero_add]
    · rw [grantedCons, out, granted, Option.toList_none, List.nil_append]
    · rw [destroyedCons, gone, destroyed, Option.toList_none, List.nil_append]

theorem silentTrace {t : Trace} (silent : ∀ event ∈ t, event.isCall = false) :
    tokens t = 0 ∧ granted t = [] ∧ destroyed t = [] :=
  quietTrace fun event mem => Event.silentQuiet (silent event mem)

theorem lostSublist (t : Trace) : (lost t).Sublist (granted t) := by
  induction t with
  | nil => exact .slnil
  | cons event rest ih =>
    rw [grantedCons, lost]
    split
    · exact .append_left ih _
    · exact ih.trans (List.sublist_append_right _ _)

theorem lostNone {t : Trace} (none : granted t = []) : lost t = [] :=
  List.sublist_nil.mp (none ▸ lostSublist t)

theorem lostAppend (t : Trace) {u : Trace} (apart : u.takeWhile Event.isFilling = []) :
    lost (t ++ u) = lost t ++ lost u := by
  induction t with
  | nil => rfl
  | cons event rest ih =>
    have same : (rest ++ u).takeWhile Event.isFilling = rest.takeWhile Event.isFilling := by
      rw [List.takeWhile_append, apart, List.append_nil]
      split
      · exact (List.takeWhile_prefix _).eq_of_length ‹_› |>.symm
      · rfl
    rw [List.cons_append, lost, lost, same, ih, List.append_assoc]

theorem lostServed {event : Event} (served : List Filling) :
    lost (event :: served.map .filled) =
      if served.any Filling.failed then event.granted.toList else [] := by
  have all : (served.map Event.filled).takeWhile Event.isFilling = served.map .filled :=
    List.takeWhile_eq_self_iff.mpr fun event mem => by
      obtain ⟨f, _, rfl⟩ := List.mem_map.mp mem
      rfl
  have none : lost (served.map .filled) = [] :=
    lostNone (silentTrace (Event.servedSilent served)).2.1
  rw [lost, all, none, List.append_nil, List.any_map]
  rfl

end Trace

def Engine.HasIssued (e : Engine) : Handle → Prop
  | .compiler n => n < e.compilers
  | .ruleset n => n < e.rulesets

theorem issuedStill {e next : Engine} {out : Option Handle} (order : e.Issues out next) {x : Handle}
    (issued : e.HasIssued x) : next.HasIssued x := by
  obtain - | (n | n) := out
  all_goals cases x <;> simp only [Engine.Issues, Engine.HasIssued] at order issued ⊢ <;> omega

theorem issuedNext {e next : Engine} {x : Handle} (order : e.Issues (some x) next) :
    ¬ e.HasIssued x ∧ next.HasIssued x := by
  cases x <;> simp only [Engine.Issues, Engine.HasIssued] at order ⊢ <;> omega

structure Effect (e : Engine) (h : Holdings) (t : Trace) (next : Engine) (after : Holdings) :
    Prop where
  tokens : t.tokens + h.tokens = after.tokens
  objects : (t.granted : Multiset Handle) + h.held = t.destroyed + (t.lost + after.held)
  order : ∃ out : Option Handle, t.granted = out.toList ∧ e.Issues out next
  apart : t.takeWhile Event.isFilling = []

section
variable {e next : Engine} {h after : Holdings} {t : Trace}

theorem quietEffect (quiet : ∀ event ∈ t, event.Quiet) (order : e.Issues none next)
    (apart : t.takeWhile Event.isFilling = []) : Effect e h t next h := by
  obtain ⟨tokens, granted, destroyed⟩ := Trace.quietTrace quiet
  have lost := Trace.lostNone granted
  refine ⟨?_, ?_, ⟨none, granted, order⟩, apart⟩
  · rw [tokens, Int.zero_add]
  · simp only [granted, destroyed, lost, Multiset.coe_nil, Multiset.zero_add]

theorem tokenEffect {c : Call} {a : Answer} (bare : (Event.call c a).granted = none ∧
      (Event.call c a).destroyed = none ∧ h.held = after.held)
    (tokens : (Event.call c a).tokens + h.tokens = after.tokens) (order : e.Issues none next) :
    Effect e h [.call c a] next after := by
  obtain ⟨out, gone, held⟩ := bare
  have granted : Trace.granted [.call c a] = [] := by
    rw [Trace.grantedCons, out]
    rfl
  have destroyed : Trace.destroyed [.call c a] = [] := by
    rw [Trace.destroyedCons, gone]
    rfl
  have lost := Trace.lostNone granted
  refine ⟨?_, ?_, ⟨none, granted, order⟩, rfl⟩
  · rw [Trace.tokens, Trace.tokens, Int.add_zero, tokens]
  · simp only [granted, destroyed, lost, held, Multiset.coe_nil, Multiset.zero_add]

theorem offerEffect {c : Call} {a : Answer} {x : Handle} {served : List Filling}
    (creates : c.creates = true) (out : (Event.call c a).granted = some x)
    (order : e.Issues (some x) next) (tokens : h.tokens = after.tokens)
    (held : x ::ₘ h.held =
      (if served.any Filling.failed then [x] else [] : List Handle) + after.held) :
    Effect e h (.call c a :: served.map .filled) next after := by
  obtain ⟨nothing, gone⟩ := Event.createsOnly creates a
  obtain ⟨quiet, granted, destroyed⟩ := Trace.silentTrace (Event.servedSilent served)
  have all : Trace.granted (.call c a :: served.map .filled) = [x] := by
    rw [Trace.grantedCons, out, granted]
    rfl
  have none : Trace.destroyed (.call c a :: served.map .filled) = [] := by
    rw [Trace.destroyedCons, gone, destroyed]
    rfl
  refine ⟨?_, ?_, ⟨some x, all, order⟩, rfl⟩
  · rw [Trace.tokens, nothing, quiet, tokens, Int.zero_add, Int.zero_add]
  · rw [all, none, Trace.lostServed, out, Multiset.coe_nil, Multiset.zero_add]
    exact (Multiset.singleton_add _ _).trans held

theorem discardEffect {c : Call} {a b : Answer} {x : Handle} {notes : List String}
    (gone : (Event.call c a).destroyed = some x) (order : e.Issues none next) :
    Effect e (h.gain x) (.call c a :: (notes.map (.log .warn) ++ [.call .tearDown b])) next h := by
  obtain ⟨nothing, out, -, -⟩ := Event.destroysOnly gone
  obtain ⟨quiet, granted, destroyed⟩ := Trace.silentTrace (Event.warningsSilent notes)
  have none : Trace.granted (.call c a :: (notes.map (.log .warn) ++ [.call .tearDown b])) = [] := by
    rw [Trace.grantedCons, Trace.grantedAppend, out, granted]
    rfl
  have one : Trace.destroyed (.call c a :: (notes.map (.log .warn) ++ [.call .tearDown b])) =
      [x] := by
    rw [Trace.destroyedCons, Trace.destroyedAppend, gone, destroyed]
    rfl
  have kept := Trace.lostNone none
  refine ⟨?_, ?_, ⟨.none, none, order⟩, rfl⟩
  · rw [Trace.tokens, Trace.tokensAppend, nothing, quiet, Holdings.gainTokens]
    simp only [Trace.tokens, Event.tokens]
    omega
  · rw [none, one, kept, Multiset.coe_nil, Multiset.zero_add, Multiset.zero_add]
    exact (Multiset.singleton_add _ _).symm

theorem moveEffect (move : Move e h t next after) : Effect e h t next after := by
  cases move with
  | note note =>
    obtain ⟨silent, apart⟩ := Event.noteSilent note
    exact quietEffect (List.forall_mem_singleton.mpr (Event.silentQuiet silent)) ⟨rfl, rfl⟩ apart
  | setUp granted order =>
    refine tokenEffect ⟨rfl, rfl, rfl⟩ ?_ order
    rw [Holdings.addTokenTokens, Event.tokens, if_pos granted]
    omega
  | refused refused order =>
    refine tokenEffect ⟨rfl, rfl, rfl⟩ ?_ order
    rw [Event.tokens, if_neg refused]
    omega
  | tearDown order =>
    refine tokenEffect ⟨rfl, rfl, rfl⟩ ?_ order
    rw [Holdings.addTokenTokens, Event.tokens]
    omega
  | use plain held order =>
    exact quietEffect (List.forall_mem_singleton.mpr (Event.useQuiet plain _)) order rfl
  | addition inside held order => exact quietEffect (Event.bracketQuiet inside _ _ _) order rfl
  | withheld creates held nothing order =>
    obtain ⟨tokens, gone⟩ := Event.createsOnly creates _
    refine quietEffect ?_ order rfl
    refine List.forall_mem_cons.mpr ⟨⟨tokens, nothing, gone⟩, fun event mem => ?_⟩
    exact Event.silentQuiet (Event.servedSilent _ event mem)
  | gained creates held out order clean =>
    refine offerEffect creates out order ?_ ?_
    · rw [Holdings.addTokenTokens, Holdings.gainTokens]
    · rw [clean]
      exact (Multiset.zero_add _).symm
  | lost creates held out order broken =>
    refine offerEffect creates out order rfl ?_
    rw [broken]
    exact (Multiset.singleton_add _ _).symm
  | discard gone order => exact discardEffect gone order

end

/- What has been handed out is destroyed, lost or held, each thing once. -/
structure Ledger (past : Trace) (e : Engine) (h : Holdings) : Prop where
  tokens : past.tokens = h.tokens
  objects : (past.granted : Multiset Handle) = past.destroyed + (past.lost + h.held)
  distinct : past.granted.Nodup
  issued : ∀ x ∈ past.granted, e.HasIssued x

namespace Ledger
variable {past t : Trace} {e next : Engine} {h after : Holdings}

theorem atStart : Ledger [] {} ⟨0, 0⟩ := ⟨rfl, rfl, .nil, fun _ none => absurd none List.not_mem_nil⟩

theorem afterEffect (ledger : Ledger past e h) (effect : Effect e h t next after) :
    Ledger (past ++ t) next after := by
  obtain ⟨out, granted, order⟩ := effect.order
  have fresh : ∀ x ∈ out.toList, ¬ e.HasIssued x ∧ next.HasIssued x := by
    intro x mem
    rw [Option.mem_toList.mp mem] at order
    exact issuedNext order
  refine ⟨?_, ?_, ?_, ?_⟩
  · rw [Trace.tokensAppend, ledger.tokens, Int.add_comm, effect.tokens]
  · rw [Trace.grantedAppend, Trace.destroyedAppend, Trace.lostAppend past effect.apart,
      ← Multiset.coe_add, ← Multiset.coe_add, ← Multiset.coe_add]
    calc (past.granted : Multiset Handle) + t.granted
        = past.destroyed + past.lost + (t.granted + h.held) := by
          rw [ledger.objects]
          ac_rfl
      _ = past.destroyed + t.destroyed + (past.lost + t.lost + after.held) := by
          rw [effect.objects]
          ac_rfl
  · rw [Trace.grantedAppend, granted, List.nodup_append']
    -- What is granted anew was not issued before, and all that was granted before was.
    refine ⟨ledger.distinct, ?_, ?_⟩
    · cases out <;> simp
    · intro x old new
      exact (fresh x new).1 (ledger.issued x old)
  · intro x mem
    rw [Trace.grantedAppend, granted] at mem
    rcases List.mem_append.mp mem with old | new
    · exact issuedStill order (ledger.issued x old)
    · exact (fresh x new).2

theorem afterMoves (ledger : Ledger past e h) (moves : Moves e h t next after) :
    Ledger (past ++ t) next after := by
  induction moves generalizing past with
  | stay => rwa [List.append_nil]
  | more move _ ih =>
    rw [← List.append_assoc]
    exact ih (ledger.afterEffect (moveEffect move))

theorem heldAlive (ledger : Ledger past e h) {x : Handle} (held : x ∈ h.held) : past.Alive x := by
  have out : x ∈ past.granted := by
    rw [← Multiset.mem_coe, ledger.objects]
    exact Multiset.mem_add.mpr (.inr (Multiset.mem_add.mpr (.inr held)))
  have counted := congrArg (Multiset.count x) ledger.objects
  have once := List.nodup_iff_count_le_one.mp ledger.distinct x
  have present := Multiset.one_le_count_iff_mem.mpr held
  rw [Multiset.count_add, Multiset.count_add, Multiset.coe_count, Multiset.coe_count] at counted
  refine ⟨out, fun gone => ?_⟩
  have destroyed := List.one_le_count_iff.mpr gone
  omega

theorem destroyedOnce (ledger : Ledger past e h) : past.destroyed.Nodup := by
  have once := Multiset.coe_nodup.mpr ledger.distinct
  rw [ledger.objects] at once
  exact Multiset.coe_nodup.mp (Multiset.nodup_of_le (Multiset.le_add_right _ _) once)

theorem destroyedUnlessLost (ledger : Ledger past e h) (nothing : h.held = 0) {x : Handle}
    (out : x ∈ past.granted) : past.destroyed.count x = if x ∈ past.lost then 0 else 1 := by
  have counted := congrArg (Multiset.count x) ledger.objects
  rw [nothing, Multiset.add_zero, Multiset.count_add, Multiset.coe_count, Multiset.coe_count,
    Multiset.coe_count, List.count_eq_one_of_mem ledger.distinct out] at counted
  by_cases lost : x ∈ past.lost
  · have kept := List.one_le_count_iff.mpr lost
    rw [if_pos lost]
    omega
  · rw [if_neg lost]
    rw [List.count_eq_zero_of_not_mem lost] at counted
    exact counted.symm

end Ledger
end ScanEngine
