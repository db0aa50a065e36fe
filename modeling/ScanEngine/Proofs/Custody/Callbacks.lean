import ScanEngine.Proofs.Custody.Runs

/-! The diagnostics callback over whole sessions. Every move is bracketed, so every run is; and among
bracketed calls a callback is there for one addition and its removal, and for nothing else. -/
namespace ScanEngine

namespace Call
variable {c : Call}

theorem usePlain (use : c.isUse = true) : c.isPlain = true := by
  cases c <;> first | rfl | cases use

theorem createsPlain (creates : c.creates = true) : c.isPlain = true := by
  cases c <;> first | rfl | cases creates

theorem destroysPlain {a : Answer} {x : Handle} (gone : (Event.call c a).destroyed = some x) :
    c.isPlain = true := by
  cases c <;> first | rfl | cases gone

theorem additionPlain {n : Nat} (inside : c.isAdditionTo n = true) : c.isPlain = false := by
  cases c <;> first | rfl | cases inside

theorem additionTo {n m : Nat} (inside : c.isAdditionTo n = true) (other : c.isAdditionTo m = true) :
    n = m := by
  have same := (additionNamed inside).symm.trans (additionNamed other)
  cases same
  rfl

end Call

theorem callSilent {c : Call} {a : Answer} {t : Trace}
    (silent : ∀ event ∈ t, event.isCall = false) : Trace.calls (.call c a :: t) = [c] :=
  congrArg (c :: ·) (Trace.callsSilent silent)

section
variable {e next : Engine} {h after : Holdings} {t : Trace}

theorem offerBracketed {c : Call} {a : Answer} (creates : c.creates = true)
    (served : List Filling) : Bracketed (Trace.calls (.call c a :: served.map .filled)) := by
  rw [callSilent (Event.servedSilent served)]
  exact .plain (Call.createsPlain creates) .nil

theorem discardBracketed {c : Call} {a b : Answer} {x : Handle}
    (gone : (Event.call c a).destroyed = some x) (notes : List String) :
    Bracketed (Trace.calls (.call c a :: (notes.map (.log .warn) ++ [.call .tearDown b]))) := by
  have warned : Trace.calls (.call c a :: notes.map (.log .warn)) = [c] :=
    callSilent (Event.warningsSilent notes)
  rw [← List.cons_append, Trace.callsAppend, warned]
  exact .plain (Call.destroysPlain gone) (.plain rfl .nil)

theorem moveBracketed (move : Move e h t next after) : Bracketed t.calls := by
  cases move with
  | note note =>
    obtain ⟨silent, -⟩ := Event.noteSilent note
    rw [Trace.callsSilent (List.forall_mem_singleton.mpr silent)]
    exact .nil
  | setUp granted order => exact .plain rfl .nil
  | refused refused order => exact .plain rfl .nil
  | tearDown order => exact .plain rfl .nil
  | use plain held order => exact .plain (Call.usePlain plain) .nil
  | addition inside held order => exact .addition inside .nil
  | withheld creates held nothing order => exact offerBracketed creates _
  | gained creates held out order clean => exact offerBracketed creates _
  | lost creates held out order broken => exact offerBracketed creates _
  | discard gone order => exact discardBracketed gone _

theorem runBracketed (moves : Moves e h t next after) : Bracketed t.calls := by
  induction moves with
  | stay => exact .nil
  | more move _ ih =>
    rw [Trace.callsAppend]
    exact bracketedAppend (moveBracketed move) ih

end

inductive Stands : List Call → Call → List Call → Prop where
  | outside {before after : List Call} {c : Call} (above : Bracketed before)
      (plain : c.isPlain = true) : Stands before c after
  | installing {before rest : List Call} {n : Nat} {addition : Call} (above : Bracketed before)
      (inside : addition.isAdditionTo n = true) :
      Stands before (.setCallback n true true) (addition :: .setCallback n false false :: rest)
  | adding {front rest : List Call} {n : Nat} {addition : Call} (above : Bracketed front)
      (inside : addition.isAdditionTo n = true) :
      Stands (front ++ [.setCallback n true true]) addition (.setCallback n false false :: rest)
  | removing {front rest : List Call} {n : Nat} {addition : Call} (above : Bracketed front)
      (inside : addition.isAdditionTo n = true) :
      Stands (front ++ [.setCallback n true true, addition]) (.setCallback n false false) rest

theorem standsBelow {front before after : List Call} {c : Call} (first : Bracketed front)
    (stands : Stands before c after) : Stands (front ++ before) c after := by
  cases stands with
  | outside above plain => exact .outside (bracketedAppend first above) plain
  | installing above inside => exact .installing (bracketedAppend first above) inside
  | adding above inside =>
    rw [← List.append_assoc]
    exact .adding (bracketedAppend first above) inside
  | removing above inside =>
    rw [← List.append_assoc]
    exact .removing (bracketedAppend first above) inside

theorem bracketedAt {calls before after : List Call} {c : Call} (bracketed : Bracketed calls)
    (split : calls = before ++ c :: after) : Stands before c after := by
  induction bracketed generalizing before with
  | nil => simp at split
  | plain outside tail ih =>
    cases before with
    | nil =>
      cases split
      exact .outside .nil outside
    | cons first before =>
      cases split
      exact standsBelow (.plain outside .nil) (ih rfl)
  | addition inside tail ih =>
    -- The call is one of the three of this bracket, or stands behind it.
    match before with
    | [] =>
      cases split
      exact .installing .nil inside
    | [_] =>
      cases split
      exact .adding .nil inside
    | [_, _] =>
      cases split
      exact .removing .nil inside
    | _ :: _ :: _ :: before =>
      cases split
      exact standsBelow (.addition inside .nil) (ih rfl)

section
variable {calls front : List Call}

theorem callbackKept (n : Nat) (now : Bool) {c : Call} (plain : c.isPlain = true) :
    c.callbackAfter n now = now := by
  cases c <;> first | rfl | cases plain

theorem callbackAdded (n : Nat) (now : Bool) {c : Call} {m : Nat}
    (inside : c.isAdditionTo m = true) : c.callbackAfter n now = now := by
  cases c <;> first | rfl | cases inside

theorem bracketedInstalls (bracketed : Bracketed calls) (n : Nat) : installed n calls = false := by
  unfold installed
  induction bracketed with
  | nil => rfl
  | plain outside _ ih => rw [List.foldl_cons, callbackKept n false outside, ih]
  | @addition m c rest inside _ ih =>
    rw [List.foldl_cons, List.foldl_cons, List.foldl_cons, callbackAdded n _ inside]
    by_cases own : m = n <;> simp [Call.callbackAfter, own, ih]

theorem installedInside (above : Bracketed front) (n m : Nat) :
    installed n (front ++ [.setCallback m true true]) = true ↔ m = n := by
  have none := bracketedInstalls above n
  rw [installed] at none ⊢
  simp [List.foldl_append, none, Call.callbackAfter]

theorem installedAdded (above : Bracketed front) (n m : Nat) {addition : Call}
    (inside : addition.isAdditionTo m = true) :
    installed n (front ++ [.setCallback m true true, addition]) = true ↔ m = n := by
  rw [← installedInside above n m, installed, installed]
  simp [List.foldl_append, callbackAdded n _ inside]

end

theorem standsInstalled {before after : List Call} {c : Call} (stands : Stands before c after)
    (n : Nat) :
    installed n before = true ↔ c.isAdditionTo n = true ∨ c = .setCallback n false false := by
  cases stands with
  | outside above plain =>
    rw [bracketedInstalls above]
    cases c <;> simp [Call.isAdditionTo, Call.isPlain] at plain ⊢
  | installing above inside =>
    rw [bracketedInstalls above]
    simp [Call.isAdditionTo]
  | @adding front rest m addition above inside =>
    rw [installedInside above]
    constructor
    · rintro rfl
      exact .inl inside
    · rintro (own | rfl)
      · exact Call.additionTo inside own
      · cases inside
  | @removing front rest m addition above inside =>
    rw [installedAdded above n m inside]
    simp [Call.isAdditionTo]

namespace Session

/- The callback and its data are installed for one addition to the same compiler and removed right
after it, every addition is made under them, and otherwise, between operations and for every other
call, no compiler has a callback. -/
theorem callbackOnlyForAdditions (files : Files) (acts : List Act) (last : Script) :
    let calls := (whole files acts last).calls
    (∀ before n callback userData after,
      calls = before ++ .setCallback n callback userData :: after →
        (callback = true ∧ userData = true ∧ ∃ addition rest, addition.isAdditionTo n = true ∧
          after = addition :: .setCallback n false false :: rest) ∨
        (callback = false ∧ userData = false ∧ ∃ front addition, addition.isAdditionTo n = true ∧
          before = front ++ [.setCallback n true true, addition])) ∧
    (∀ before n addition after, calls = before ++ addition :: after →
      addition.isAdditionTo n = true → ∃ front rest,
        before = front ++ [.setCallback n true true] ∧
          after = .setCallback n false false :: rest) ∧
    (∀ before c after, calls = before ++ c :: after → ∀ n,
      (installed n before = true ↔ c.isAdditionTo n = true ∨ c = .setCallback n false false)) ∧
    ∀ n, installed n (Trace.calls ((advanceAll files {} acts).1.flatMap Entry.trace)) = false ∧
      installed n calls = false := by
  intro calls
  obtain ⟨_, moves⟩ := wholeMoves files acts last
  have bracketed : Bracketed calls := runBracketed moves
  refine ⟨?_, ?_, fun before c after split => standsInstalled (bracketedAt bracketed split), ?_⟩
  · intro before n callback userData after split
    cases bracketedAt bracketed split with
    | outside above plain => cases plain
    | installing above inside => exact .inl ⟨rfl, rfl, _, _, inside, rfl⟩
    | adding above inside => cases inside
    | removing above inside => exact .inr ⟨rfl, rfl, _, _, inside, rfl⟩
  · intro before n addition after split own
    cases bracketedAt bracketed split with
    | outside above plain =>
      rw [Call.additionPlain own] at plain
      cases plain
    | installing above inside => cases own
    | adding above inside =>
      cases Call.additionTo inside own
      exact ⟨_, _, rfl, rfl⟩
    | removing above inside => cases own
  · intro n
    exact ⟨bracketedInstalls (runBracketed (startMoves files acts)) n, bracketedInstalls bracketed n⟩

example :
    let failing : Routine → Statuses
      | .addText => (-1 : Int32)
      | _ => (0 : Int32)
    let acts : List Act :=
      [⟨.compiler "c", {}⟩, ⟨.addText "c" [0x61] none, { status := failing }⟩]
    (whole ⟨[]⟩ acts {}).calls =
      [.setUp, .createCompiler, .setCallback 0 true true, .addText 0 [0x61] none,
        .setCallback 0 false false, .destroyCompiler 0, .tearDown] := by
  decide +kernel

end Session
end ScanEngine
