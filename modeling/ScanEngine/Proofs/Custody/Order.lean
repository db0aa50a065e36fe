import ScanEngine.Proofs.Custody.Ledger

/-! Which events may come after a past: none that takes a token that is not there or is another's,
and no call on compilers or rulesets without a token or on something not alive. While the books are
right every move stays within this, and it destroys only where it tears down next. -/
namespace ScanEngine

namespace Event

def spare (event : Event) : Int :=
  event.tokens + event.destroyed.toList.length - event.granted.toList.length

theorem quietSpare {event : Event} (quiet : event.Quiet) : event.spare = 0 := by
  obtain ⟨tokens, granted, destroyed⟩ := quiet
  rw [spare, tokens, granted, destroyed]
  rfl

end Event

namespace Trace

theorem lostGrows (t u : Trace) : (lost t).length ≤ (lost (t ++ u)).length := by
  induction t with
  | nil => exact Nat.zero_le _
  | cons event rest ih =>
    have longer : ∀ next ∈ rest.takeWhile Event.isFilling,
        next ∈ (rest ++ u).takeWhile Event.isFilling := by
      intro next mem
      rw [List.takeWhile_append]
      split
      · exact List.mem_append_left _ ((List.takeWhile_subset _) mem)
      · exact mem
    rw [List.cons_append, lost, lost, List.length_append, List.length_append]
    refine Nat.add_le_add ?_ ih
    split
    · rename_i broken
      obtain ⟨next, mem, failed⟩ := List.any_eq_true.mp broken
      rw [if_pos (List.any_eq_true.mpr ⟨next, longer next mem, failed⟩)]
    · exact Nat.zero_le _

theorem spareKept (past : Trace) {t : Trace} (quiet : ∀ event ∈ t, event.Quiet) :
    past.spare ≤ (past ++ t).spare := by
  obtain ⟨nothing, out, gone⟩ := quietTrace quiet
  have lost := lostGrows past t
  rw [spare, spare, tokensAppend, grantedAppend, destroyedAppend, nothing, out, gone,
    List.append_nil, List.append_nil]
  omega

theorem spareGrows (past : Trace) (event : Event) :
    past.spare + event.spare ≤ (past ++ [event]).spare := by
  have lost := lostGrows past [event]
  have granted : (granted (past ++ [event])).length =
      (granted past).length + event.granted.toList.length := by
    rw [grantedAppend, grantedCons, List.length_append, List.length_append]
    rfl
  have destroyed : (destroyed (past ++ [event])).length =
      (destroyed past).length + event.destroyed.toList.length := by
    rw [destroyedAppend, destroyedCons, List.length_append, List.length_append]
    rfl
  rw [spare, spare, Event.spare, tokensAppend, tokens, tokens, granted, destroyed]
  omega

end Trace

namespace Event

structure Allowed (past : Trace) (event : Event) : Prop where
  solvent : 0 ≤ past.tokens + event.tokens
  spared : 0 ≤ past.spare + event.spare
  covered : ∀ c a, event = call c a → c.needsToken = true → 0 < past.tokens
  alive : ∀ c a x, event = call c a → c.subject? = some x → past.Alive x

theorem allowedStill {past : Trace} {event next : Event} (quiet : event.Quiet)
    (allowed : next.Allowed past) : next.Allowed (past ++ [event]) := by
  obtain ⟨tokens, granted, destroyed⟩ :=
    Trace.quietTrace (List.forall_mem_singleton.mpr quiet)
  have same : (past ++ [event]).tokens = past.tokens := by
    rw [Trace.tokensAppend, tokens, Int.add_zero]
  have grows := past.spareGrows event
  rw [quietSpare quiet, Int.add_zero] at grows
  refine ⟨?_, ?_, ?_, ?_⟩
  · rw [same]
    exact allowed.solvent
  · exact Int.le_trans allowed.spared (Int.add_le_add_right grows _)
  · rw [same]
    exact allowed.covered
  · intro c a x one subject
    rw [Trace.Alive, Trace.grantedAppend, Trace.destroyedAppend, granted, destroyed,
      List.append_nil, List.append_nil]
    exact allowed.alive c a x one subject

end Event

namespace Trace

def AllowedAfter (past : Trace) : Trace → Prop
  | [] => True
  | event :: rest => event.Allowed past ∧ AllowedAfter (past ++ [event]) rest

theorem allowedNext {past : Trace} {event : Event} (allowed : event.Allowed past) :
    0 ≤ (past ++ [event]).tokens ∧ 0 ≤ (past ++ [event]).spare := by
  refine ⟨?_, Int.le_trans allowed.spared (past.spareGrows event)⟩
  rw [tokensAppend, tokens, tokens, Int.add_zero]
  exact allowed.solvent

theorem allowedAppend {past t u : Trace} (first : AllowedAfter past t)
    (second : AllowedAfter (past ++ t) u) : AllowedAfter past (t ++ u) := by
  induction t generalizing past with
  | nil => rwa [List.append_nil] at second
  | cons event rest ih =>
    refine ⟨first.1, ih first.2 ?_⟩
    rwa [List.append_assoc]

theorem allowedQuiet {past t : Trace}
    (quiet : ∀ event ∈ t, event.Quiet ∧ event.Allowed past) : AllowedAfter past t := by
  induction t generalizing past with
  | nil => trivial
  | cons event rest ih =>
    obtain ⟨⟨still, allowed⟩, quiet⟩ := List.forall_mem_cons.mp quiet
    exact ⟨allowed, ih fun next mem => ⟨(quiet next mem).1, Event.allowedStill still (quiet next mem).2⟩⟩

theorem allowedAt {past t before after : Trace} {event : Event} (allowed : AllowedAfter past t)
    (split : t = before ++ event :: after) : event.Allowed (past ++ before) := by
  induction before generalizing past t with
  | nil =>
    subst split
    rw [List.append_nil]
    exact allowed.1
  | cons first before ih =>
    subst split
    have inner := ih allowed.2 rfl
    rwa [List.append_assoc] at inner

theorem allowedOrderly {t : Trace} (allowed : AllowedAfter [] t) : t.Orderly := by
  intro before c answer after split
  have at_ := allowedAt allowed split
  exact ⟨at_.covered c answer rfl, fun x => at_.alive c answer x rfl⟩

theorem allowedPrefix {t before : Trace} (allowed : AllowedAfter [] t) (front : before <+: t) :
    0 ≤ before.tokens ∧ 0 ≤ before.spare := by
  obtain ⟨after, rfl⟩ := front
  rcases List.eq_nil_or_concat before with rfl | ⟨start, event, rfl⟩
  · exact ⟨Int.le_refl 0, Int.le_refl 0⟩
  · rw [List.concat_eq_append, List.append_assoc] at allowed
    rw [List.concat_eq_append]
    exact allowedNext (allowedAt allowed rfl)

end Trace

namespace Call

theorem useNamed {c : Call} (plain : c.isUse = true) (needs : c.needsToken = true) :
    ∃ x, c.subject? = some x := by
  cases c <;> first | exact ⟨_, rfl⟩ | simp [isUse, needsToken] at plain needs

theorem additionNamed {c : Call} {n : Nat} (inside : c.isAdditionTo n = true) :
    c.subject? = some (.compiler n) := by
  cases c with
  | addText m _ _ => exact congrArg (some ∘ Handle.compiler) (beq_iff_eq.mp inside)
  | addFile m _ _ _ => exact congrArg (some ∘ Handle.compiler) (beq_iff_eq.mp inside)
  | _ => cases inside

end Call

section
variable {past t : Trace} {e next : Engine} {h after : Holdings}

theorem Ledger.tokensNonneg (ledger : Ledger past e h) : 0 ≤ past.tokens := by
  rw [ledger.tokens]
  exact Int.natCast_nonneg _

theorem Ledger.spareBare (ledger : Ledger past e h) : past.spare = h.bare := by
  have objects := congrArg Multiset.card ledger.objects
  rw [Multiset.card_add, Multiset.card_add, Multiset.coe_card, Multiset.coe_card,
    Multiset.coe_card] at objects
  rw [Trace.spare, ledger.tokens, Holdings.tokens]
  omega

theorem Ledger.allowedCall (ledger : Ledger past e h) {c : Call} {a : Answer}
    (tokens : 0 ≤ h.tokens + (Event.call c a).tokens)
    (spared : 0 ≤ h.bare + (Event.call c a).spare)
    (covered : c.needsToken = true → 0 < h.tokens)
    (held : ∀ x, c.subject? = some x → x ∈ h.held) : (Event.call c a).Allowed past := by
  refine ⟨?_, ?_, ?_, ?_⟩
  · rw [ledger.tokens]
    exact tokens
  · rw [ledger.spareBare]
    exact spared
  · intro c' a' same needs
    cases same
    rw [ledger.tokens]
    exact Int.natCast_pos.mpr (covered needs)
  · intro c' a' x same subject
    cases same
    exact ledger.heldAlive (held x subject)

theorem allowedSilent (solvent : 0 ≤ past.tokens) (spared : 0 ≤ past.spare)
    (silent : ∀ event ∈ t, event.isCall = false) : Trace.AllowedAfter past t := by
  refine Trace.allowedQuiet fun event mem => ?_
  have quiet := Event.silentQuiet (silent event mem)
  refine ⟨quiet, ?_, ?_, ?_, ?_⟩
  · rw [quiet.1, Int.add_zero]
    exact solvent
  · rw [Event.quietSpare quiet, Int.add_zero]
    exact spared
  · rintro c a rfl
    cases silent _ mem
  · rintro c a x rfl
    cases silent _ mem

theorem Ledger.allowedUse (ledger : Ledger past e h) {c : Call} (a : Answer)
    (quiet : (Event.call c a).Quiet) (named : c.needsToken = true → ∃ x, c.subject? = some x)
    (held : ∀ x, c.subject? = some x → x ∈ h.held) : (Event.call c a).Allowed past := by
  refine ledger.allowedCall ?_ ?_ ?_ held
  · rw [quiet.1, Int.add_zero]
    exact Int.natCast_nonneg _
  · rw [Event.quietSpare quiet, Int.add_zero]
    exact Int.natCast_nonneg _
  · intro needs
    obtain ⟨x, subject⟩ := named needs
    exact Holdings.heldTokens (held x subject)

theorem Ledger.allowedAddition (ledger : Ledger past e h) {n : Nat}
    (held : .compiler n ∈ h.held) {c : Call} {a : Answer} (quiet : (Event.call c a).Quiet)
    (subject : c.subject? = some (.compiler n)) : (Event.call c a).Allowed past :=
  ledger.allowedUse a quiet (fun _ => ⟨_, subject⟩) (subjectHeld subject held)

theorem Ledger.allowedOffer (ledger : Ledger past e h.addToken) {c : Call} (a : Answer)
    (creates : c.creates = true) (held : ∀ x, c.subject? = some x → x ∈ h.held)
    (served : List Filling) :
    Trace.AllowedAfter past (.call c a :: served.map .filled) := by
  obtain ⟨nothing, gone⟩ := Event.createsOnly creates a
  have atMostOne : -1 ≤ (Event.call c a).spare := by
    rw [Event.spare, nothing, gone]
    cases (Event.call c a).granted <;> simp
  have first : (Event.call c a).Allowed past := by
    refine ledger.allowedCall ?_ ?_ ?_ held
    · rw [nothing, Int.add_zero]
      exact Int.natCast_nonneg _
    · simp only [Holdings.addToken]
      omega
    · intro _
      rw [Holdings.addTokenTokens]
      exact Nat.succ_pos _
  obtain ⟨solvent, spared⟩ := Trace.allowedNext first
  exact ⟨first, allowedSilent solvent spared (Event.servedSilent served)⟩

theorem Ledger.allowedDiscard {x : Handle} (ledger : Ledger past e (h.gain x)) {c : Call}
    {a : Answer} (b : Answer) (gone : (Event.call c a).destroyed = some x) (notes : List String) :
    Trace.AllowedAfter past (.call c a :: (notes.map (.log .warn) ++ [.call .tearDown b])) := by
  obtain ⟨nothing, out, subject, -⟩ := Event.destroysOnly gone
  have silent := Event.warningsSilent notes
  have freed : (Event.call c a).spare = 1 := by
    rw [Event.spare, nothing, gone, out]
    rfl
  have one : (1 : Int) ≤ past.tokens := by
    rw [ledger.tokens]
    exact Int.natCast_pos.mpr (Holdings.heldTokens (h.gainMem x))
  have first : (Event.call c a).Allowed past := by
    refine ledger.allowedCall ?_ ?_ (fun _ => Holdings.heldTokens (h.gainMem x))
      (subjectHeld subject (h.gainMem x))
    · rw [nothing, Int.add_zero]
      exact Int.natCast_nonneg _
    · rw [freed]
      exact Int.add_nonneg (Int.natCast_nonneg _) Int.one_nonneg
  have tokens : (past ++ [Event.call c a] ++ notes.map (Event.log .warn)).tokens = past.tokens := by
    rw [Trace.tokensAppend, Trace.tokensAppend, (Trace.silentTrace silent).1, Trace.tokens,
      Trace.tokens, nothing, Int.add_zero, Int.add_zero, Int.add_zero]
  -- The destruction frees a token, which is still to spare when the tear-down takes it.
  have spare : 1 ≤ (past ++ [Event.call c a] ++ notes.map (Event.log .warn)).spare := by
    have before := ledger.spareBare
    have after := past.spareGrows (.call c a)
    have last := (past ++ [Event.call c a]).spareKept fun event mem =>
      Event.silentQuiet (silent event mem)
    omega
  obtain ⟨solvent, spared⟩ := Trace.allowedNext first
  have last : (Event.call .tearDown b).Allowed
      (past ++ [Event.call c a] ++ notes.map (Event.log .warn)) := by
    refine ⟨?_, Int.sub_nonneg_of_le spare, ?_, ?_⟩
    · rw [tokens]
      exact Int.sub_nonneg_of_le one
    · rintro c a same needs
      cases same
      cases needs
    · rintro c a x same subject
      cases same
      cases subject
  exact ⟨first, Trace.allowedAppend (allowedSilent solvent spared silent) ⟨last, trivial⟩⟩

theorem Ledger.allowedBare (ledger : Ledger past e h) {c : Call} {a : Answer}
    (bare : c.needsToken = false ∧ c.subject? = none) (out : (Event.call c a).granted = none)
    (gone : (Event.call c a).destroyed = none) (enough : 0 ≤ h.bare + (Event.call c a).tokens) :
    (Event.call c a).Allowed past := by
  obtain ⟨needs, subject⟩ := bare
  have spare : (Event.call c a).spare = (Event.call c a).tokens := by
    rw [Event.spare, out, gone]
    exact (Int.sub_zero _).trans (Int.add_zero _)
  refine ledger.allowedCall ?_ (spare ▸ enough) ?_ ?_
  · rw [Holdings.tokens]
    omega
  · intro covered
    rw [needs] at covered
    cases covered
  · intro x same
    rw [subject] at same
    cases same

theorem Ledger.allowedMove (ledger : Ledger past e h) (move : Move e h t next after) :
    Trace.AllowedAfter past t := by
  cases move with
  | note note =>
    refine allowedSilent ledger.tokensNonneg ?_
      (List.forall_mem_singleton.mpr (Event.noteSilent note).1)
    rw [ledger.spareBare]
    exact Int.natCast_nonneg _
  | setUp granted order =>
    refine ⟨ledger.allowedBare ⟨rfl, rfl⟩ rfl rfl ?_, trivial⟩
    rw [Event.tokens, if_pos granted]
    omega
  | refused refused order =>
    refine ⟨ledger.allowedBare ⟨rfl, rfl⟩ rfl rfl ?_, trivial⟩
    rw [Event.tokens, if_neg refused]
    omega
  | tearDown order =>
    refine ⟨ledger.allowedBare ⟨rfl, rfl⟩ rfl rfl ?_, trivial⟩
    simp only [Holdings.addToken, Event.tokens]
    omega
  | use plain held order =>
    exact ⟨ledger.allowedUse _ (Event.useQuiet plain _) (Call.useNamed plain) held, trivial⟩
  | addition inside held order =>
    have allowed {c : Call} {a : Answer} := ledger.allowedAddition (c := c) (a := a) held
    refine Trace.allowedQuiet fun event mem => ⟨Event.bracketQuiet inside _ _ _ event mem, ?_⟩
    revert event
    simp only [List.forall_mem_cons, List.not_mem_nil, false_implies, implies_true, and_true]
    exact ⟨allowed ⟨rfl, rfl, rfl⟩ rfl,
      allowed (Event.additionQuiet inside _) (Call.additionNamed inside),
      allowed ⟨rfl, rfl, rfl⟩ rfl⟩
  | withheld creates held nothing order => exact ledger.allowedOffer _ creates held _
  | gained creates held out order clean => exact ledger.allowedOffer _ creates held _
  | lost creates held out order broken => exact ledger.allowedOffer _ creates held _
  | discard gone order => exact ledger.allowedDiscard _ gone _

theorem Ledger.allowedRun (ledger : Ledger past e h) (moves : Moves e h t next after) :
    Trace.AllowedAfter past t := by
  induction moves generalizing past with
  | stay => trivial
  | more move _ ih =>
    exact Trace.allowedAppend (ledger.allowedMove move) (ih (ledger.afterEffect (moveEffect move)))

end

namespace Trace

theorem pairedCons {event : Event} {t : Trace} (rest : t.Paired)
    (next : event.destroyed.isSome = true → t.calls.head? = some .tearDown) :
    Paired (event :: t) := by
  intro before other after split gone
  cases before with
  | nil =>
    cases split
    exact next gone
  | cons first before =>
    cases split
    exact rest before other after rfl gone

theorem pairedNone {t : Trace} (none : destroyed t = []) : t.Paired := by
  intro before event after split gone
  have mem : event ∈ t := split ▸ List.mem_append_right _ (.head _)
  rw [List.filterMap_eq_nil_iff.mp none event mem] at gone
  cases gone

theorem pairedAppend {t u : Trace} (first : t.Paired) (second : u.Paired) : (t ++ u).Paired := by
  induction t with
  | nil => exact second
  | cons event rest ih =>
    refine pairedCons (ih fun before other after split => ?_) fun gone => ?_
    · exact first (event :: before) other after (congrArg _ split)
    · refine (congrArg List.head? (callsAppend rest u)).trans ?_
      rw [List.head?_append, first [] event rest rfl gone]
      rfl

theorem callsSilent {t : Trace} (silent : ∀ event ∈ t, event.isCall = false) : t.calls = [] := by
  refine List.filterMap_eq_nil_iff.mpr fun event mem => ?_
  cases event with
  | call c a => cases silent _ mem
  | _ => rfl

end Trace

section
variable {e next : Engine} {h after : Holdings} {t : Trace}

theorem pairedOffer {c : Call} {a : Answer} (creates : c.creates = true)
    (served : List Filling) : Trace.Paired (.call c a :: served.map .filled) :=
  Trace.pairedNone ((List.filterMap_cons_none (Event.createsOnly creates a).2).trans
    (Trace.silentTrace (Event.servedSilent served)).2.2)

theorem pairedDiscard (c : Call) (a b : Answer) (notes : List String) :
    Trace.Paired (.call c a :: (notes.map (.log .warn) ++ [.call .tearDown b])) := by
  have silent := Event.warningsSilent notes
  have last : Trace.Paired (notes.map (.log .warn) ++ [.call .tearDown b]) :=
    Trace.pairedAppend (Trace.pairedNone (Trace.silentTrace silent).2.2) (Trace.pairedNone rfl)
  refine Trace.pairedCons last fun _ => ?_
  rw [Trace.callsAppend, Trace.callsSilent silent]
  rfl

theorem pairedMove (move : Move e h t next after) : t.Paired := by
  cases move with
  | note note =>
    obtain ⟨silent, -⟩ := Event.noteSilent note
    exact Trace.pairedNone (Trace.silentTrace (List.forall_mem_singleton.mpr silent)).2.2
  | setUp granted order => exact Trace.pairedNone rfl
  | refused refused order => exact Trace.pairedNone rfl
  | tearDown order => exact Trace.pairedNone rfl
  | use plain held order =>
    refine Trace.pairedNone (Trace.quietTrace (List.forall_mem_singleton.mpr ?_)).2.2
    exact Event.useQuiet plain _
  | addition inside held order =>
    exact Trace.pairedNone (Trace.quietTrace (Event.bracketQuiet inside _ _ _)).2.2
  | withheld creates held nothing order => exact pairedOffer creates _
  | gained creates held out order clean => exact pairedOffer creates _
  | lost creates held out order broken => exact pairedOffer creates _
  | discard gone order => exact pairedDiscard _ _ _ _

theorem pairedRun (moves : Moves e h t next after) : t.Paired := by
  induction moves with
  | stay => exact Trace.pairedNone rfl
  | more move _ ih => exact Trace.pairedAppend (pairedMove move) ih

end
end ScanEngine
