import ScanEngine.Proofs.Custody.Order
import ScanEngine.Proofs.Custody.Sessions

/-! Whole sessions: how many tokens there are, in which order the engine is called, and what becomes
of everything that it hands out, whatever is done and whatever the engine and the streams answer. -/
namespace ScanEngine.Session

theorem advanceMoves (files : Files) (state : State) (act : Act) :
    Moves state.engine state.session.holdings (advance files state act).1.trace
      (advance files state act).2.engine (advance files state act).2.session.holdings :=
  stepLeads files state.session act.step act.script state.engine

theorem advanceAllMoves (files : Files) (state : State) (acts : List Act) :
    Moves state.engine state.session.holdings
      ((advanceAll files state acts).1.flatMap Entry.trace)
      (advanceAll files state acts).2.engine (advanceAll files state acts).2.session.holdings := by
  induction acts generalizing state with
  | nil => exact .stay _ _
  | cons act rest ih =>
    rw [advanceAll, List.flatMap_cons]
    exact movesAppend (advanceMoves files state act) (ih _)

theorem startMoves (files : Files) (acts : List Act) :
    Moves {} ⟨0, 0⟩ ((advanceAll files {} acts).1.flatMap Entry.trace)
      (advanceAll files {} acts).2.engine (advanceAll files {} acts).2.session.holdings := by
  have nothing : ({} : Session).holdings = ⟨0, 0⟩ :=
    (Holdings.gainAllNil _).trans (Holdings.gainAllNil _)
  have moves := advanceAllMoves files {} acts
  rwa [nothing] at moves

theorem wholeMoves (files : Files) (acts : List Act) (last : Script) :
    ∃ e, Moves {} ⟨0, 0⟩ (whole files acts last) e ⟨0, 0⟩ :=
  ⟨_, movesAppend (startMoves files acts) (closeLeads _ last _)⟩

theorem wholeLedger (files : Files) (acts : List Act) (last : Script) :
    ∃ e, Ledger (whole files acts last) e ⟨0, 0⟩ := by
  obtain ⟨e, moves⟩ := wholeMoves files acts last
  have ledger := Ledger.atStart.afterMoves moves
  rw [List.nil_append] at ledger
  exact ⟨e, ledger⟩

theorem wholeAllowed (files : Files) (acts : List Act) (last : Script) :
    Trace.AllowedAfter [] (whole files acts last) := by
  obtain ⟨e, moves⟩ := wholeMoves files acts last
  exact Ledger.atStart.allowedRun moves

theorem tokensMatchValues (files : Files) (acts : List Act) (last : Script) :
    let played := advanceAll files {} acts
    let s := played.2.session
    Trace.tokens (played.1.flatMap Entry.trace) =
        s.tokens.size + s.compilers.size + s.rulesets.size ∧
      (∀ before, before <+: whole files acts last → 0 ≤ Trace.tokens before) ∧
      Trace.tokens (whole files acts last) = 0 := by
  intro played s
  obtain ⟨_, closed⟩ := wholeLedger files acts last
  have tokens := (Ledger.atStart.afterMoves (startMoves files acts)).tokens
  rw [holdingsTokens] at tokens
  refine ⟨tokens, fun before front => ?_, closed.tokens⟩
  exact (Trace.allowedPrefix (wholeAllowed files acts last) front).1

theorem callsInOrder (files : Files) (acts : List Act) (last : Script) :
    (whole files acts last).Orderly ∧ (whole files acts last).destroyed.Nodup ∧
      (whole files acts last).Paired ∧
      ∀ before, before <+: whole files acts last → 0 ≤ Trace.spare before := by
  obtain ⟨e, moves⟩ := wholeMoves files acts last
  obtain ⟨_, closed⟩ := wholeLedger files acts last
  have allowed := wholeAllowed files acts last
  refine ⟨Trace.allowedOrderly allowed, closed.destroyedOnce, pairedRun moves, ?_⟩
  exact fun before front => (Trace.allowedPrefix allowed front).2

theorem destroyedOnceUnlessLost (files : Files) (acts : List Act) (last : Script) :
    let t := whole files acts last
    t.granted.Nodup ∧ (∀ x ∈ t.granted, t.destroyed.count x = if x ∈ t.lost then 0 else 1) ∧
      ((∀ x ∈ t.granted, t.destroyed.count x = 1) ↔ t.lost = []) := by
  intro t
  obtain ⟨_, closed⟩ := wholeLedger files acts last
  have once {x : Handle} (out : x ∈ t.granted) := closed.destroyedUnlessLost rfl out
  refine ⟨closed.distinct, fun x out => once out, ?_, ?_⟩
  · intro all
    refine List.eq_nil_iff_forall_not_mem.mpr fun x gone => ?_
    have out := t.lostSublist.subset gone
    have none := once out
    rw [if_pos gone, all x out] at none
    cases none
  · intro nothing x out
    rw [once out, nothing]
    rfl

/- The reader fails the only request of a load, and the engine hands out a ruleset all the same. -/
theorem faultyLoadLeaks :
    let loading : Step := .loadStream [.fault ⟨.other, none⟩] "r"
    let script : Script := { table := some [], reads := [⟨1, 1⟩] }
    let t := whole ⟨[]⟩ [⟨loading, script⟩] {}
    ¬ ∀ x ∈ t.granted, t.destroyed.count x = 1 := by
  decide +kernel

end ScanEngine.Session
