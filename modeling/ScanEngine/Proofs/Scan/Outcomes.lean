import ScanEngine.Ruleset.Scan

/-! What comes of a scan. The engine may send any messages: each is answered by going on, and a rule
is kept for each match that has one. The rules kept are the outcome only after status zero. -/
namespace ScanEngine
open Operation

namespace Scan

def matched (messages : List Message) : List Nat :=
  messages.filterMap fun m => if m.kind = 1 then m.rule else none

theorem messageAnswered (found : List Nat) (m : Message) :
    onMessage found m = (0, found ++ matched [m]) := by
  obtain ⟨kind, rule⟩ := m
  cases rule with
  | none => simp [onMessage, goOn, matched]
  | some rule =>
    by_cases matching : kind = 1
    · simp [onMessage, goOn, matched, ruleMatching, matching]
    · simp [onMessage, goOn, matched, ruleMatching, matching]

theorem matchedMore (m : Message) (rest : List Message) :
    matched (m :: rest) = matched [m] ++ matched rest :=
  List.filterMap_append (l := [m])

theorem allDelivered (found : List Nat) (messages : List Message) :
    deliver found messages =
      (List.replicate messages.length (.scanCallback 0), found ++ matched messages) := by
  induction messages generalizing found with
  | nil => simp [deliver, matched]
  | cons m rest ih =>
    simp only [deliver, messageAnswered, ih, List.length_cons, List.replicate_succ,
      List.append_assoc, ← matchedMore]

/- How a scan ends: with all that matched and a summary after status zero, and else with the error
of the status alone. -/
structure Concluded {ε : Type} (wrap : EngineError → ε) (scan : Call) (status : Int32)
    (messages : List Message) (ran : Outcome (Except ε (List Nat))) : Prop where
  found : status = 0 → ran.value = .ok (matched messages)
  failed : status ≠ 0 →
    ∃ err, EngineError.ofCode? status = some err ∧ ran.value = .error (wrap err)
  trace : ∃ summary, ran.trace = .call scan ⟨status, none⟩ ::
    (List.replicate messages.length (.scanCallback 0) ++
      if status = 0 then [.log .debug summary] else [])

def concluding {ε : Type} (wrap : EngineError → ε) (note : List Nat → String) (scan : Call) :
    Operation (Except ε (List Nat)) := do
  match ← matching scan with
  | .error e => return .error (wrap e)
  | .ok found =>
    log .debug (note found)
    return .ok found

theorem concludes {ε : Type} (wrap : EngineError → ε) (note : List Nat → String) (scan : Call)
    (s : Script) (e : Engine) :
    Concluded wrap scan (s.statusOf e scan) s.messages
      ((concluding wrap note scan).run s e) := by
  rw [concluding, runBind, matchingRun, allDelivered, EngineError.check]
  cases coded : EngineError.ofCode? (s.statusOf e scan) with
  | none =>
    have success := EngineError.ofCodeSuccess.mp coded
    refine ⟨fun _ => rfl, absurd success, note (matched s.messages), ?_⟩
    rw [if_pos success]
    rfl
  | some err =>
    have failure : s.statusOf e scan ≠ 0 := fun success => by
      simp [EngineError.ofCodeSuccess.mpr success] at coded
    refine ⟨fun success => absurd success failure, fun _ => ⟨err, coded, rfl⟩, "", ?_⟩
    rw [if_neg failure]
    rfl

theorem Concluded.agree {ε : Type} {wrap : EngineError → ε} {scan other : Call} {status : Int32}
    {messages : List Message} {plain : Outcome (Except EngineError (List Nat))}
    {wrapped : Outcome (Except ε (List Nat))} (first : Concluded id scan status messages plain)
    (second : Concluded wrap other status messages wrapped) :
    wrapped.value = plain.value.mapError wrap := by
  by_cases success : status = 0
  · rw [first.found success, second.found success]
    rfl
  · obtain ⟨err, coded, failed⟩ := first.failed success
    obtain ⟨err', coded', failed'⟩ := second.failed success
    rw [failed, failed', Option.some.inj (coded'.symm.trans coded)]
    rfl

end Scan

namespace Ruleset
variable {r : Ruleset}

theorem scanMemoryConcluding (content : Bytes) (timeout : UInt16) :
    r.scanMemory content timeout = Scan.concluding id
      (fun found => s!"{found.length} of {r.count} rules matched {content.length} bytes")
      (.scanMemory r.handle (r.options timeout) content) := rfl

theorem scanFileConcluding {files : Files} {path content : Bytes} (timeout : UInt16)
    (opened : files.read path = .ok content) :
    r.scanFile files path timeout = Scan.concluding .engine
      (fun found => s!"{found.length} of {r.count} rules matched {Text.lossy path}")
      (.scanFile r.handle (r.options timeout) content) := by
  rw [scanFile, opened]
  rfl

end Ruleset
end ScanEngine
