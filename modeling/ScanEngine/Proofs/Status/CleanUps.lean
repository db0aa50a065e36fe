import ScanEngine.Compiler
import ScanEngine.Ruleset.Scan
import ScanEngine.Ruleset.Storage
import ScanEngine.Trace.Bracket
import ScanEngine.Trace.Status

/-! Statuses of clean-up calls. An operation is tidy if it warns of every clean-up call that failed,
once, and of nothing else but diagnostics, and if its value and the engine do not depend on what
clean-up calls report. Every operation is tidy. -/
namespace ScanEngine
open Operation

section
variable {s : Script} {e : Engine} {c : Call} {a b : Statuses}

theorem statusKept (main : c.cleansUp = false) :
    (s.withCleanUps a b).statusOf e c = s.statusOf e c := by
  cases c with
  | tearDown => cases main
  | destroyRules n => cases main
  | define n identifier value => cases value <;> rfl
  | setConfig setting value => cases setting <;> rfl
  | getConfig setting => cases setting <;> rfl
  | _ => rfl

end

def Event.Mute (event : Event) : Prop :=
  event.warning? = none ∧ ∀ s, event.warningsDue s = []

theorem muteWarnings {t : Trace} (mute : ∀ event ∈ t, event.Mute) (s : Script) :
    t.warnings = [] ∧ t.warningsDue s = [] :=
  ⟨List.filterMap_eq_nil_iff.mpr fun event mem => (mute event mem).1,
    List.flatMap_eq_nil_iff.mpr fun event mem => (mute event mem).2 s⟩

structure Operation.Tidy {α : Type} (m : Operation α) : Prop where
  warned : ∀ s e, (m.run s e).trace.warnings = (m.run s e).trace.warningsDue s
  indifferent : ∀ s e a b, (m.run (s.withCleanUps a b) e).value = (m.run s e).value ∧
    (m.run (s.withCleanUps a b) e).engine = (m.run s e).engine

section
variable {α β : Type}

theorem tidyBind {m : Operation α} {k : α → Operation β} (first : m.Tidy)
    (rest : ∀ v, (k v).Tidy) : (m >>= k).Tidy where
  warned s e := by
    rw [runBind]
    simp only [Trace.warningsAppend, Trace.warningsDueAppend]
    rw [first.warned, (rest _).warned]
  indifferent s e a b := by
    obtain ⟨value, engine⟩ := first.indifferent s e a b
    simp only [runBind, value, engine]
    exact (rest _).indifferent s _ a b

theorem tidyMute {m : Operation α} (same : ∀ s e a b, m.run (s.withCleanUps a b) e = m.run s e)
    (mute : ∀ s e, ∀ event ∈ (m.run s e).trace, event.Mute) : m.Tidy where
  warned s e := by
    obtain ⟨warned, due⟩ := muteWarnings (mute s e) s
    rw [warned, due]
  indifferent s e a b := by
    rw [same]
    exact ⟨rfl, rfl⟩

theorem tidyPure (v : α) : (pure v : Operation α).Tidy :=
  tidyMute (fun _ _ _ _ => rfl) fun _ _ => List.forall_mem_nil _

theorem tidyEmit {events : List Event} (mute : ∀ event ∈ events, event.Mute) :
    (emit events).Tidy :=
  tidyMute (fun _ _ _ _ => rfl) fun _ _ => mute

theorem tidyLog {severity : Severity} (message : String) (low : severity ≠ .warn) :
    (log severity message).Tidy := by
  refine tidyEmit (List.forall_mem_singleton.mpr ⟨?_, fun _ => rfl⟩)
  cases severity with
  | warn => exact absurd rfl low
  | _ => rfl

end

section
variable {c : Call}

theorem tidyCall (main : c.cleansUp = false) (mute : ∀ a, (Event.call c a).Mute) :
    (call c).Tidy := by
  refine tidyMute (fun s e a b => ?_) fun s e => List.forall_mem_singleton.mpr (mute _)
  rw [runCall, runCall, statusKept main]

theorem tidyCallForCompiler (main : c.cleansUp = false) (mute : ∀ a, (Event.call c a).Mute) :
    (callForCompiler c).Tidy := by
  refine tidyMute (fun s e a b => ?_) fun s e => List.forall_mem_singleton.mpr (mute _)
  simp only [callForCompiler, run, statusKept main]
  rfl

theorem tidyCallForRules (main : c.cleansUp = false) (mute : ∀ a, (Event.call c a).Mute) :
    (callForRules c).Tidy := by
  refine tidyMute (fun s e a b => ?_) fun s e => List.forall_mem_singleton.mpr (mute _)
  simp only [callForRules, run, statusKept main]
  rfl

end

theorem tidyServeReads (source : ElementSource) : (serveReads source).Tidy :=
  tidyMute (fun _ _ _ _ => rfl) fun _ _ => List.forall_mem_map.mpr fun _ _ => ⟨rfl, fun _ => rfl⟩

theorem tidyServeWrites (sink : ElementSink) : (serveWrites sink).Tidy :=
  tidyMute (fun _ _ _ _ => rfl) fun _ _ => List.forall_mem_map.mpr fun _ _ => ⟨rfl, fun _ => rfl⟩

namespace Token
variable {ε α : Type}

theorem acquireTidy : acquire.Tidy := by
  refine tidyBind (tidyCall rfl fun _ => ⟨rfl, fun _ => rfl⟩) fun status => ?_
  cases EngineError.check status with
  | error err => exact tidyPure _
  | ok _ => exact tidyBind (tidyLog _ (by decide)) fun _ => tidyPure _

theorem releaseTidy (t : Token) : t.release.Tidy where
  warned s e := by
    rw [release, runBind, runCall]
    cases coded : EngineError.ofCode? (s.statusOf e .tearDown) <;>
      simp only [EngineError.check, coded, runLog, Trace.warningsDue, List.cons_append,
        List.flatMap_cons, Event.warningsDue] <;> rfl
  indifferent s e a b := by
    obtain ⟨_, _, here⟩ := t.releaseRun s e
    obtain ⟨_, _, there⟩ := t.releaseRun (s.withCleanUps a b) e
    rw [here, there]
    exact ⟨rfl, rfl⟩

theorem holdingTidy {refusal : EngineError → ε} {body : Token → Operation (Except ε α)}
    (inner : ∀ t, (body t).Tidy) : (holding refusal body).Tidy := by
  refine tidyBind acquireTidy fun acquired => ?_
  cases acquired with
  | error err => exact tidyPure _
  | ok t =>
    refine tidyBind (inner t) fun outcome => ?_
    cases outcome with
    | ok v => exact tidyPure _
    | error f => exact tidyBind t.releaseTidy fun _ => tidyPure _

end Token

namespace Ruleset
variable {ε : Type}

theorem notedTidy (note : Ruleset → String) (outcome : Except ε Ruleset) :
    (noted note outcome).Tidy := by
  cases outcome with
  | ok r => exact tidyBind (tidyLog _ (by decide)) fun _ => tidyPure _
  | error f => exact tidyPure (Except.error f)

theorem destroyTidy (r : Ruleset) : r.destroy.Tidy where
  warned s e := by
    have released := r.token.releaseTidy.warned s e.called
    rw [destroy, runBind, runCall]
    cases coded : EngineError.ofCode? (s.statusOf e (.destroyRules r.handle)) <;>
      simp only [EngineError.check, coded, runBind, runLog, Trace.warningsDue, List.cons_append,
        List.nil_append, List.flatMap_cons, Event.warningsDue] <;>
      simp only [Trace.warningsDue] at released
    · exact released
    · exact congrArg (_ :: ·) released
  indifferent s e a b := by
    obtain ⟨_, _, _, here⟩ := r.destroyRun s e
    obtain ⟨_, _, _, there⟩ := r.destroyRun (s.withCleanUps a b) e
    rw [here, there]
    exact ⟨rfl, rfl⟩

theorem loadFileTidy (path : Bytes) : (loadFile path).Tidy := by
  refine Token.holdingTidy fun t => ?_
  cases pathString path with
  | error z => exact tidyPure _
  | ok fileName =>
    exact tidyBind (tidyCallForRules rfl fun _ => ⟨rfl, fun _ => rfl⟩) fun _ => notedTidy _ _

theorem loadStreamTidy (reader : Reader) : (loadStream reader).Tidy := by
  refine Token.holdingTidy fun t => tidyBind ?_ fun _ => notedTidy _ _
  refine tidyBind (tidyCallForRules rfl fun _ => ⟨rfl, fun _ => rfl⟩) fun _ => ?_
  exact tidyBind (tidyServeReads _) fun _ => tidyPure _

theorem saveFileTidy (r : Ruleset) (path : Bytes) : (r.saveFile path).Tidy := by
  unfold saveFile
  cases pathString path with
  | error z => exact tidyPure _
  | ok fileName => exact tidyBind (tidyCall rfl fun _ => ⟨rfl, fun _ => rfl⟩) fun _ => tidyPure _

theorem finishTidy (sink : ElementSink) (flush : Reply Unit) : (finish sink flush).Tidy := by
  unfold finish
  cases sink.kept with
  | some f => exact tidyPure _
  | none =>
    refine tidyBind (tidyEmit (List.forall_mem_singleton.mpr ⟨rfl, fun _ => rfl⟩)) fun _ => ?_
    cases flush <;> exact tidyPure _

theorem saveStreamTidy (r : Ruleset) (writer : Writer) (flush : Reply Unit) :
    (r.saveStream writer flush).Tidy := by
  refine tidyBind (tidyCall rfl fun _ => ⟨rfl, fun _ => rfl⟩) fun _ => ?_
  refine tidyBind (tidyServeWrites _) fun _ => tidyBind (finishTidy _ _) fun outcome => ?_
  cases outcome <;> exact tidyPure _

theorem deliverMute (found : List Nat) (messages : List Message) :
    ∀ event ∈ (Scan.deliver found messages).1, event.Mute := by
  induction messages generalizing found with
  | nil => exact List.forall_mem_nil _
  | cons m rest ih => exact List.forall_mem_cons.mpr ⟨⟨rfl, fun _ => rfl⟩, ih _⟩

theorem matchingTidy {c : Call} (main : c.cleansUp = false)
    (mute : ∀ a, (Event.call c a).Mute) : (Scan.matching c).Tidy := by
  refine tidyMute (fun s e a b => ?_) fun s e => ?_
  · rw [Scan.matchingRun, Scan.matchingRun, statusKept main]
    rfl
  · rw [Scan.matchingRun]
    exact List.forall_mem_cons.mpr ⟨mute _, deliverMute _ _⟩

theorem scanMemoryTidy (r : Ruleset) (content : Bytes) (timeout : UInt16) :
    (r.scanMemory content timeout).Tidy := by
  refine tidyBind (matchingTidy rfl fun _ => ⟨rfl, fun _ => rfl⟩) fun outcome => ?_
  cases outcome with
  | error err => exact tidyPure _
  | ok found => exact tidyBind (tidyLog _ (by decide)) fun _ => tidyPure _

theorem scanFileTidy (r : Ruleset) (files : Files) (path : Bytes) (timeout : UInt16) :
    (r.scanFile files path timeout).Tidy := by
  unfold scanFile
  cases files.read path with
  | error fault => exact tidyPure _
  | ok content =>
    refine tidyBind (matchingTidy rfl fun _ => ⟨rfl, fun _ => rfl⟩) fun outcome => ?_
    cases outcome with
    | error err => exact tidyPure _
    | ok found => exact tidyBind (tidyLog _ (by decide)) fun _ => tidyPure _

theorem copyTidy (table : Option Table) (buffer : Option Buffer.Slots) (n : Nat) :
    (Buffer.copy table buffer n).Tidy := by
  unfold Buffer.copy
  split
  · split
    · exact tidyPure _
    · dsimp only
      split
      · exact tidyBind (tidyLog _ (by decide)) fun _ => tidyPure _
      · exact tidyPure _
  · exact tidyPure _

end Ruleset

namespace Compiler
variable {c : Compiler}

theorem createTidy : create.Tidy :=
  Token.holdingTidy fun _ =>
    tidyBind (tidyCallForCompiler rfl fun _ => ⟨rfl, fun _ => rfl⟩) fun _ => tidyPure _

theorem destroyTidy (c : Compiler) : c.destroy.Tidy :=
  tidyBind (tidyCall rfl fun _ => ⟨rfl, fun _ => rfl⟩) fun _ => c.token.releaseTidy

theorem collectingTidy {addition : Call} (inside : addition.isAdditionTo c.handle = true) :
    (c.collecting addition).Tidy where
  warned s e := by
    have due (a : Answer) : (Event.call addition a).warningsDue s =
        ((s.reports.map Diagnostic.ofReport).filter Diagnostic.isWarning).map
          Diagnostic.display := by
      cases addition with
      | addText n source space => rfl
      | addFile n content space fileName => rfl
      | _ => cases inside
    have logged (found : List Diagnostic) :
        Trace.warnings (found.map fun d => .log .warn d.display) =
          found.map Diagnostic.display := by
      rw [Trace.warnings, List.filterMap_map]
      exact congrFun (List.filterMap_eq_map (f := Diagnostic.display)) found
    have silent (found : List Diagnostic) :
        Trace.warningsDue s (found.map fun d => .log .warn d.display) = [] :=
      List.flatMap_eq_nil_iff.mpr (List.forall_mem_map.mpr fun _ _ => rfl)
    rw [collectingRun]
    change Trace.warnings (List.map _ _) = Event.warningsDue s (.call addition _) ++
      Trace.warningsDue s (List.map _ _)
    rw [logged, silent, due, List.append_nil]
  indifferent s e a b := by
    have main : addition.cleansUp = false := by
      cases addition with
      | addText n source space => rfl
      | addFile n content space fileName => rfl
      | _ => cases inside
    rw [collectingRun, collectingRun, statusKept main]
    exact ⟨rfl, rfl⟩

theorem addTextTidy (source : Bytes) (space : Option Bytes) : (c.addText source space).Tidy := by
  unfold addText
  cases cString source with
  | error z => exact tidyPure _
  | ok source =>
    cases cStringOrNull space with
    | error z => exact tidyPure _
    | ok space => exact collectingTidy (beq_self_eq_true _)

theorem addFileTidy (files : Files) (path : Bytes) (space : Option Bytes) :
    (c.addFile files path space).Tidy := by
  unfold addFile
  cases files.read path with
  | error fault => exact tidyPure _
  | ok content =>
    cases pathString path with
    | error z => exact tidyPure _
    | ok fileName =>
      cases cStringOrNull space with
      | error z => exact tidyPure _
      | ok space => exact collectingTidy (beq_self_eq_true _)

theorem defineTidy (identifier : Bytes) (value : External) : (c.define identifier value).Tidy := by
  unfold define
  cases cString identifier with
  | error z => exact tidyPure _
  | ok identifier =>
    cases externalValue value with
    | error z => exact tidyPure _
    | ok value => exact tidyBind (tidyCall rfl fun _ => ⟨rfl, fun _ => rfl⟩) fun _ => tidyPure _

theorem compileTidy (c : Compiler) : c.compile.Tidy := by
  have taken (t : Token) : (c.take t).Tidy :=
    tidyBind (tidyCallForRules rfl fun _ => ⟨rfl, fun _ => rfl⟩) fun _ => Ruleset.notedTidy _ _
  exact tidyBind (Token.holdingTidy taken) fun _ =>
    tidyBind c.destroyTidy fun _ => tidyPure _

end Compiler

namespace Setting

theorem changeTidy (setting : Setting) (value : Nat) : (setting.change value).Tidy := by
  refine tidyBind (tidyMute (fun s e a b => ?_) fun s e => ?_) fun _ => tidyPure _
  · simp only [callToSet, run, statusKept (c := .setConfig setting value) rfl]
  · exact List.forall_mem_singleton.mpr ⟨rfl, fun _ => rfl⟩

theorem readTidy (setting : Setting) : setting.read.Tidy := by
  refine tidyBind (tidyMute (fun s e a b => ?_) fun s e => ?_) fun _ => tidyPure _
  · simp only [callToGet, run, statusKept (c := .getConfig setting) rfl]
  · exact List.forall_mem_singleton.mpr ⟨rfl, fun _ => rfl⟩

end Setting
end ScanEngine
