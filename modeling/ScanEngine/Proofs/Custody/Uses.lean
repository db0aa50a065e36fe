import ScanEngine.Proofs.Custody.Operations

/-! Operations that leave all holdings as they are: additions and definitions on a compiler, saves and
scans of a ruleset, copies into plain buffers, and the engine's settings. What they name is held. -/
namespace ScanEngine
open Operation
variable {h : Holdings}

theorem leadsScript : script.Leads h fun _ => h := fun _ e => .stay e h

namespace Compiler
variable {c : Compiler}

theorem collectingLeads {addition : Call} (inside : addition.isAdditionTo c.handle = true)
    (held : .compiler c.handle ∈ h.held) : (c.collecting addition).Leads h fun _ => h := by
  intro s e
  have notes : ∀ event ∈ ((s.reports.map Diagnostic.ofReport).filter Diagnostic.isWarning).map
      fun d => Event.log .warn d.display, event.isNote = true := by
    intro event mem
    obtain ⟨d, _, rfl⟩ := List.mem_map.mp mem
    rfl
  have bracket : Move e h [.call (.setCallback c.handle true true) ⟨0, none⟩,
      .call addition ⟨s.statusOf e.called addition, none⟩,
      .call (.setCallback c.handle false false) ⟨0, none⟩] e.called.called.called h :=
    .addition inside held ⟨rfl, rfl⟩
  have both := Moves.more bracket (leadsEmit notes s e.called.called.called)
  rw [collectingRun]
  exact both

theorem addTextLeads (held : .compiler c.handle ∈ h.held) (source : Bytes)
    (space : Option Bytes) : (c.addText source space).Leads h fun _ => h := by
  unfold addText
  cases cString source with
  | error z => exact leadsPure rfl
  | ok source =>
    cases cStringOrNull space with
    | error z => exact leadsPure rfl
    | ok space => exact collectingLeads (beq_self_eq_true _) held

theorem addFileLeads (held : .compiler c.handle ∈ h.held) (files : Files) (path : Bytes)
    (space : Option Bytes) : (c.addFile files path space).Leads h fun _ => h := by
  unfold addFile
  cases files.read path with
  | error fault => exact leadsPure rfl
  | ok content =>
    cases pathString path with
    | error z => exact leadsPure rfl
    | ok fileName =>
      cases cStringOrNull space with
      | error z => exact leadsPure rfl
      | ok space => exact collectingLeads (beq_self_eq_true _) held

theorem defineLeads (held : .compiler c.handle ∈ h.held) (identifier : Bytes)
    (value : External) : (c.define identifier value).Leads h fun _ => h := by
  unfold define
  cases cString identifier with
  | error z => exact leadsPure rfl
  | ok identifier =>
    cases externalValue value with
    | error z => exact leadsPure rfl
    | ok value =>
      exact leadsBind (leadsUse rfl (subjectHeld rfl held)) fun _ _ => leadsPure rfl

end Compiler

namespace Ruleset
variable {r : Ruleset}

theorem saveFileLeads (held : .ruleset r.handle ∈ h.held) (path : Bytes) :
    (r.saveFile path).Leads h fun _ => h := by
  unfold saveFile
  cases pathString path with
  | error z => exact leadsPure rfl
  | ok fileName =>
    exact leadsBind (leadsUse rfl (subjectHeld rfl held)) fun _ _ => leadsPure rfl

theorem serveWritesLeads (sink : ElementSink) : (serveWrites sink).Leads h fun _ => h := by
  intro s e
  refine leadsEmit ?_ s e
  intro event mem
  obtain ⟨d, _, rfl⟩ := List.mem_map.mp mem
  rfl

theorem finishLeads (sink : ElementSink) (flush : Reply Unit) :
    (finish sink flush).Leads h fun _ => h := by
  unfold finish
  cases sink.kept with
  | some f => exact leadsPure rfl
  | none =>
    refine leadsBind (leadsEmit (by simp [Event.isNote])) fun _ _ => ?_
    cases flush <;> exact leadsPure rfl

theorem saveStreamLeads (held : .ruleset r.handle ∈ h.held) (writer : Writer)
    (flush : Reply Unit) : (r.saveStream writer flush).Leads h fun _ => h := by
  refine leadsBind (leadsUse rfl (subjectHeld rfl held)) fun _ _ => ?_
  refine leadsBind (serveWritesLeads _) fun _ _ => leadsBind (finishLeads _ _) fun s e => ?_
  cases ((finish _ flush).run s e).value <;> exact leadsPure rfl

theorem deliverNotes (found : List Nat) (messages : List Message) :
    ∀ event ∈ (Scan.deliver found messages).1, event.isNote = true := by
  induction messages generalizing found with
  | nil => exact List.forall_mem_nil _
  | cons m rest ih => exact List.forall_mem_cons.mpr ⟨rfl, ih _⟩

theorem matchingLeads {c : Call} (plain : c.isUse = true) (subject : c.subject? = some (.ruleset r.handle))
    (held : .ruleset r.handle ∈ h.held) : (Scan.matching c).Leads h fun _ => h := by
  refine leadsBind (leadsUse plain (subjectHeld subject held)) fun _ _ => ?_
  refine leadsBind leadsScript fun _ _ => ?_
  exact leadsBind (leadsEmit (deliverNotes _ _)) fun _ _ => leadsPure rfl

theorem scanMemoryLeads (held : .ruleset r.handle ∈ h.held) (content : Bytes) (timeout : UInt16) :
    (r.scanMemory content timeout).Leads h fun _ => h := by
  refine leadsBind (matchingLeads rfl rfl held) fun s e => ?_
  cases ((Scan.matching _).run s e).value with
  | error err => exact leadsPure rfl
  | ok found => exact leadsBind (leadsLog _ _) fun _ _ => leadsPure rfl

theorem scanFileLeads (held : .ruleset r.handle ∈ h.held) (files : Files) (path : Bytes)
    (timeout : UInt16) : (r.scanFile files path timeout).Leads h fun _ => h := by
  unfold scanFile
  cases files.read path with
  | error fault => exact leadsPure rfl
  | ok content =>
    refine leadsBind (matchingLeads rfl rfl held) fun s e => ?_
    cases ((Scan.matching _).run s e).value with
    | error err => exact leadsPure rfl
    | ok found => exact leadsBind (leadsLog _ _) fun _ _ => leadsPure rfl

theorem copyLeads (table : Option Table) (buffer : Option Buffer.Slots) (n : Nat) :
    (Buffer.copy table buffer n).Leads h fun _ => h := by
  unfold Buffer.copy
  split
  · split
    · exact leadsPure rfl
    · dsimp only
      split
      · exact leadsBind (leadsLog _ _) fun _ _ => leadsPure rfl
      · exact leadsPure rfl
  · exact leadsPure rfl

end Ruleset

namespace Setting

theorem setLeads (setting : Setting) (value : Nat) :
    (callToSet setting value).Leads h fun _ => h :=
  fun _ _ => moveAlone (.use rfl (fun _ none => by cases none) ⟨rfl, rfl⟩)

theorem getLeads (setting : Setting) : (callToGet setting).Leads h fun _ => h :=
  fun _ _ => moveAlone (.use rfl (fun _ none => by cases none) ⟨rfl, rfl⟩)

theorem changeLeads (setting : Setting) (value : Nat) :
    (setting.change value).Leads h fun _ => h :=
  leadsBind (setLeads setting value) fun _ _ => leadsPure rfl

theorem readLeads (setting : Setting) : setting.read.Leads h fun _ => h :=
  leadsBind (getLeads setting) fun _ _ => leadsPure rfl

end Setting
end ScanEngine
