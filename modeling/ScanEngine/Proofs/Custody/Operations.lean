import ScanEngine.Compiler
import ScanEngine.Proofs.Custody.Moves
import ScanEngine.Proofs.Stream.Filling
import ScanEngine.Ruleset.Scan
import ScanEngine.Ruleset.Storage

/-! Where each operation on tokens, compilers and rulesets leads from holdings that cover it: what a
success yields is held afterwards with a token of its own, and a failure leaves the holdings as they
were. -/
namespace ScanEngine
open Operation

def Holdings.onOk {ε α : Type} (h : Holdings) (gained : α → Holdings) : Except ε α → Holdings
  | .ok value => gained value
  | .error _ => h

theorem onOkMapError {ε φ α : Type} (h : Holdings) (gained : α → Holdings) (f : ε → φ)
    (outcome : Except ε α) : h.onOk gained (outcome.mapError f) = h.onOk gained outcome := by
  cases outcome <;> rfl

namespace Token
variable {h : Holdings} {ε α : Type}

theorem acquireLeads : acquire.Leads h (h.onOk fun _ => h.addToken) := by
  intro s e
  by_cases granted : s.statusOf e .setUp = 0
  · have first : Move e h [.call .setUp ⟨0, none⟩] e.called h.addToken := .setUp rfl ⟨rfl, rfl⟩
    rw [acquireGranted granted]
    exact .more first (moveAlone (.note rfl))
  · obtain ⟨err, _, ran⟩ := acquireRefused granted
    rw [ran]
    exact moveAlone (.refused granted ⟨rfl, rfl⟩)

theorem releaseLeads (t : Token) : t.release.Leads h.addToken fun _ => h := by
  intro s e
  obtain ⟨severity, message, ran⟩ := t.releaseRun s e
  have first : Move e h.addToken [.call .tearDown ⟨s.statusOf e .tearDown, none⟩] e.called h :=
    .tearDown ⟨rfl, rfl⟩
  rw [ran]
  exact .more first (moveAlone (.note rfl))

theorem holdingLeads {refusal : EngineError → ε} {body : Token → Operation (Except ε α)}
    {gained : α → Holdings} (inner : ∀ t, (body t).Leads h.addToken (h.addToken.onOk gained)) :
    (holding refusal body).Leads h (h.onOk gained) := by
  refine leadsBind acquireLeads fun s e => ?_
  cases (acquire.run s e).value with
  | error err => exact leadsPure rfl
  | ok t =>
    refine leadsBind (inner t) fun s e => ?_
    cases ((body t).run s e).value with
    | ok value => exact leadsPure rfl
    | error f => exact leadsBind t.releaseLeads fun _ _ => leadsPure rfl

end Token

def Holdings.afterOffer (h : Holdings) : Option Handle → Holdings
  | some x => h.gain x
  | none => h.addToken

theorem offerMove {e next : Engine} {h : Holdings} {c : Call} {a : Answer}
    (creates : c.creates = true) (held : ∀ x, c.subject? = some x → x ∈ h.held)
    (order : e.Issues (Event.call c a).granted next) (served : List Filling) :
    Move e h.addToken (.call c a :: served.map .filled) next
      (if served.any Filling.failed then h.addToken
        else h.afterOffer (Event.call c a).granted) := by
  cases out : (Event.call c a).granted with
  | none =>
    rw [out] at order
    simp only [Holdings.afterOffer, ite_self]
    exact .withheld creates held out order
  | some x =>
    rw [out] at order
    split
    · exact .lost creates held out order ‹_›
    · exact .gained creates held out order (Bool.eq_false_iff.mpr ‹_›)

theorem discardMoves {e : Engine} {h : Holdings} {c : Call} {a b : Answer} {x : Handle}
    (gone : (Event.call c a).destroyed = some x) (notes : List String) (severity : Severity)
    (message : String) :
    Moves e (h.gain x)
      (.call c a :: (List.map (.log .warn) notes ++ [.call .tearDown b, .log severity message]))
      e.called.called h := by
  have first : Move e (h.gain x)
      (.call c a :: (List.map (.log .warn) notes ++ [.call .tearDown b])) e.called.called h :=
    .discard gone ⟨rfl, rfl⟩
  have last : Move e.called.called h [.log severity message] e.called.called h := .note rfl
  have both := Moves.more first (moveAlone last)
  rwa [List.cons_append, List.append_assoc] at both

namespace Compiler
variable {h : Holdings}

theorem offerOrder (s : Script) (e : Engine) :
    e.Issues (((callForCompiler .createCompiler).run s e).value.handedOut.map .compiler)
      ((callForCompiler .createCompiler).run s e).engine := by
  by_cases granted : s.statusOf e .createCompiler = 0 ∧ s.withholdsCompiler = false
  · simp only [callForCompiler, run, if_pos granted]
    exact ⟨rfl, rfl, rfl⟩
  · simp only [callForCompiler, run, if_neg granted]
    exact ⟨rfl, rfl⟩

theorem offerLeads : (callForCompiler .createCompiler).Leads h.addToken fun a =>
    h.afterOffer (a.handedOut.map .compiler) :=
  fun s e => moveAlone (offerMove rfl (fun _ none => by cases none) (offerOrder s e) [])

theorem ownedOffer (t : Token) (s : Script) (e : Engine) :
    h.addToken.onOk (fun c => h.gain (.compiler c.handle))
        (own t ((callForCompiler .createCompiler).run s e).value) =
      h.afterOffer (((callForCompiler .createCompiler).run s e).value.handedOut.map .compiler) := by
  by_cases granted : s.statusOf e .createCompiler = 0 ∧ s.withholdsCompiler = false
  · obtain ⟨status, kept⟩ := granted
    simp only [callForCompiler, run, own, status, kept]
    rfl
  · simp only [callForCompiler, run, if_neg granted, own]
    cases EngineError.check (s.statusOf e .createCompiler) <;> rfl

theorem createLeads : create.Leads h (h.onOk fun c => h.gain (.compiler c.handle)) :=
  Token.holdingLeads fun t => leadsBind offerLeads fun s e => leadsPure (ownedOffer t s e)

theorem destroyLeads (c : Compiler) : c.destroy.Leads (h.gain (.compiler c.handle)) fun _ => h := by
  intro s e
  obtain ⟨severity, message, ran⟩ := c.destroyRun s e
  rw [ran]
  exact discardMoves rfl [] severity message

end Compiler

namespace Ruleset
variable {h : Holdings}

theorem offerOrder (c : Call) (s : Script) (e : Engine) :
    e.Issues (((callForRules c).run s e).value.1.handedOut.map .ruleset)
      ((callForRules c).run s e).engine := by
  simp only [callForRules, run]
  cases (if s.statusOf e c = 0 then s.table else none) with
  | none => exact ⟨rfl, rfl⟩
  | some table => exact ⟨rfl, rfl, rfl⟩

theorem ownedOffer (t : Token) (c : Call) (s : Script) (e : Engine) :
    h.addToken.onOk (fun r => h.gain (.ruleset r.handle))
        (own t ((callForRules c).run s e).value) =
      h.afterOffer (((callForRules c).run s e).value.1.handedOut.map .ruleset) := by
  simp only [callForRules, run, own]
  by_cases success : s.statusOf e c = 0
  · rw [success, if_pos rfl]
    cases s.table <;> rfl
  · rw [if_neg success]
    cases EngineError.check (s.statusOf e c) <;> rfl

theorem offerLeads {c : Call} (creates : c.creates = true)
    (rules : ∀ a, (Event.call c a).granted = a.handedOut.map .ruleset)
    (held : ∀ x, c.subject? = some x → x ∈ h.held) :
    (callForRules c).Leads h.addToken fun out =>
      h.afterOffer (out.1.handedOut.map .ruleset) := by
  intro s e
  have move := offerMove creates held (rules _ ▸ offerOrder c s e) []
  rw [rules] at move
  exact moveAlone move

theorem streamLeads (reader : Reader) : (callForStream reader).Leads h.addToken fun out =>
    if out.2.kept.isSome then h.addToken
    else h.afterOffer (out.1.1.handedOut.map .ruleset) := by
  intro s e
  have kept := ElementSource.serveIntoKept (.ofReader reader)
    (s.reads.map fun q => (q, ElementSource.freshBuffer q))
  have move := offerMove (h := h) (c := .loadStream true false) rfl (fun _ none => by cases none)
    (offerOrder (.loadStream true false) s e)
    ((ElementSource.ofReader reader).serveAll s.reads).1
  rw [callForStreamRun]
  simp only [ElementSource.serveAll, kept] at move ⊢
  exact moveAlone move

theorem settledOffer (t : Token) (c : Call) (s : Script) (e : Engine) (source : ElementSource) :
    h.addToken.onOk (fun r => h.gain (.ruleset r.handle))
        (settle t (((callForRules c).run s e).value, source)) =
      if source.kept.isSome then h.addToken
      else h.afterOffer (((callForRules c).run s e).value.1.handedOut.map .ruleset) := by
  cases broken : source.kept with
  | some f => simp only [settle, broken]; rfl
  | none =>
    simp only [settle, broken, onOkMapError, ownedOffer]
    rfl

theorem notedLeads {ε : Type} {note : Ruleset → String} {outcome : Except ε Ruleset}
    {after : Except ε Ruleset → Holdings} (kept : after outcome = h) :
    (noted note outcome).Leads h after := by
  cases outcome with
  | ok r => exact leadsBind (leadsLog _ _) fun _ _ => leadsPure kept
  | error f =>
    have quiet : noted note (.error f) = pure (.error f) := rfl
    rw [quiet]
    exact leadsPure kept

theorem loadFileLeads (path : Bytes) :
    (loadFile path).Leads h (h.onOk fun r => h.gain (.ruleset r.handle)) := by
  refine Token.holdingLeads fun t => ?_
  cases pathString path with
  | error z => exact leadsPure rfl
  | ok fileName =>
    refine leadsBind (offerLeads rfl (fun _ => rfl) fun _ none => by cases none) fun s e => ?_
    exact notedLeads (by rw [onOkMapError, ownedOffer])

theorem loadStreamLeads (reader : Reader) :
    (loadStream reader).Leads h (h.onOk fun r => h.gain (.ruleset r.handle)) := by
  refine Token.holdingLeads fun t => leadsBind (streamLeads reader) fun s e => ?_
  refine notedLeads ?_
  rw [callForStreamRun]
  exact settledOffer t _ s e _

theorem destroyLeads (r : Ruleset) : r.destroy.Leads (h.gain (.ruleset r.handle)) fun _ => h := by
  intro s e
  obtain ⟨notes, severity, message, ran⟩ := r.destroyRun s e
  rw [ran]
  exact discardMoves rfl notes severity message

end Ruleset

namespace Compiler
variable {h : Holdings}

theorem takeLeads (c : Compiler) (held : .compiler c.handle ∈ h.held) (t : Token) :
    (c.take t).Leads h.addToken (h.addToken.onOk fun r => h.gain (.ruleset r.handle)) := by
  refine leadsBind (Ruleset.offerLeads rfl (fun _ => rfl) (subjectHeld rfl held)) fun s e => ?_
  exact Ruleset.notedLeads (Ruleset.ownedOffer t _ s e)

theorem compileLeads (c : Compiler) :
    c.compile.Leads (h.gain (.compiler c.handle))
      (h.onOk fun r => h.gain (.ruleset r.handle)) := by
  refine leadsBind (Token.holdingLeads (c.takeLeads (h.gainMem _))) fun s e => ?_
  cases ((Token.holding id c.take).run s e).value with
  | error err => exact leadsBind c.destroyLeads fun _ _ => leadsPure rfl
  | ok r =>
    have held := c.destroyLeads (h := h.gain (.ruleset r.handle))
    rw [Holdings.gainComm] at held
    exact leadsBind held fun _ _ => leadsPure rfl

end Compiler
end ScanEngine
