import Mathlib.Data.Multiset.AddSub
import ScanEngine.Operation
import ScanEngine.Trace.Bracket
import ScanEngine.Trace.Custody

/-! Custody of the engine's objects, move by move. Holdings are what the values of a program hold;
a move is the least piece of a trace that custody sees as one, with the holdings before and after.
Whatever an operation does is a chain of moves, and what holds of every move holds of every run. -/
namespace ScanEngine

/- Tokens on their own, and handles that hold a token each. -/
structure Holdings where
  bare : Nat
  held : Multiset Handle

namespace Holdings

def tokens (h : Holdings) : Nat := h.bare + h.held.card

def addToken (h : Holdings) : Holdings := { h with bare := h.bare + 1 }

def gain (h : Holdings) (x : Handle) : Holdings := { h with held := x ::ₘ h.held }

theorem gainComm (h : Holdings) (x y : Handle) : (h.gain x).gain y = (h.gain y).gain x := by
  simp only [gain, Multiset.cons_swap]

theorem addTokenTokens (h : Holdings) : h.addToken.tokens = h.tokens + 1 := by
  simp only [tokens, addToken]
  omega

theorem gainTokens (h : Holdings) (x : Handle) : (h.gain x).tokens = h.tokens + 1 := by
  simp only [tokens, gain, Multiset.card_cons]
  omega

theorem gainMem (h : Holdings) (x : Handle) : x ∈ (h.gain x).held := Multiset.mem_cons_self x h.held

theorem heldTokens {h : Holdings} {x : Handle} (held : x ∈ h.held) : 0 < h.tokens :=
  Nat.lt_of_lt_of_le (Multiset.card_pos_iff_exists_mem.mpr ⟨x, held⟩) (Nat.le_add_left _ _)

end Holdings

def Engine.Issues (e : Engine) (out : Option Handle) (next : Engine) : Prop :=
  match out with
  | none => next.compilers = e.compilers ∧ next.rulesets = e.rulesets
  | some (.compiler n) =>
    n = e.compilers ∧ next.compilers = e.compilers + 1 ∧ next.rulesets = e.rulesets
  | some (.ruleset n) =>
    n = e.rulesets ∧ next.compilers = e.compilers ∧ next.rulesets = e.rulesets + 1

def Event.isNote : Event → Bool
  | call _ _ => false
  | filled _ => false
  | _ => true

namespace Call

def creates : Call → Bool
  | createCompiler | takeRules _ | loadRules _ | loadStream _ _ => true
  | _ => false

def isUse : Call → Bool
  | define _ _ _ | saveRules _ _ | saveStream _ _ _ | scanMemory _ _ _ | scanFile _ _ _ |
    setConfig _ _ | getConfig _ => true
  | _ => false

end Call

theorem subjectHeld {c : Call} {h : Holdings} {x : Handle} (subject : c.subject? = some x)
    (held : x ∈ h.held) : ∀ y, c.subject? = some y → y ∈ h.held := by
  intro y same
  cases Option.some.inj (subject.symm.trans same)
  exact held

inductive Move : Engine → Holdings → Trace → Engine → Holdings → Prop where
  | note {e : Engine} {h : Holdings} {event : Event} (note : event.isNote = true) :
      Move e h [event] e h
  | setUp {e next : Engine} {h : Holdings} {a : Answer} (granted : a.status = 0)
      (order : e.Issues none next) : Move e h [.call .setUp a] next h.addToken
  | refused {e next : Engine} {h : Holdings} {a : Answer} (refused : a.status ≠ 0)
      (order : e.Issues none next) : Move e h [.call .setUp a] next h
  | tearDown {e next : Engine} {h : Holdings} {a : Answer} (order : e.Issues none next) :
      Move e h.addToken [.call .tearDown a] next h
  | use {e next : Engine} {h : Holdings} {c : Call} {a : Answer} (plain : c.isUse = true)
      (held : ∀ x, c.subject? = some x → x ∈ h.held) (order : e.Issues none next) :
      Move e h [.call c a] next h
  | addition {e next : Engine} {h : Holdings} {n : Nat} {c : Call} {a b d : Answer}
      (inside : c.isAdditionTo n = true) (held : .compiler n ∈ h.held)
      (order : e.Issues none next) :
      Move e h [.call (.setCallback n true true) a, .call c b,
        .call (.setCallback n false false) d] next h
  | withheld {e next : Engine} {h : Holdings} {c : Call} {a : Answer} {served : List Filling}
      (creates : c.creates = true) (held : ∀ x, c.subject? = some x → x ∈ h.held)
      (nothing : (Event.call c a).granted = none) (order : e.Issues none next) :
      Move e h.addToken (.call c a :: served.map .filled) next h.addToken
  | gained {e next : Engine} {h : Holdings} {c : Call} {a : Answer} {served : List Filling}
      {x : Handle} (creates : c.creates = true) (held : ∀ x, c.subject? = some x → x ∈ h.held)
      (out : (Event.call c a).granted = some x) (order : e.Issues (some x) next)
      (clean : served.any Filling.failed = false) :
      Move e h.addToken (.call c a :: served.map .filled) next (h.gain x)
  | lost {e next : Engine} {h : Holdings} {c : Call} {a : Answer} {served : List Filling}
      {x : Handle} (creates : c.creates = true) (held : ∀ x, c.subject? = some x → x ∈ h.held)
      (out : (Event.call c a).granted = some x) (order : e.Issues (some x) next)
      (broken : served.any Filling.failed = true) :
      Move e h.addToken (.call c a :: served.map .filled) next h.addToken
  | discard {e next : Engine} {h : Holdings} {c : Call} {a b : Answer} {notes : List String}
      {x : Handle} (gone : (Event.call c a).destroyed = some x) (order : e.Issues none next) :
      Move e (h.gain x) (.call c a :: (notes.map (.log .warn) ++ [.call .tearDown b])) next h

inductive Moves : Engine → Holdings → Trace → Engine → Holdings → Prop where
  | stay (e : Engine) (h : Holdings) : Moves e h [] e h
  | more {e middle last : Engine} {h between after : Holdings} {first rest : Trace}
      (move : Move e h first middle between) (moves : Moves middle between rest last after) :
      Moves e h (first ++ rest) last after

theorem moveAlone {e next : Engine} {h after : Holdings} {t : Trace}
    (move : Move e h t next after) : Moves e h t next after := by
  have alone := Moves.more move (.stay next after)
  rwa [List.append_nil] at alone

theorem movesAppend {e middle last : Engine} {h between after : Holdings} {t u : Trace}
    (first : Moves e h t middle between) (second : Moves middle between u last after) :
    Moves e h (t ++ u) last after := by
  induction first with
  | stay => exact second
  | more move _ ih =>
    rw [List.append_assoc]
    exact .more move (ih second)

/- An operation leads from holdings to those its value decides, whatever the engine answers. -/
def Operation.Leads {α : Type} (m : Operation α) (h : Holdings) (after : α → Holdings) : Prop :=
  ∀ s e, Moves e h (m.run s e).trace (m.run s e).engine (after (m.run s e).value)

namespace Operation
variable {α β : Type} {m : Operation α} {k : α → Operation β} {h : Holdings}

theorem leadsPure {a : α} {after : α → Holdings} (kept : after a = h) :
    (pure a : Operation α).Leads h after := by
  intro s e
  rw [runPure, kept]
  exact .stay e h

theorem leadsBind {between : α → Holdings} {after : β → Holdings} (first : m.Leads h between)
    (second : ∀ s e, (k (m.run s e).value).Leads (between (m.run s e).value) after) :
    (m >>= k).Leads h after := by
  intro s e
  rw [runBind]
  exact movesAppend (first s e) (second s e s _)

theorem leadsEmit {events : List Event} (notes : ∀ event ∈ events, event.isNote = true) :
    (emit events).Leads h fun _ => h := by
  intro s e
  change Moves e h events e h
  induction events with
  | nil => exact .stay e h
  | cons event rest ih =>
    obtain ⟨first, rest⟩ := List.forall_mem_cons.mp notes
    exact .more (.note first) (ih rest)

theorem leadsLog (severity : Severity) (message : String) :
    (log severity message).Leads h fun _ => h :=
  leadsEmit (by simp [Event.isNote])

theorem leadsUse {c : Call} (plain : c.isUse = true)
    (held : ∀ x, c.subject? = some x → x ∈ h.held) : (call c).Leads h fun _ => h :=
  fun _ _ => moveAlone (.use plain held ⟨rfl, rfl⟩)

end Operation
end ScanEngine
