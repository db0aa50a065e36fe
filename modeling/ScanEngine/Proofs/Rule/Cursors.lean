import Mathlib.Data.List.Forall2

/-! Cursors over a memory that has no length of its own. A pull hands something out and moves on, or
it hands out nothing and stays; to tell which, it looks at some positions. What a whole walk hands
out and looks at decides every later pull too. -/
namespace ScanEngine

structure Cursor (σ α : Type) where
  next? : σ → Option (α × σ)
  looks : σ → List Nat

namespace Cursor
variable {σ α : Type}

def pulled (c : Cursor σ α) : Nat → σ → List (Option α)
  | 0, _ => []
  | n + 1, here =>
    match c.next? here with
    | none => none :: c.pulled n here
    | some (found, there) => some found :: c.pulled n there

def looked (c : Cursor σ α) : Nat → σ → List Nat
  | 0, _ => []
  | n + 1, here =>
    c.looks here ++
      match c.next? here with
      | none => c.looked n here
      | some (_, there) => c.looked n there

/- What is handed out until the cursor ends, and the positions looked at for that. -/
inductive Walks (c : Cursor σ α) : σ → List α → List Nat → Prop where
  | ended {here : σ} (last : c.next? here = none) : Walks c here [] (c.looks here)
  | moved {here there : σ} {found : α} {rest : List α} {seen : List Nat}
      (next : c.next? here = some (found, there)) (tail : Walks c there rest seen) :
      Walks c here (found :: rest) (c.looks here ++ seen)

variable {c d : Cursor σ α} {here : σ}

theorem pulledEnded (last : c.next? here = none) (n : Nat) :
    c.pulled n here = List.replicate n none := by
  induction n with
  | zero => rfl
  | succ n ih =>
    rw [pulled, last]
    exact congrArg (none :: ·) ih

theorem lookedEnded (last : c.next? here = none) (n : Nat) :
    ∀ p ∈ c.looked n here, p ∈ c.looks here := by
  induction n with
  | zero => exact List.forall_mem_nil _
  | succ n ih =>
    rw [looked, last]
    exact List.forall_mem_append.mpr ⟨fun _ mem => mem, ih⟩

theorem Walks.pulled {items : List α} {seen : List Nat} (walk : c.Walks here items seen) (n : Nat) :
    c.pulled n here = (List.range n).map (items[·]?) := by
  induction walk generalizing n with
  | ended last => simp [pulledEnded last]
  | moved next tail ih =>
    cases n with
    | zero => rfl
    | succ n =>
      rw [Cursor.pulled, next, List.range_succ_eq_map, List.map_cons, List.map_map]
      exact congrArg (_ :: ·) (ih n)

theorem Walks.looked {items : List α} {seen : List Nat} (walk : c.Walks here items seen) (n : Nat) :
    ∀ p ∈ c.looked n here, p ∈ seen := by
  induction walk generalizing n with
  | ended last => exact lookedEnded last n
  | moved next tail ih =>
    cases n with
    | zero => exact List.forall_mem_nil _
    | succ n =>
      rw [Cursor.looked, next]
      exact List.forall_mem_append.mpr ⟨fun _ => List.mem_append_left _,
        fun p mem => List.mem_append_right _ (ih n p mem)⟩

theorem pulledAlike {same : Nat → Prop}
    (told : ∀ place, (∀ p ∈ c.looks place, same p) → d.next? place = c.next? place) (n : Nat)
    (within : ∀ p ∈ c.looked n here, same p) : d.pulled n here = c.pulled n here := by
  induction n generalizing here with
  | zero => rfl
  | succ n ih =>
    obtain ⟨front, behind⟩ := List.forall_mem_append.mp within
    rw [pulled, pulled, told here front]
    cases next : c.next? here with
    | none =>
      rw [next] at behind
      exact congrArg (none :: ·) (ih behind)
    | some moved =>
      rw [next] at behind
      exact congrArg (some moved.1 :: ·) (ih behind)

/- A cursor that hands out some items and nothing after them, looks at no position behind the last
one, and hands out the same whatever stands where it does not look. -/
structure Confined {β : Type} (along : List β → Cursor σ α) (memory : List β) (start : σ)
    (items : List α) (last : Nat) : Prop where
  pulls : ∀ n, (along memory).pulled n start = (List.range n).map (items[·]?)
  looks : ∀ n, ∀ p ∈ (along memory).looked n start, p ≤ last
  told : ∀ n other, (∀ p ∈ (along memory).looked n start, other[p]? = memory[p]?) →
    (along other).pulled n start = (along memory).pulled n start

theorem Walks.confined {β : Type} {along : List β → Cursor σ α} {memory : List β} {start : σ}
    {items : List α} {last : Nat}
    (walk : (along memory).Walks start items (List.range (last + 1)))
    (told : ∀ other place, (∀ p ∈ (along memory).looks place, other[p]? = memory[p]?) →
      (along other).next? place = (along memory).next? place) :
    Confined along memory start items last where
  pulls := walk.pulled
  looks n p mem := Nat.le_of_lt_succ (List.mem_range.mp (walk.looked n p mem))
  told n other := pulledAlike (told other) n

end Cursor

theorem readEach {α β : Type} {read : α → Option β} {Reads : α → β → Prop} {Readable : α → Prop}
    [DecidablePred Readable] (found : ∀ {a b}, read a = some b ↔ Reads a b)
    (fit : ∀ {a}, Readable a ↔ ∃ b, Reads a b) (items : List α) :
    List.Forall₂ Reads (items.filter Readable) (items.filterMap read) := by
  induction items with
  | nil => exact .nil
  | cons a rest ih =>
    cases outcome : read a with
    | none =>
      have unfit : ¬Readable a := fun readable => by
        obtain ⟨b, reads⟩ := fit.mp readable
        cases outcome.symm.trans (found.mpr reads)
      rwa [List.filterMap_cons_none outcome, List.filter_cons_of_neg (by simpa using unfit)]
    | some b =>
      have reads := found.mp outcome
      rw [List.filterMap_cons_some outcome,
        List.filter_cons_of_pos (by simpa using fit.mpr ⟨b, reads⟩)]
      exact .cons reads ih

end ScanEngine
