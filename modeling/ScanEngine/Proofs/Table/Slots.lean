import ScanEngine.Proofs.Table.Copying

/-! Buffers slot by slot. A copy puts the first handles into the first slots, leaves every other slot
as it was, and pulls no handle that it has no slot for. This settles what the buffer holds
afterwards, so both ways of copying agree, and doing either again changes nothing. -/
namespace ScanEngine.Enumeration

section
variable {ρ τ : Type}

/- What a copy may make of a buffer. -/
structure Fills (store : ρ → τ) (capacity : Nat) (slots : List τ) (rules : List ρ)
    (f : Filled τ) : Prop where
  written : f.written = min rules.length (min capacity slots.length)
  size : f.slots.length = slots.length
  copied : ∀ i, i < f.written → f.slots[i]? = rules[i]?.map store
  kept : ∀ i, f.written ≤ i → f.slots[i]? = slots[i]?
  pulls : f.pulls = min (min capacity slots.length) (rules.length + 1)

variable {store : ρ → τ} {capacity : Nat} {slots : List τ} {rules : List ρ} {f g : Filled τ}

theorem frontFills (store : ρ → τ) (capacity : Nat) (slots : List τ) (rules : List ρ) :
    let room := min capacity slots.length
    let written := min rules.length room
    Fills store capacity slots rules
      ⟨written, (rules.take written).map store ++ slots.drop written,
        min room (rules.length + 1)⟩ := by
  intro room written
  have within : written ≤ rules.length ∧ written ≤ slots.length := by omega
  have front : ((rules.take written).map store).length = written := by simp [within.1]
  constructor
  case written => rfl
  case size => simp [within]
  case copied =>
    intro i before
    have inside : i < ((rules.take written).map store).length := front.symm ▸ before
    simp only [List.getElem?_append_left inside, List.getElem?_map, List.getElem?_take_of_lt before]
  case kept =>
    intro i behind
    have outside : ((rules.take written).map store).length ≤ i := front.symm ▸ behind
    simp only [List.getElem?_append_right outside, front, List.getElem?_drop,
      Nat.add_sub_cancel' behind]
  case pulls => rfl

theorem Fills.unique (left : Fills store capacity slots rules f)
    (right : Fills store capacity slots rules g) : f = g := by
  have written : f.written = g.written := left.written.trans right.written.symm
  have slots : f.slots = g.slots := by
    refine List.ext_getElem? fun i => ?_
    rcases Nat.lt_or_ge i f.written with before | behind
    · exact (left.copied i before).trans (right.copied i (written ▸ before)).symm
    · exact (left.kept i behind).trans (right.kept i (written ▸ behind)).symm
  have pulls : f.pulls = g.pulls := left.pulls.trans right.pulls.symm
  cases f
  cases g
  cases written
  cases slots
  cases pulls
  rfl

theorem Fills.refilled (first : Fills store capacity slots rules f) :
    Fills store capacity f.slots rules f where
  written := by rw [first.size, first.written]
  size := rfl
  copied := first.copied
  kept _ _ := rfl
  pulls := by rw [first.size, first.pulls]

theorem Fills.exhausted (fills : Fills store capacity slots rules f)
    (full : f.written = min capacity slots.length) : f.pulls = f.written := by
  have written := fills.written
  have pulls := fills.pulls
  omega

end

section
variable {ρ σ : Type} {convert : ρ → σ} {capacity : Nat} {rules : List ρ} {slots : List σ}
  {fresh : List (Option σ)} {f : Filled σ} {g : Filled (Option σ)}

theorem enumerateFills (convert : ρ → σ) (capacity : Nat) (slots : List σ) (rules : List ρ) :
    Fills convert capacity slots rules (enumerate convert capacity slots rules) := by
  rw [enumerateFilled]
  exact frontFills convert capacity slots rules

theorem enumerateFreshFills (convert : ρ → σ) (capacity : Nat) (slots : List (Option σ))
    (rules : List ρ) :
    Fills (fun rule => some (convert rule)) capacity slots rules
      (enumerateFresh convert capacity slots rules) := by
  rw [enumerateFreshFilled]
  exact frontFills _ capacity slots rules

theorem Fills.freshAlike (plain : Fills convert capacity slots rules f)
    (empty : Fills (fun rule => some (convert rule)) capacity fresh rules g)
    (same : slots.length = fresh.length) :
    g.written = f.written ∧ g.pulls = f.pulls ∧
      g.slots.take g.written = (f.slots.take f.written).map some := by
  have written : g.written = f.written := by rw [empty.written, plain.written, same]
  refine ⟨written, by rw [empty.pulls, plain.pulls, same], List.ext_getElem? fun i => ?_⟩
  rw [List.getElem?_map]
  rcases Nat.lt_or_ge i f.written with before | behind
  · rw [List.getElem?_take_of_lt (written ▸ before), List.getElem?_take_of_lt before,
      empty.copied i (written ▸ before), plain.copied i before, Option.map_map]
    rfl
  · rw [List.getElem?_take_eq_none (written ▸ behind), List.getElem?_take_eq_none behind]
    rfl

/- Copying into a bounded buffer, whatever it holds and whichever of the two ways is taken. -/
theorem boundedCopyExact (convert : ρ → σ) (rules : List ρ) (capacity : Nat) (slots : List σ)
    (fresh : List (Option σ)) :
    count rules = (rules.length, rules.length + 1) ∧
    let plain := enumerate convert capacity slots rules
    let first := enumerateFresh convert capacity fresh rules
    (Fills convert capacity slots rules plain ∧
      (plain.written = min capacity slots.length → plain.pulls = plain.written) ∧
      enumerate convert capacity plain.slots rules = plain) ∧
    (Fills (fun rule => some (convert rule)) capacity fresh rules first ∧
      (first.written = min capacity fresh.length → first.pulls = first.written) ∧
      enumerateFresh convert capacity first.slots rules = first) ∧
    (slots.length = fresh.length → first.written = plain.written ∧ first.pulls = plain.pulls ∧
      first.slots.take first.written = (plain.slots.take plain.written).map some) := by
  have inPlace := enumerateFills convert capacity slots rules
  have inFresh := enumerateFreshFills convert capacity fresh rules
  exact ⟨countAll rules,
    ⟨inPlace, inPlace.exhausted, (enumerateFills _ _ _ _).unique inPlace.refilled⟩,
    ⟨inFresh, inFresh.exhausted, (enumerateFreshFills _ _ _ _).unique inFresh.refilled⟩,
    inPlace.freshAlike inFresh⟩

example : enumerate id 3 [7, 7, 7, 7] [10, 20, 30, 40, 50] = ⟨3, [10, 20, 30, 7], 3⟩ := rfl

end
end ScanEngine.Enumeration
