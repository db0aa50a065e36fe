/-! Values kept by name, in the order of the names. A name holds at most one value. -/
namespace ScanEngine

structure Store (α : Type) where
  entries : List (String × α) := []
  distinct : (entries.map Prod.fst).Nodup := by simp
  deriving DecidableEq, Repr

namespace Store
variable {α : Type}

def find? (s : Store α) (name : String) : Option α := s.entries.lookup name

def values (s : Store α) : List α := s.entries.map Prod.snd

def size (s : Store α) : Nat := s.entries.length

def others (name : String) (entries : List (String × α)) : List (String × α) :=
  entries.filter fun entry => entry.1 != name

theorem othersDistinct (name : String) {entries : List (String × α)}
    (h : (entries.map Prod.fst).Nodup) : ((others name entries).map Prod.fst).Nodup :=
  h.sublist (List.filter_sublist.map _)

theorem othersLack (name : String) (entries : List (String × α)) :
    name ∉ (others name entries).map Prod.fst := by
  simp [others]

def insertSorted (name : String) (value : α) : List (String × α) → List (String × α)
  | [] => [(name, value)]
  | entry :: rest =>
    if name < entry.1 then (name, value) :: entry :: rest
    else entry :: insertSorted name value rest

theorem insertSortedPerm (name : String) (value : α) (entries : List (String × α)) :
    (insertSorted name value entries).Perm ((name, value) :: entries) := by
  induction entries with
  | nil => exact .refl _
  | cons entry rest ih =>
    unfold insertSorted
    split
    · exact .refl _
    · exact (ih.cons entry).trans (.swap _ _ _)

theorem insertSortedDistinct {name : String} {value : α} {entries : List (String × α)}
    (h : (entries.map Prod.fst).Nodup) (fresh : name ∉ entries.map Prod.fst) :
    ((insertSorted name value entries).map Prod.fst).Nodup :=
  ((insertSortedPerm name value entries).map Prod.fst).nodup_iff.mpr (List.nodup_cons.mpr ⟨fresh, h⟩)

def erase (s : Store α) (name : String) : Store α :=
  ⟨others name s.entries, othersDistinct name s.distinct⟩

def put (s : Store α) (name : String) (value : α) : Store α :=
  ⟨insertSorted name value (others name s.entries),
    insertSortedDistinct (othersDistinct name s.distinct) (othersLack name s.entries)⟩

theorem eraseFound (s : Store α) (name : String) : (s.erase name).find? name = none := by
  simp only [erase, find?, List.lookup_eq_none_iff]
  intro entry mem
  have differ : entry.1 ≠ name := by simpa [others] using (List.mem_filter.mp mem).2
  simpa using Ne.symm differ

theorem putFound (s : Store α) (name : String) (value : α) :
    (s.put name value).find? name = some value := by
  have absent := eraseFound s name
  simp only [put, erase, find?] at absent ⊢
  generalize others name s.entries = entries at absent
  induction entries with
  | nil => simp [insertSorted]
  | cons entry rest ih =>
    unfold insertSorted
    split
    · simp
    · rw [List.lookup_cons] at absent ⊢
      split at absent
      · contradiction
      · exact ih absent

section
variable {name other : String}

theorem othersLookup (differ : other ≠ name) (entries : List (String × α)) :
    (others name entries).lookup other = entries.lookup other := by
  induction entries with
  | nil => rfl
  | cons entry rest ih =>
    by_cases same : entry.1 = name
    · have dropped : others name (entry :: rest) = others name rest := by simp [others, same]
      rw [dropped, ih, List.lookup_cons, same, beq_false_of_ne differ]
    · have kept : others name (entry :: rest) = entry :: others name rest := by
        simp [others, same]
      rw [kept, List.lookup_cons, List.lookup_cons, ih]

theorem insertSortedLookup (differ : other ≠ name) (value : α) (entries : List (String × α)) :
    (insertSorted name value entries).lookup other = entries.lookup other := by
  have passed (rest : List (String × α)) :
      ((name, value) :: rest).lookup other = rest.lookup other := by
    rw [List.lookup_cons, beq_false_of_ne differ]
  induction entries with
  | nil => exact passed []
  | cons entry rest ih =>
    unfold insertSorted
    split
    · exact passed _
    · rw [List.lookup_cons, List.lookup_cons, ih]

theorem eraseElsewhere (differ : other ≠ name) (s : Store α) :
    (s.erase name).find? other = s.find? other :=
  othersLookup differ s.entries

theorem putElsewhere (differ : other ≠ name) (s : Store α) (value : α) :
    (s.put name value).find? other = s.find? other :=
  (insertSortedLookup differ value _).trans (othersLookup differ s.entries)

end

theorem othersPerm {name : String} {value : α} {entries : List (String × α)}
    (distinct : (entries.map Prod.fst).Nodup) (held : entries.lookup name = some value) :
    entries.Perm ((name, value) :: others name entries) := by
  induction entries with
  | nil => simp at held
  | cons entry rest ih =>
    obtain ⟨fresh, distinct⟩ := List.nodup_cons.mp distinct
    rw [List.lookup_cons] at held
    split at held
    · rename_i same
      have same : entry.1 = name := (beq_iff_eq.mp same).symm
      have untouched : others name rest = rest := by
        refine List.filter_eq_self.mpr fun other mem => ?_
        refine bne_iff_ne.mpr fun clash => fresh ?_
        rw [same, ← clash]
        exact List.mem_map_of_mem mem
      have dropped : others name (entry :: rest) = others name rest := by simp [others, same]
      have whole : entry = (name, value) := Prod.ext same (Option.some.inj held)
      rw [dropped, untouched, whole]
    · rename_i differ
      have differ : entry.1 ≠ name := fun same => by simp [same] at differ
      have kept : others name (entry :: rest) = entry :: others name rest := by
        simp [others, differ]
      rw [kept]
      exact ((ih distinct held).cons entry).trans (.swap _ _ _)

theorem othersAbsent {name : String} {entries : List (String × α)}
    (absent : entries.lookup name = none) : others name entries = entries := by
  refine List.filter_eq_self.mpr fun entry mem => ?_
  have differ := List.lookup_eq_none_iff.mp absent entry mem
  exact bne_iff_ne.mpr fun same => by simp [same] at differ

theorem eraseValues {s : Store α} {name : String} {value : α} (held : s.find? name = some value) :
    s.values.Perm (value :: (s.erase name).values) :=
  (othersPerm s.distinct held).map Prod.snd

theorem eraseAbsent {s : Store α} {name : String} (absent : s.find? name = none) :
    (s.erase name).values = s.values :=
  congrArg (List.map Prod.snd) (othersAbsent absent)

theorem putValues (s : Store α) (name : String) (value : α) :
    (s.put name value).values.Perm (value :: (s.erase name).values) :=
  (insertSortedPerm name value _).map Prod.snd

theorem valuesLength (s : Store α) : s.values.length = s.size := List.length_map _

end Store
end ScanEngine
