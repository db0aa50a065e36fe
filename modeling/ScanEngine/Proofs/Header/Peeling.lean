import ScanEngine.Header.Number

/-! Trimming and peeling. Trimming takes off exactly the blanks around what is solid. Peeling goes round
by round, each round taking off one pair of parentheses and the blanks inside it; it comes to an end
from any bytes, and in one way. -/
namespace ScanEngine.Bytes

structure Solid (v : Bytes) : Prop where
  front : ∃ b, v.head? = some b ∧ isBlank b = false
  back : ∃ b, v.getLast? = some b ∧ isBlank b = false

theorem trimStartSkips {gap : Bytes} (blank : ∀ b ∈ gap, isBlank b) (v : Bytes) :
    trimStart (gap ++ v) = trimStart v :=
  List.dropWhile_append_of_pos blank

theorem trimEndSkips {gap : Bytes} (blank : ∀ b ∈ gap, isBlank b) (v : Bytes) :
    trimEnd (v ++ gap) = trimEnd v := by
  have back : ∀ b ∈ gap.reverse, isBlank b := fun b mem => blank b (List.mem_reverse.mp mem)
  rw [trimEnd, List.reverse_append, List.dropWhile_append_of_pos back, trimEnd]

theorem trimStartKeeps {v : Bytes} (front : ∃ b, v.head? = some b ∧ isBlank b = false) :
    trimStart v = v := by
  obtain ⟨b, first, solid⟩ := front
  obtain ⟨rest, rfl⟩ := List.head?_eq_some_iff.mp first
  exact List.dropWhile_cons_of_neg (Bool.eq_false_iff.mp solid)

theorem trimEndKeeps {v : Bytes} (back : ∃ b, v.getLast? = some b ∧ isBlank b = false)
    (more : Bytes) : trimEnd (v ++ more) = v ++ trimEnd more := by
  obtain ⟨b, last, solid⟩ := back
  obtain ⟨most, rfl⟩ := List.getLast?_eq_some_iff.mp last
  have stop : (most ++ [b]).reverse.dropWhile isBlank = (most ++ [b]).reverse := by
    rw [List.reverse_concat]
    exact List.dropWhile_cons_of_neg (Bool.eq_false_iff.mp solid)
  rw [trimEnd, trimEnd, List.reverse_append, List.dropWhile_append, stop]
  split
  · rename_i empty
    rw [List.isEmpty_iff.mp empty, List.reverse_reverse, List.reverse_nil, List.append_nil]
  · rw [List.reverse_append, List.reverse_reverse]

theorem trimSkips {feed : Bytes} (blank : ∀ b ∈ feed, isBlank b) (v : Bytes) :
    trim (v ++ feed) = trim v := by
  rw [trim, trimStart, List.dropWhile_append]
  split
  · rename_i empty
    have none : feed.dropWhile isBlank = [] := by
      rw [← List.append_nil feed, List.dropWhile_append_of_pos blank, List.dropWhile_nil]
    rw [none, trim, trimStart, List.isEmpty_iff.mp empty]
  · exact trimEndSkips blank _

theorem trimPadded {left v right : Bytes} (before : ∀ b ∈ left, isBlank b) (solid : Solid v)
    (after : ∀ b ∈ right, isBlank b) : trim (left ++ v ++ right) = v := by
  have front : ∃ b, (v ++ right).head? = some b ∧ isBlank b = false := by
    obtain ⟨b, first, solid⟩ := solid.front
    exact ⟨b, by rw [List.head?_append, first, Option.some_or], solid⟩
  have whole := trimEndKeeps solid.back []
  rw [List.append_nil] at whole
  rw [trim, List.append_assoc, trimStartSkips before, trimStartKeeps front, trimEndSkips after,
    whole]
  exact List.append_nil v

theorem trimBetween (v : Bytes) : ∃ left right, v = left ++ trim v ++ right ∧
    (∀ b ∈ left, isBlank b) ∧ ∀ b ∈ right, isBlank b := by
  have blank (w : Bytes) : ∀ b ∈ w.takeWhile isBlank, isBlank b :=
    List.all_eq_true.mp List.all_takeWhile
  have front : v = v.takeWhile isBlank ++ trimStart v := List.takeWhile_append_dropWhile.symm
  have back : trimStart v = trim v ++ ((trimStart v).reverse.takeWhile isBlank).reverse := by
    rw [trim, trimEnd, ← List.reverse_append, List.takeWhile_append_dropWhile, List.reverse_reverse]
  refine ⟨v.takeWhile isBlank, ((trimStart v).reverse.takeWhile isBlank).reverse, ?_, blank v,
    fun b mem => blank _ b (List.mem_reverse.mp mem)⟩
  rw [List.append_assoc, ← back]
  exact front

theorem trimAround {left right : Bytes} (before : ∀ b ∈ left, isBlank b)
    (after : ∀ b ∈ right, isBlank b) (v : Bytes) : trim (left ++ v ++ right) = trim v := by
  rw [trimSkips after, trim, trimStartSkips before, trim]

theorem trimAgain (v : Bytes) : trim (trim v) = trim v := by
  obtain ⟨left, right, whole, before, after⟩ := trimBetween v
  have again := trimAround before after (trim v)
  rwa [← whole, eq_comm] at again

end ScanEngine.Bytes

namespace ScanEngine.Header

theorem pairSolid (inner : Bytes) : Bytes.Solid (openParen :: inner ++ [closeParen]) :=
  ⟨⟨openParen, rfl, rfl⟩, ⟨closeParen, List.getLast?_concat, rfl⟩⟩

theorem insideIff {v inner : Bytes} :
    inside? v = some inner ↔ v = openParen :: inner ++ [closeParen] := by
  cases v with
  | nil => exact ⟨nofun, nofun⟩
  | cons b rest =>
    rw [inside?]
    constructor
    · intro found
      split at found <;> try contradiction
      rename_i both
      obtain ⟨rfl, last⟩ := both
      obtain ⟨most, rfl⟩ := List.getLast?_eq_some_iff.mp last
      rw [List.dropLast_concat] at found
      cases Option.some.inj found
      rfl
    · intro whole
      obtain ⟨opened, closed⟩ : b = openParen ∧ rest = inner ++ [closeParen] :=
        List.cons_eq_cons.mp whole
      rw [opened, closed, if_pos ⟨rfl, List.getLast?_concat⟩, List.dropLast_concat]

theorem bareIff {v : Bytes} :
    inside? v = none ↔ ∀ inner, v ≠ openParen :: inner ++ [closeParen] := by
  simp only [Option.eq_none_iff_forall_ne_some, ne_eq, insideIff]

theorem peelPlain {v : Bytes} (h : inside? v = none) : peel v = v := by
  rw [peel]
  split
  · rename_i found
    rw [h] at found
    cases found
  · rfl

theorem peelInside {v inner : Bytes} (h : inside? v = some inner) :
    peel v = peel (Bytes.trim inner) := by
  rw [peel]
  split
  · rename_i found
    cases found.symm.trans h
    rfl
  · rename_i found
    rw [h] at found
    cases found

/- So many rounds, after which no pair of parentheses is left around what remains. -/
inductive Peeled : Nat → Bytes → Bytes → Prop where
  | bare {v : Bytes} (alone : ∀ inner, v ≠ openParen :: inner ++ [closeParen]) : Peeled 0 v v
  | round {rounds : Nat} {v inner core : Bytes} (pair : v = openParen :: inner ++ [closeParen])
      (rest : Peeled rounds (Bytes.trim inner) core) : Peeled (rounds + 1) v core

namespace Peeled
variable {rounds : Nat} {v core : Bytes}

theorem reached (peeled : Peeled rounds v core) : peel v = core := by
  induction peeled with
  | bare alone => exact peelPlain (bareIff.mpr alone)
  | round pair rest ih => rw [peelInside (insideIff.mpr pair), ih]

theorem shortened (peeled : Peeled rounds v core) : 2 * rounds + core.length ≤ v.length := by
  induction peeled with
  | bare alone => exact Nat.le_of_eq (Nat.zero_add _)
  | @round rounds v inner core pair rest ih =>
    have trimmed := Bytes.trimLength inner
    have whole : v.length = inner.length + 2 := by
      rw [pair, List.length_append, List.length_cons, List.length_singleton]
    omega

theorem oneWay {others : Nat} {last : Bytes} (peeled : Peeled rounds v core)
    (again : Peeled others v last) : others = rounds ∧ last = core := by
  induction peeled generalizing others last with
  | bare alone =>
    cases again with
    | bare _ => exact ⟨rfl, rfl⟩
    | round pair _ => exact absurd pair (alone _)
  | round pair rest ih =>
    cases again with
    | bare alone => exact absurd pair (alone _)
    | round other next =>
      cases (insideIff.mpr other).symm.trans (insideIff.mpr pair)
      obtain ⟨rounds, same⟩ := ih next
      exact ⟨congrArg (· + 1) rounds, same⟩

end Peeled

theorem peelEnds (v : Bytes) : ∃ rounds, Peeled rounds v (peel v) := by
  induction v using peel.induct with
  | case1 v inner found ih =>
    obtain ⟨rounds, rest⟩ := ih
    rw [peelInside found]
    exact ⟨rounds + 1, .round (insideIff.mp found) rest⟩
  | case2 v none =>
    rw [peelPlain none]
    exact ⟨0, .bare (bareIff.mp none)⟩

end ScanEngine.Header
