import Mathlib.Data.List.Infix
import ScanEngine.Header.Comment

/-! Occurrences in byte strings. A string contains another as an infix, and the last occurrence of
it is the one with the shortest rest, so a text is under an opener when some opener, the last one or
an earlier one, has no closer after it. -/
namespace ScanEngine.Bytes

/- Decided over the bytes of the string, not over all bytes. -/
instance (v : Bytes) (kind : UInt8 → Prop) [DecidablePred kind] : Decidable (∀ b ∈ v, kind b) :=
  List.decidableBAll kind v

theorem runSplit {kind : UInt8 → Bool} {run tail : Bytes} (inside : ∀ b ∈ run, kind b)
    (stop : ∀ b ∈ tail.head?, kind b = false) :
    (run ++ tail).takeWhile kind = run ∧ (run ++ tail).dropWhile kind = tail := by
  rw [List.takeWhile_append_of_pos inside, List.dropWhile_append_of_pos inside]
  cases tail with
  | nil => exact ⟨List.append_nil run, rfl⟩
  | cons b tail =>
    have other : ¬kind b := Bool.eq_false_iff.mp (stop b rfl)
    rw [List.takeWhile_cons_of_neg other, List.dropWhile_cons_of_neg other]
    exact ⟨List.append_nil run, rfl⟩

theorem containsIff {needle v : Bytes} : contains needle v = true ↔ needle <:+: v := by
  induction v with
  | nil => rw [contains, List.isEmpty_iff, List.infix_nil]
  | cons b rest ih =>
    rw [contains, Bool.or_eq_true, List.isPrefixOf_iff_prefix, ih, List.infix_cons_iff]

theorem afterIff {mark v rest : Bytes} : after? mark v = some rest ↔ v = mark ++ rest := by
  unfold after?
  split
  · rename_i front
    obtain ⟨more, rfl⟩ := List.isPrefixOf_iff_prefix.mp front
    rw [List.drop_left, Option.some.injEq, List.append_cancel_left_eq]
  · rename_i front
    refine ⟨nofun, ?_⟩
    rintro rfl
    exact absurd (List.isPrefixOf_iff_prefix.mpr (List.prefix_append mark rest)) front

theorem afterLastFound {needle v rest : Bytes} (last : afterLast? needle v = some rest) :
    needle ++ rest <:+ v := by
  induction v with
  | nil =>
    rw [afterLast?] at last
    split at last
    · rename_i none
      cases Option.some.inj last
      rw [List.isEmpty_iff.mp none]
      exact List.nil_suffix
    · cases last
  | cons b v ih =>
    rw [afterLast?, Option.or_eq_some_iff] at last
    rcases last with later | ⟨-, here⟩
    · exact (ih later).trans (List.suffix_cons b v)
    · exact ⟨[], (afterIff.mp here).symm⟩

theorem afterLastShortest {needle v other : Bytes} (found : needle ++ other <:+ v) :
    ∃ rest, afterLast? needle v = some rest ∧ rest <:+ other := by
  induction v with
  | nil =>
    obtain ⟨rfl, rfl⟩ := List.append_eq_nil_iff.mp (List.suffix_nil.mp found)
    exact ⟨[], rfl, List.suffix_rfl⟩
  | cons b v ih =>
    rw [afterLast?]
    rcases List.suffix_cons_iff.mp found with here | later
    · cases last : afterLast? needle v with
      | none => exact ⟨other, afterIff.mpr here.symm, List.suffix_rfl⟩
      | some rest =>
        refine ⟨rest, rfl, ?_⟩
        have inner := afterLastFound last
        have ends : rest <:+ b :: v :=
          ((List.suffix_append needle rest).trans inner).trans (List.suffix_cons b v)
        have shorter := inner.length_le
        have whole := congrArg List.length here
        rw [List.length_append, List.length_cons] at whole
        rw [List.length_append] at shorter
        exact List.suffix_of_suffix_length_le ends (here ▸ List.suffix_append needle other)
          (by omega)
    · obtain ⟨rest, last, short⟩ := ih later
      exact ⟨rest, by rw [last, Option.some_or], short⟩

theorem pairAcross {x y : UInt8} {a b : Bytes} (found : [x, y] <:+: a ++ b) :
    [x, y] <:+: a ∨ [x, y] <:+: b ∨ (a.getLast? = some x ∧ b.head? = some y) := by
  rcases List.infix_append_iff.mp found with left | right | ⟨front, back, split, ends, begins⟩
  · exact .inl left
  · exact .inr (.inl right)
  · match front with
    | [] =>
      cases split
      exact .inr (.inl begins.isInfix)
    | [_] =>
      cases split
      obtain ⟨most, rfl⟩ := ends
      obtain ⟨more, rfl⟩ := begins
      exact .inr (.inr ⟨List.getLast?_concat, rfl⟩)
    | _ :: _ :: _ =>
      simp only [List.cons_append, List.cons.injEq] at split
      obtain ⟨rfl, rfl, none⟩ := split
      obtain ⟨rfl, -⟩ := List.append_eq_nil_iff.mp none.symm
      exact .inl ends.isInfix

theorem pairFollowed {x y : UInt8} {a b rest : Bytes} (found : [x, y] ++ rest <:+ a ++ b) :
    [x, y] ++ rest <:+ b ∨ (∃ inner, rest = inner ++ b ∧ [x, y] ++ inner <:+ a) ∨
      (a.getLast? = some x ∧ b.head? = some y) := by
  obtain ⟨front, whole⟩ := found
  rcases List.append_eq_append_iff.mp whole with ⟨part, rfl, split⟩ | ⟨part, -, split⟩
  · match part with
    | [] => exact .inl (split ▸ List.suffix_rfl)
    | [_] =>
      cases split
      exact .inr (.inr ⟨List.getLast?_concat, rfl⟩)
    | _ :: _ :: inner =>
      cases split
      exact .inr (.inl ⟨inner, rfl, front, rfl⟩)
  · exact .inl ⟨part, split.symm⟩

end ScanEngine.Bytes

namespace ScanEngine.Header

theorem underOpenerIff {before : Bytes} :
    underOpener before = true ↔
      ∃ rest, blockOpener ++ rest <:+ before ∧ ¬blockCloser <:+: rest := by
  unfold underOpener
  constructor
  · intro under
    split at under
    · rename_i rest last
      refine ⟨rest, Bytes.afterLastFound last, fun closed => ?_⟩
      rw [Bytes.containsIff.mpr closed] at under
      cases under
    · cases under
  · rintro ⟨rest, found, unclosed⟩
    obtain ⟨short, last, ends⟩ := Bytes.afterLastShortest found
    rw [last]
    simp only [Bool.not_eq_true', ← Bool.not_eq_true, Bytes.containsIff]
    exact fun closed => unclosed (closed.trans ends.isInfix)

theorem underOpenerLast {before : Bytes} :
    underOpener before = true ↔ ∃ front rest, before = front ++ blockOpener ++ rest ∧
      ¬blockOpener <:+: rest ∧ ¬blockCloser <:+: rest := by
  constructor
  · intro under
    unfold underOpener at under
    split at under
    · rename_i rest last
      obtain ⟨front, found⟩ := Bytes.afterLastFound last
      refine ⟨front, rest, by rw [← found, List.append_assoc], ?_, ?_⟩
      · rintro ⟨left, right, rfl⟩
        -- A further opener would leave less behind it than the last one does.
        have further : blockOpener ++ right <:+ before :=
          ⟨front ++ blockOpener ++ left, by rw [← found]; simp only [List.append_assoc]⟩
        obtain ⟨short, same, ends⟩ := Bytes.afterLastShortest further
        cases last.symm.trans same
        have fits := ends.length_le
        simp only [List.length_append, blockOpener, List.length_cons] at fits
        omega
      · rw [← Bytes.containsIff]
        simpa using under
    · cases under
  · rintro ⟨front, rest, rfl, -, unclosed⟩
    exact underOpenerIff.mpr ⟨rest, ⟨front, (List.append_assoc _ _ _).symm⟩, unclosed⟩

theorem underOpenerAppend {a b : Bytes} (opens : a.getLast? = some slash → b.head? ≠ some star)
    (closes : a.getLast? = some star → b.head? ≠ some slash) :
    underOpener (a ++ b) = true ↔
      underOpener b = true ∨ (underOpener a = true ∧ ¬blockCloser <:+: b) := by
  simp only [underOpenerIff]
  constructor
  · rintro ⟨rest, found, unclosed⟩
    rcases Bytes.pairFollowed found with here | ⟨inner, rfl, before⟩ | ⟨last, first⟩
    · exact .inl ⟨rest, here, unclosed⟩
    · have apart := mt List.infix_append_of_infix_left unclosed
      exact .inr ⟨⟨inner, before, apart⟩, mt List.infix_append_of_infix_right unclosed⟩
    · exact absurd first (opens last)
  · rintro (⟨rest, found, unclosed⟩ | ⟨⟨inner, found, unclosed⟩, clear⟩)
    · exact ⟨rest, found.trans (List.suffix_append a b), unclosed⟩
    · refine ⟨inner ++ b, ?_, fun closed => ?_⟩
      · obtain ⟨front, rfl⟩ := found
        exact ⟨front, by simp only [List.append_assoc]⟩
      · rcases Bytes.pairAcross closed with before | here | ⟨last, first⟩
        · exact unclosed before
        · exact clear here
        · have ends : a.getLast? = some star := by
            obtain ⟨front, rfl⟩ := found
            rw [List.getLast?_append, List.getLast?_append, last]
            rfl
          exact closes ends first

end ScanEngine.Header
