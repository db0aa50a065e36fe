import ScanEngine.Header.Lookup
import ScanEngine.Proofs.Header.Occurrence

/-! Going through a header line by line. A name has no newline in it, so every place of it lies in one
line, and a line that defines it has such a place; so jumping from place to place finds what reading
the lines in order finds. -/
namespace ScanEngine.Bytes

inductive Lined : Bytes → List Bytes → Prop where
  | last {l : Bytes} (plain : newline ∉ l) : Lined l [l]
  | ended {l v : Bytes} {more : List Bytes} (plain : newline ∉ l) (rest : Lined v more) :
      Lined (l ++ newline :: v) (l :: more)

theorem lined (v : Bytes) : Lined v (lines v) := by
  induction v with
  | nil => exact .last List.not_mem_nil
  | cons b v ih =>
    rw [lines, splitOn]
    split
    · rename_i break_
      subst break_
      exact .ended List.not_mem_nil ih
    · rename_i inner
      have plainCons {l : Bytes} (plain : newline ∉ l) : newline ∉ b :: l := by
        rintro (_ | ⟨_, mem⟩)
        · exact inner rfl
        · exact plain mem
      rw [lines] at ih
      cases pieces : splitOn newline v with
      | nil => rw [pieces] at ih; cases ih
      | cons piece more =>
        rw [pieces] at ih
        cases ih with
        | last plain => exact .last (plainCons plain)
        | ended plain rest => exact .ended (plainCons plain) rest

theorem linesEnded {l : Bytes} (plain : newline ∉ l) (v : Bytes) :
    lines (l ++ newline :: v) = l :: lines v :=
  splitOnEnded plain v

theorem Lined.lines {v : Bytes} {texts : List Bytes} (h : Lined v texts) : lines v = texts := by
  induction h with
  | last plain => exact splitOnWhole plain
  | ended plain _ ih => rw [linesEnded plain, ih]

theorem linesJoined (v more : Bytes) :
    lines (v ++ newline :: more) = lines v ++ lines more := by
  suffices joined : ∀ texts, Lined v texts → Lined (v ++ newline :: more) (texts ++ lines more) from
    (joined _ (lined v)).lines
  intro texts h
  induction h with
  | last plain => exact .ended plain (lined more)
  | ended plain _ ih =>
    rw [List.append_assoc, List.cons_append]
    exact .ended plain ih

def AtBreak (v : Bytes) : Prop := ∀ b ∈ v.head?, b = newline

theorem newlineBreak (v : Bytes) : AtBreak (newline :: v) := by
  rintro b ⟨⟩
  rfl

theorem breakSplit {l tail : Bytes} (plain : newline ∉ l) (stop : AtBreak tail) :
    (l ++ tail).takeWhile (· != newline) = l ∧ (l ++ tail).dropWhile (· != newline) = tail :=
  runSplit (fun _ mem => bne_iff_ne.mpr fun same => plain (same ▸ mem))
    fun b first => bne_eq_false_iff_eq.mpr (stop b first)

theorem prefixWithin {needle l tail : Bytes} (plain : newline ∉ needle) (stop : AtBreak tail) :
    needle <+: l ++ tail ↔ needle <+: l := by
  refine ⟨fun front => ?_, fun front => front.trans (List.prefix_append l tail)⟩
  rcases List.prefix_or_prefix_of_prefix front (List.prefix_append l tail) with inside | ⟨beyond, rfl⟩
  · exact inside
  · have more := (List.prefix_append_right_inj l).mp front
    cases beyond with
    | nil => exact ⟨[], (List.append_nil _).trans (List.append_nil l)⟩
    | cons b beyond =>
      cases tail with
      | nil => cases List.prefix_nil.mp more
      | cons c tail =>
        obtain ⟨rfl, -⟩ := List.cons_prefix_cons.mp more
        cases stop b rfl
        exact absurd (List.mem_append_right l List.mem_cons_self) plain

theorem trimInfix (v : Bytes) : trim v <:+: v := by
  have back : trimEnd (trimStart v) <+: trimStart v := by
    rw [← List.reverse_suffix, trimEnd, List.reverse_reverse]
    exact List.dropWhile_suffix isBlank
  exact back.isInfix.trans (List.dropWhile_suffix isBlank).isInfix

end ScanEngine.Bytes

namespace ScanEngine.Header

structure Line where
  before : Bytes
  text : Bytes
  deriving DecidableEq, Repr

def linesFrom (before : Bytes) : List Bytes → List Line
  | [] => []
  | text :: more => ⟨before, text⟩ :: linesFrom (before ++ text ++ [Bytes.newline]) more

def linesOf (header : Bytes) : List Line := linesFrom [] (Bytes.lines header)

def Line.reading? (m : VersionMacro) (l : Line) : Option Reading :=
  match Define.ofLine? l.text with
  | none => none
  | some d => if d.name = m.bytes then some (.ofValue d.value) else none

def Define.ofMacro? (m : VersionMacro) (text : Bytes) : Option Define :=
  (Define.ofLine? text).filter fun d => d.name = m.bytes

theorem ofMacroIff {m : VersionMacro} {text : Bytes} {d : Define} :
    Define.ofMacro? m text = some d ↔ Define.ofLine? text = some d ∧ d.name = m.bytes := by
  simp [Define.ofMacro?, Option.filter_eq_some_iff]

theorem readingDefine (m : VersionMacro) (l : Line) :
    l.reading? m = (Define.ofMacro? m l.text).map fun d => .ofValue d.value := by
  unfold Line.reading? Define.ofMacro?
  cases Define.ofLine? l.text with
  | none => rfl
  | some d => by_cases same : d.name = m.bytes <;> simp [Option.filter, same]

theorem readingDefined {m : VersionMacro} {l : Line} {r : Reading} (reads : l.reading? m = some r) :
    ∃ d, Define.ofMacro? m l.text = some d ∧ Reading.ofValue d.value = r :=
  Option.map_eq_some_iff.mp ((readingDefine m l).symm.trans reads)

inductive First (m : VersionMacro) (Seen : Line → Prop) : List Line → Reading → Prop where
  | here {l : Line} {rest : List Line} {r : Reading} (seen : Seen l)
      (reads : l.reading? m = some r) : First m Seen (l :: rest) r
  | later {l : Line} {rest : List Line} {r : Reading} (passed : Seen l → l.reading? m = none)
      (next : First m Seen rest r) : First m Seen (l :: rest) r

theorem firstCons {m : VersionMacro} {Seen : Line → Prop} {l : Line} {rest : List Line}
    {r : Reading} :
    First m Seen (l :: rest) r ↔
      (Seen l ∧ l.reading? m = some r) ∨
        ((Seen l → l.reading? m = none) ∧ First m Seen rest r) := by
  constructor
  · rintro (⟨seen, reads⟩ | ⟨passed, next⟩)
    · exact .inl ⟨seen, reads⟩
    · exact .inr ⟨passed, next⟩
  · rintro (⟨seen, reads⟩ | ⟨passed, next⟩)
    · exact .here seen reads
    · exact .later passed next

theorem firstFound {m : VersionMacro} {Seen : Line → Prop} [DecidablePred Seen]
    {lines : List Line} {r : Reading} :
    First m Seen lines r ↔
      lines.findSome? (fun l => if Seen l then l.reading? m else none) = some r := by
  induction lines with
  | nil => exact ⟨nofun, nofun⟩
  | cons l rest ih =>
    rw [firstCons, ih, List.findSome?_cons]
    by_cases seen : Seen l <;> cases reads : l.reading? m <;> simp [seen]

instance (m : VersionMacro) (Seen : Line → Prop) [DecidablePred Seen] (lines : List Line)
    (r : Reading) : Decidable (First m Seen lines r) :=
  decidable_of_iff' _ firstFound

theorem firstAppend {m : VersionMacro} {Seen : Line → Prop} {earlier rest : List Line}
    {r : Reading} (passed : ∀ k ∈ earlier, Seen k → k.reading? m = none) :
    First m Seen (earlier ++ rest) r ↔ First m Seen rest r := by
  induction earlier with
  | nil => exact Iff.rfl
  | cons k earlier ih =>
    obtain ⟨first, passed⟩ := List.forall_mem_cons.mp passed
    rw [List.cons_append, firstCons, ih passed]
    refine ⟨?_, fun next => .inr ⟨first, next⟩⟩
    rintro (⟨seen, reads⟩ | ⟨-, next⟩)
    · rw [first seen] at reads
      cases reads
    · exact next

theorem firstMember {m : VersionMacro} {Seen : Line → Prop} {lines : List Line} {r : Reading}
    (first : First m Seen lines r) : ∃ l ∈ lines, Seen l ∧ l.reading? m = some r := by
  induction first with
  | here seen reads => exact ⟨_, List.mem_cons_self, seen, reads⟩
  | later _ _ ih =>
    obtain ⟨l, mem, rest⟩ := ih
    exact ⟨l, List.mem_cons_of_mem _ mem, rest⟩

theorem macroBytes (m : VersionMacro) : m.bytes ≠ [] ∧ Bytes.newline ∉ m.bytes := by
  cases m <;> decide

theorem definedWithin {line : Bytes} {d : Define} (h : Define.ofLine? line = some d) :
    d.name <:+: line := by
  simp only [Define.ofLine?, bind, Option.bind_eq_some_iff, Bytes.afterIff] at h
  obtain ⟨afterHash, start, afterWord, word_, last⟩ := h
  split at last <;> try contradiction
  cases Option.some.inj last
  have name : (Bytes.trimStart afterWord).takeWhile Bytes.isNameByte <:+: afterWord :=
    (List.takeWhile_prefix _).isInfix.trans (List.dropWhile_suffix _).isInfix
  have ends : afterWord <:+ afterHash :=
    (word_ ▸ List.suffix_append word afterWord).trans (List.dropWhile_suffix _)
  have whole : afterHash <:+ Bytes.trim line := start ▸ List.suffix_append hash afterHash
  exact (name.trans (ends.trans whole).isInfix).trans (Bytes.trimInfix line)

theorem readingMentions {m : VersionMacro} {l : Line} {r : Reading} (h : l.reading? m = some r) :
    m.bytes <:+: l.text := by
  obtain ⟨d, defines, -⟩ := readingDefined h
  obtain ⟨defined, same⟩ := ofMacroIff.mp defines
  exact same ▸ definedWithin defined

theorem lineReadingEq (m : VersionMacro) (l : Line) :
    lineReading? m l.before l.text = if underOpener l.before then none else l.reading? m := rfl

theorem placeLine {outer tail passed l : Bytes} (start : Bytes.AtBreak outer)
    (stop : Bytes.AtBreak tail) (before : Bytes.newline ∉ passed) (after : Bytes.newline ∉ l) :
    Place.line ⟨passed ++ outer, l ++ tail⟩ = passed.reverse ++ l ∧
      Place.beforeLine ⟨passed ++ outer, l ++ tail⟩ = outer.reverse := by
  obtain ⟨near, far⟩ := Bytes.breakSplit before start
  obtain ⟨here, -⟩ := Bytes.breakSplit after stop
  exact ⟨by rw [Place.line, near, here], by rw [Place.beforeLine, far]⟩

section
variable {needle : Bytes} {α : Type} {f : Place → Option α} {found : Option α}
variable {outer tail text : Bytes}

/- The places in a line see the same line and the same text before it, so to search them is to ask
whether there is one. `passed` is the part of the line already gone through, nearest byte first. -/
theorem placesWithin (some : needle ≠ []) (plain : Bytes.newline ∉ needle)
    (start : Bytes.AtBreak outer) (stop : Bytes.AtBreak tail) (inner : Bytes.newline ∉ text)
    (same : ∀ p : Place, p.line = text → p.beforeLine = outer.reverse → f p = found)
    (l passed : Bytes) (skip : Nat) (whole : text = passed.reverse ++ l)
    (short : skip ≤ l.length) :
    (placesFrom needle skip (passed ++ outer) (l ++ tail)).findSome? f =
      (if needle <:+: l.drop skip then found else none).or
        ((placesFrom needle 0 (text.reverse ++ outer) tail).findSome? f) := by
  induction l generalizing passed skip with
  | nil =>
    cases Nat.le_zero.mp short
    have absent : ¬needle <:+: [] := fun inside => some (List.infix_nil.mp inside)
    rw [List.drop_nil, if_neg absent, Option.none_or, whole, List.append_nil, List.reverse_reverse,
      List.nil_append]
  | cons b l ih =>
    have onward : text = (b :: passed).reverse ++ l := by
      rw [whole, List.reverse_cons, List.append_assoc, List.singleton_append]
    cases skip with
    | succ skip => exact ih _ skip onward (Nat.le_of_succ_le_succ short)
    | zero =>
      have reach : needle <+: b :: (l ++ tail) ↔ needle <+: b :: l :=
        Bytes.prefixWithin (l := b :: l) plain stop
      rw [List.drop_zero, List.cons_append, placesFrom]
      split
      · rename_i front
        have inside := reach.mp (List.isPrefixOf_iff_prefix.mp front)
        have positive := List.length_pos_iff.mpr some
        have fits := inside.length_le
        rw [List.length_cons] at fits
        have plainPassed : Bytes.newline ∉ passed := fun mem =>
          inner (whole ▸ List.mem_append_left _ (List.mem_reverse.mpr mem))
        have plainRest : Bytes.newline ∉ b :: l := fun mem =>
          inner (whole ▸ List.mem_append_right _ mem)
        obtain ⟨line, before⟩ := placeLine start stop plainPassed plainRest
        have hit : f ⟨passed ++ outer, b :: (l ++ tail)⟩ = found :=
          same _ (line.trans whole.symm) before
        have others := ih _ (needle.length - 1) onward (by omega)
        rw [List.findSome?_cons, hit, if_pos inside.isInfix]
        -- All places of the line read the same: where this one reads nothing, the others do too.
        cases found with
        | none => rw [ite_self] at others; exact others
        | some r => rfl
      · rename_i front
        have absent : ¬needle <+: b :: l := fun inside =>
          front (List.isPrefixOf_iff_prefix.mpr (reach.mpr inside))
        have later : needle <:+: b :: l ↔ needle <:+: l :=
          List.infix_cons_iff.trans (or_iff_right absent)
        have others := ih _ 0 onward (Nat.zero_le _)
        rw [List.drop_zero] at others
        simp only [later]
        exact others

end

theorem placesInLine (m : VersionMacro) {outer tail l : Bytes} (start : Bytes.AtBreak outer)
    (stop : Bytes.AtBreak tail) (inner : Bytes.newline ∉ l) :
    (placesFrom m.bytes 0 outer (l ++ tail)).findSome?
        (fun p => lineReading? m p.beforeLine p.line) =
      (lineReading? m outer.reverse l).or ((placesFrom m.bytes 0 (l.reverse ++ outer) tail).findSome?
        (fun p => lineReading? m p.beforeLine p.line)) := by
  obtain ⟨some, plain⟩ := macroBytes m
  have same (p : Place) (line : p.line = l) (before : p.beforeLine = outer.reverse) :
      lineReading? m p.beforeLine p.line = lineReading? m outer.reverse l := by
    rw [line, before]
  have searched := placesWithin some plain start stop inner same l [] 0 rfl (Nat.zero_le _)
  rw [List.drop_zero] at searched
  refine searched.trans ?_
  split
  · rfl
  · rename_i absent
    have nothing : lineReading? m outer.reverse l = none := by
      rw [lineReadingEq m ⟨outer.reverse, l⟩]
      cases reads : Line.reading? m ⟨outer.reverse, l⟩ with
      | none => exact ite_self _
      | some r => exact absurd (readingMentions reads) absent
    rw [nothing]

theorem placesLines (m : VersionMacro) {v : Bytes} {texts : List Bytes}
    (h : Bytes.Lined v texts) {outer : Bytes} (start : Bytes.AtBreak outer) :
    (placesFrom m.bytes 0 outer v).findSome? (fun p => lineReading? m p.beforeLine p.line) =
      scanFrom m outer.reverse texts := by
  induction h generalizing outer with
  | @last l inner =>
    have none : Bytes.AtBreak [] := nofun
    have read := placesInLine m start none inner
    rw [List.append_nil] at read
    exact read
  | @ended l v more inner rest ih =>
    have away : (m.bytes.isPrefixOf (Bytes.newline :: v)) = false := by
      cases m <;> rfl
    rw [placesInLine m start (Bytes.newlineBreak v) inner, placesFrom, away, scanFrom]
    simp only [Bool.false_eq_true, if_false]
    rw [ih (Bytes.newlineBreak (l.reverse ++ outer)), List.reverse_cons, List.reverse_append,
      List.reverse_reverse]

theorem lookupScan (m : VersionMacro) (header : Bytes) : lookup m header = scanLines m header :=
  placesLines m (Bytes.lined header) nofun

theorem scanFirst (m : VersionMacro) (before : Bytes) (texts : List Bytes) (r : Reading) :
    scanFrom m before texts = some r ↔
      First m (fun l => underOpener l.before = false) (linesFrom before texts) r := by
  induction texts generalizing before with
  | nil => exact ⟨nofun, nofun⟩
  | cons text more ih =>
    rw [scanFrom, Option.or_eq_some_iff, ih, linesFrom, firstCons,
      lineReadingEq m ⟨before, text⟩]
    cases underOpener before <;> simp

theorem lookupFirst (m : VersionMacro) (header : Bytes) (r : Reading) :
    lookup m header = some r ↔
      First m (fun l => underOpener l.before = false) (linesOf header) r := by
  rw [lookupScan]
  exact scanFirst m [] (Bytes.lines header) r

end ScanEngine.Header
