import ScanEngine.Proofs.Header.LineScan
import ScanEngine.Proofs.Header.Numerals

/-! Define lines as a layout writes them. Whatever the layout, the line reads back as the define of
its macro with its component: the blanks that separate the parts are skipped, and the value ends
where the blanks before the remark begin. -/
namespace ScanEngine.Header

theorem defineSpelled {line hashGap wordGap name tail : Bytes}
    (trimmed : Bytes.trim line = hash ++ (hashGap ++ (word ++ (wordGap ++ (name ++ tail)))))
    (left : ∀ b ∈ hashGap, Bytes.isBlank b) (right : ∀ b ∈ wordGap, Bytes.isBlank b)
    (separated : wordGap ≠ []) (solid : Bytes.Solid name)
    (letters : ∀ b ∈ name, Bytes.isNameByte b)
    (stop : ∀ b ∈ tail.head?, Bytes.isNameByte b = false) :
    Define.ofLine? line = some ⟨name, tail⟩ := by
  have wordFront : Bytes.trimStart (hashGap ++ (word ++ (wordGap ++ (name ++ tail)))) =
      word ++ (wordGap ++ (name ++ tail)) := by
    rw [Bytes.trimStartSkips left]
    exact Bytes.trimStartKeeps ⟨0x64, rfl, rfl⟩
  have nameFront : Bytes.trimStart (wordGap ++ (name ++ tail)) = name ++ tail := by
    obtain ⟨b, first, plain⟩ := solid.front
    rw [Bytes.trimStartSkips right]
    exact Bytes.trimStartKeeps ⟨b, by rw [List.head?_append, first, Option.some_or], plain⟩
  have gap : ((wordGap ++ (name ++ tail)).head?.map Bytes.isBlank).getD false = true := by
    cases wordGap with
    | nil => exact absurd rfl separated
    | cons b rest => exact right b List.mem_cons_self
  obtain ⟨named, rest⟩ := Bytes.runSplit letters stop
  simp only [Define.ofLine?, bind, trimmed, Bytes.afterIff.mpr rfl, Option.bind_some, wordFront,
    nameFront, gap, if_true, named, rest]

theorem remarkCut {gap : Bytes} (spaces : ∀ b ∈ gap, isSpace b) (r : Option Remark) :
    ∃ kept cut, Bytes.trimEnd (gap ++ (r.map Remark.bytes).getD []) = kept ++ cut ∧
      (∀ b ∈ kept, isSpace b) ∧ ∀ b ∈ cut.head?, b = slash := by
  cases r with
  | none =>
    have trimmed := Bytes.trimEndSkips (fun b mem => (spaceBlank (spaces b mem)).1) []
    refine ⟨[], [], ?_, nofun, nofun⟩
    rw [Option.map_none, Option.getD_none, List.append_nil]
    exact trimmed
  | some r =>
    obtain ⟨more, opens⟩ : ∃ more, r.bytes = slash :: more := by cases r <;> exact ⟨_, rfl⟩
    have last : ∃ b, (gap ++ [slash]).getLast? = some b ∧ Bytes.isBlank b = false :=
      ⟨slash, List.getLast?_concat, rfl⟩
    have trimmed := Bytes.trimEndKeeps last more
    rw [List.append_assoc, List.append_assoc, List.singleton_append, List.singleton_append] at trimmed
    refine ⟨gap, slash :: Bytes.trimEnd more, ?_, spaces, fun b first => ?_⟩
    · rw [Option.map_some, Option.getD_some, opens]
      exact trimmed
    · exact (Option.some.inj first).symm

theorem macroName (m : VersionMacro) :
    Bytes.Solid m.bytes ∧ ∀ b ∈ m.bytes, Bytes.isNameByte b ∧ b ≠ slash ∧ b ≠ Bytes.newline := by
  cases m
  all_goals exact ⟨⟨⟨_, rfl, rfl⟩, ⟨_, rfl, rfl⟩⟩, by decide⟩

section
variable {l : Layout} (m : VersionMacro) (n : UInt32)

def Layout.stated (l : Layout) (m : VersionMacro) (n : UInt32) : Bytes :=
  l.indent ++ hash ++ l.hashGap ++ word ++ l.wordGap ++ m.bytes ++ l.nameGap ++ l.value n ++
    l.valueGap

theorem lineStated : l.line m n = l.stated m n ++ (l.remark.map Remark.bytes).getD [] := rfl

theorem enclosedPlain {v : Bytes} (inner : ∀ b ∈ v, b ≠ slash ∧ b ≠ Bytes.newline)
    {parens : List (Bytes × Bytes)}
    (spaces : ∀ pair ∈ parens, ∀ b ∈ pair.1 ++ pair.2, isSpace b) :
    ∀ b ∈ enclose v parens, b ≠ slash ∧ b ≠ Bytes.newline := by
  induction parens with
  | nil => exact inner
  | cons pair parens ih =>
    obtain ⟨outer, spaces⟩ := List.forall_mem_cons.mp spaces
    have plain (b : UInt8) (mem : b ∈ pair.1 ++ pair.2) : b ≠ slash ∧ b ≠ Bytes.newline :=
      (spaceBlank (outer b mem)).2.imp_right And.left
    intro b mem
    rw [enclose] at mem
    simp only [List.cons_append, List.mem_cons, List.mem_append, List.not_mem_nil, or_false] at mem
    obtain rfl | ((left | nested) | right) | rfl := mem
    · decide
    · exact plain b (List.mem_append_left _ left)
    · exact ih spaces b nested
    · exact plain b (List.mem_append_right _ right)
    · decide

theorem valuePlain (valid : l.Valid) : ∀ b ∈ l.value n, b ≠ slash ∧ b ≠ Bytes.newline := by
  refine enclosedPlain (fun b mem => ?_) valid.inner
  rcases List.mem_append.mp mem with digit | letter
  · have decimal : Bytes.isDigit b := (List.mem_append.mp digit).elim
      (fun zero => List.eq_of_mem_replicate zero ▸ rfl) (decimalDigitsOnly _ b)
    exact (digitPlain decimal).2.2
  · exact (suffixPlain (valid.letters b letter)).2.2

theorem gapSpaces (valid : l.Valid) :
    (∀ b ∈ l.indent, isSpace b) ∧ (∀ b ∈ l.hashGap, isSpace b) ∧ (∀ b ∈ l.wordGap, isSpace b) ∧
      (∀ b ∈ l.nameGap, isSpace b) ∧ ∀ b ∈ l.valueGap, isSpace b := by
  have spaces := valid.spaces
  simp only [List.forall_mem_cons] at spaces
  obtain ⟨indent, hashGap, wordGap, nameGap, valueGap, -⟩ := spaces
  exact ⟨indent, hashGap, wordGap, nameGap, valueGap⟩

theorem statedPlain (valid : l.Valid) :
    ∀ b ∈ l.stated m n, b ≠ slash ∧ b ≠ Bytes.newline := by
  obtain ⟨indent, hashGap, wordGap, nameGap, valueGap⟩ := gapSpaces valid
  have plain {b : UInt8} (space : isSpace b) : b ≠ slash ∧ b ≠ Bytes.newline :=
    (spaceBlank space).2.imp_right And.left
  have marks : ∀ b ∈ hash ++ word, b ≠ slash ∧ b ≠ Bytes.newline := by decide
  intro b mem
  simp only [Layout.stated, List.mem_append] at mem
  obtain (((((((mem | mem) | mem) | mem) | mem) | mem) | mem) | mem) | mem := mem
  · exact plain (indent b mem)
  · exact marks b (List.mem_append_left _ mem)
  · exact plain (hashGap b mem)
  · exact marks b (List.mem_append_right _ mem)
  · exact plain (wordGap b mem)
  · exact ((macroName m).2 b mem).2
  · exact plain (nameGap b mem)
  · exact valuePlain n valid b mem
  · exact plain (valueGap b mem)

theorem layoutTrimmed (valid : l.Valid) :
    ∃ kept cut, Bytes.trim (l.line m n) = hash ++ (l.hashGap ++ (word ++ (l.wordGap ++
        (m.bytes ++ (l.nameGap ++ l.value n ++ kept ++ cut))))) ∧
      (∀ b ∈ kept, isSpace b) ∧ ∀ b ∈ cut.head?, b = slash := by
  obtain ⟨indent, -, -, -, valueGap⟩ := gapSpaces valid
  obtain ⟨kept, cut, trimmed, spaces, opens⟩ := remarkCut valueGap l.remark
  refine ⟨kept, cut, ?_, spaces, opens⟩
  have parts : l.line m n = l.indent ++ ((hash ++ (l.hashGap ++ (word ++ (l.wordGap ++
      (m.bytes ++ (l.nameGap ++ l.value n)))))) ++
      (l.valueGap ++ (l.remark.map Remark.bytes).getD [])) := by
    simp only [Layout.line, List.append_assoc]
  have ends : ∃ b, (hash ++ (l.hashGap ++ (word ++ (l.wordGap ++ (m.bytes ++ (l.nameGap ++
      l.value n)))))).getLast? = some b ∧ Bytes.isBlank b = false := by
    obtain ⟨b, last, solid⟩ := (numeralSolid (layoutNumeral valid n)).back
    exact ⟨b, by simp only [List.getLast?_append, last, Option.some_or], solid⟩
  rw [parts, Bytes.trim, Bytes.trimStartSkips fun b mem => (spaceBlank (indent b mem)).1,
    Bytes.trimStartKeeps ⟨0x23, rfl, rfl⟩, Bytes.trimEndKeeps ends, trimmed]
  simp only [List.append_assoc]

theorem layoutValue (valid : l.Valid) {kept cut : Bytes} (spaces : ∀ b ∈ kept, isSpace b)
    (opens : ∀ b ∈ cut.head?, b = slash) :
    Define.value ⟨m.bytes, l.nameGap ++ l.value n ++ kept ++ cut⟩ = l.value n := by
  obtain ⟨-, -, -, nameGap, -⟩ := gapSpaces valid
  have uncut : ∀ b ∈ l.nameGap ++ l.value n ++ kept, (b != slash) = true := by
    intro b mem
    simp only [List.mem_append] at mem
    rw [bne_iff_ne]
    obtain (mem | mem) | mem := mem
    · exact (spaceBlank (nameGap b mem)).2.1
    · exact (valuePlain n valid b mem).1
    · exact (spaceBlank (spaces b mem)).2.1
  have cutThere : ∀ b ∈ cut.head?, (b != slash) = false := fun b first =>
    bne_eq_false_iff_eq.mpr (opens b first)
  rw [Define.value, (Bytes.runSplit uncut cutThere).1]
  exact Bytes.trimPadded (fun b mem => (spaceBlank (nameGap b mem)).1)
    (numeralSolid (layoutNumeral valid n)) (fun b mem => (spaceBlank (spaces b mem)).1)

theorem layoutReads (valid : l.Valid) (before : Bytes) :
    Line.reading? m ⟨before, l.line m n⟩ = some (.number n) := by
  obtain ⟨-, hashGap, wordGap, nameGap, -⟩ := gapSpaces valid
  obtain ⟨kept, cut, line, spaces, opens⟩ := layoutTrimmed m n valid
  have stop : ∀ b ∈ (l.nameGap ++ l.value n ++ kept ++ cut).head?,
      Bytes.isNameByte b = false := by
    cases name : l.nameGap with
    | nil => exact absurd name valid.separated.2
    | cons c rest =>
      rintro b ⟨⟩
      exact (spaceBlank (nameGap c (name ▸ List.mem_cons_self))).2.2.2
  have defined : Define.ofLine? (l.line m n) =
      some ⟨m.bytes, l.nameGap ++ l.value n ++ kept ++ cut⟩ :=
    defineSpelled line (fun b mem => (spaceBlank (hashGap b mem)).1)
      (fun b mem => (spaceBlank (wordGap b mem)).1) valid.separated.1 (macroName m).1
      (fun b mem => ((macroName m).2 b mem).1) stop
  simp only [Line.reading?, defined, if_true, layoutValue m n valid spaces opens,
    Reading.ofValue, readNumeral (layoutNumeral valid n)]

end

end ScanEngine.Header
