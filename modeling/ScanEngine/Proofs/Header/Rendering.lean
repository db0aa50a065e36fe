import ScanEngine.Proofs.Header.Layouts

/-! Rendering a version and reading it back. Every opener in a rendered header is closed before its
line ends, so no line is under one; each define line reads as its macro's component, and no other
line defines a macro. So the search finds for every macro what was rendered, wherever it stands. -/
namespace ScanEngine.Header

def Settled (before : Bytes) : Prop :=
  ∀ rest, blockOpener ++ rest <:+ before → blockCloser <:+: rest

theorem settledSeen {before : Bytes} (h : Settled before) : underOpener before = false := by
  rw [← Bool.not_eq_true, underOpenerIff]
  rintro ⟨rest, found, unclosed⟩
  exact unclosed (h rest found)

theorem settledWithout {b : UInt8} {v : Bytes} (needed : b ∈ blockOpener) (absent : b ∉ v) :
    Settled v :=
  fun _ found => absurd (found.subset (List.mem_append_left _ needed)) absent

theorem settledAppend {a b : Bytes} (first : Settled a) (second : Settled b)
    (apart : a.getLast? = some slash → b.head? ≠ some star) : Settled (a ++ b) := by
  intro rest found
  rcases Bytes.pairFollowed found with here | ⟨inner, rfl, before⟩ | ⟨last, next⟩
  · exact second rest here
  · exact List.infix_append_of_infix_left (first inner before)
  · exact absurd next (apart last)

theorem settledRemark {r : Remark}
    (plain : ∀ b ∈ r.text, b ≠ Bytes.newline ∧ b ≠ slash ∧ b ≠ star) : Settled r.bytes := by
  cases r with
  | line text =>
    refine settledWithout (b := star) (by decide) fun mem => ?_
    obtain _ | ⟨_, _ | ⟨_, mem⟩⟩ := mem
    exact (plain star mem).2.2 rfl
  | block text =>
    have inner : Settled (star :: text ++ [star] ++ [slash]) := by
      refine settledAppend (settledWithout (b := slash) (by decide) fun mem => ?_)
        (settledWithout (b := star) (by decide) (by decide)) fun last => ?_
      · simp only [List.cons_append, List.mem_cons, List.mem_append, List.not_mem_nil,
          or_false] at mem
        obtain same | inside | same := mem
        · cases same
        · exact (plain slash inside).2.1 rfl
        · cases same
      · rw [List.getLast?_concat] at last
        cases last
    intro rest found
    have whole : Remark.bytes (.block text) = slash :: (star :: text ++ [star] ++ [slash]) := by
      simp [Remark.bytes, blockOpener, blockCloser]
    rw [whole] at found
    rcases List.suffix_cons_iff.mp found with here | later
    · have rest_ : rest = text ++ blockCloser := by simpa [blockOpener, blockCloser] using here
      exact rest_ ▸ (List.suffix_append text blockCloser).isInfix
    · exact inner rest later

namespace Item
variable {item : Item} (v : Version)

theorem lineSettled (valid : item.Valid) : Settled (item.line v) := by
  cases item with
  | define m l =>
    have quiet : slash ∉ l.stated m (component v m) := fun mem =>
      (statedPlain m _ valid slash mem).1 rfl
    have stated : Settled (l.stated m (component v m)) := settledWithout (by decide) quiet
    rw [line, lineStated]
    cases remark : l.remark with
    | none => exact (List.append_nil (l.stated m (component v m))).symm ▸ stated
    | some r =>
      exact settledAppend stated (settledRemark (valid.plain r remark)) fun last =>
        absurd (List.mem_of_getLast? last) quiet
  | other text =>
    intro rest found
    have opener : blockOpener <:+: text :=
      (List.prefix_append blockOpener rest).isInfix.trans found.isInfix
    rw [← Bytes.containsIff, valid.2.1] at opener
    cases opener

theorem linePlain (valid : item.Valid) : Bytes.newline ∉ item.line v := by
  cases item with
  | define m l =>
    rw [line, lineStated, List.mem_append]
    rintro (mem | mem)
    · exact (statedPlain m _ valid _ mem).2 rfl
    · cases remark : l.remark with
      | none => rw [remark] at mem; cases mem
      | some r =>
        rw [remark] at mem
        have text : Bytes.newline ∈ r.text := by
          cases r <;> simpa [Remark.bytes, Remark.text, blockOpener, blockCloser, slash, star,
            Bytes.newline] using mem
        exact (valid.plain r remark _ text).1 rfl
  | other text => exact valid.1

end Item

theorem readingOther {m other : VersionMacro} {l : Line} {r : Reading}
    (reads : l.reading? m = some r) (differ : m ≠ other) : l.reading? other = none := by
  have names : m.bytes ≠ other.bytes := by cases m <;> cases other <;> first | decide | contradiction
  unfold Line.reading? at reads ⊢
  split at reads
  · cases reads
  · rename_i d defined
    split at reads
    · rename_i same
      exact if_neg fun second => names (same.symm.trans second)
    · cases reads

theorem itemReads {item : Item} (valid : item.Valid) (v : Version) (m : VersionMacro)
    {feed : Bytes} (blank : ∀ b ∈ feed, Bytes.isBlank b) (before : Bytes) :
    Line.reading? m ⟨before, item.line v ++ feed⟩ =
      if item.macro? = some m then some (.number (Item.component v m)) else none := by
  have fed : Line.reading? m ⟨before, item.line v ++ feed⟩ =
      Line.reading? m ⟨before, item.line v⟩ := by
    unfold Line.reading? Define.ofLine?
    rw [Bytes.trimSkips blank]
  rw [fed]
  cases item with
  | define mine l =>
    have reads := layoutReads mine (Item.component v mine) valid before
    split
    · rename_i same
      cases same
      exact reads
    · rename_i other
      exact readingOther reads fun same => other (congrArg some same)
  | other text =>
    rw [if_neg nofun, Line.reading?, Item.line]
    split
    · rfl
    · rename_i d defined
      exact if_neg (valid.2.2 d defined m)

def carriage (feed : Bool) : Bytes := if feed then [0x0d] else []

theorem carriageBlank (feed : Bool) : ∀ b ∈ carriage feed, Bytes.isBlank b := by
  cases feed <;> decide

theorem carriagePlain (feed : Bool) : slash ∉ carriage feed ∧ Bytes.newline ∉ carriage feed ∧
    (carriage feed).head? ≠ some star := by
  cases feed <;> decide

theorem renderNext (v : Version) {closed : Bool} (item : Item) (feed : Bool)
    {rest : List (Item × Bool)} (ends : closed = true ∨ rest ≠ []) :
    render v closed ((item, feed) :: rest) =
      item.line v ++ carriage feed ++ Bytes.newline :: render v closed rest := by
  have feeds : render.lineEnd feed = carriage feed ++ [Bytes.newline] := by cases feed <;> rfl
  have joined : item.line v ++ render.lineEnd feed ++ render v closed rest =
      item.line v ++ carriage feed ++ Bytes.newline :: render v closed rest := by
    rw [feeds]
    simp only [List.append_assoc, List.singleton_append]
  rw [← joined]
  cases rest with
  | nil =>
    cases ends.resolve_right fun some => some rfl
    exact (List.append_nil _).symm
  | cons next rest => rfl

structure Ready (before : Bytes) : Prop where
  settled : Settled before
  whole : before.getLast? ≠ some slash

theorem readyNext {before : Bytes} (ready : Ready before) {item : Item} (valid : item.Valid)
    (v : Version) (feed : Bool) :
    Ready (before ++ (item.line v ++ carriage feed) ++ [Bytes.newline]) := by
  obtain ⟨quiet, -, head⟩ := carriagePlain feed
  have text : Settled (item.line v ++ carriage feed) :=
    settledAppend (Item.lineSettled v valid) (settledWithout (by decide) quiet) fun _ => head
  have joined : Settled (before ++ (item.line v ++ carriage feed)) :=
    settledAppend ready.settled text fun last => absurd last ready.whole
  refine ⟨settledAppend joined (settledWithout (b := slash) (by decide) (by decide)) fun _ => nofun,
    ?_⟩
  rw [List.getLast?_concat]
  decide

def rendered (items : List (Item × Bool)) : List VersionMacro := items.filterMap fun i => i.1.macro?

theorem renderedScan (v : Version) (closed : Bool) (m : VersionMacro) {items : List (Item × Bool)}
    (valid : ∀ i ∈ items, i.1.Valid) {before : Bytes} (ready : Ready before) :
    scanFrom m before (Bytes.lines (render v closed items)) =
      if m ∈ rendered items then some (.number (Item.component v m)) else none := by
  induction items generalizing before with
  | nil =>
    have nothing : lineReading? m before [] = none := ite_self _
    exact congrArg (Option.or · none) nothing
  | cons i items ih =>
    obtain ⟨item, feed⟩ := i
    obtain ⟨here, valid⟩ := List.forall_mem_cons.mp valid
    have reads (feed : Bytes) (blank : ∀ b ∈ feed, Bytes.isBlank b) :
        lineReading? m before (item.line v ++ feed) =
          if item.macro? = some m then some (.number (Item.component v m)) else none := by
      rw [lineReadingEq m ⟨before, item.line v ++ feed⟩, if_neg (by simp [settledSeen ready.settled])]
      exact itemReads here v m blank before
    have among : m ∈ rendered ((item, feed) :: items) ↔
        item.macro? = some m ∨ m ∈ rendered items := by
      simp [rendered, List.mem_filterMap]
    -- Only the last line may lack its newline, and then no empty line stands behind it.
    by_cases ends : closed = true ∨ items ≠ []
    · have plain : Bytes.newline ∉ item.line v ++ carriage feed := fun mem =>
        (List.mem_append.mp mem).elim (Item.linePlain v here) (carriagePlain feed).2.1
      rw [renderNext v item feed ends, Bytes.linesEnded plain, scanFrom,
        reads _ (carriageBlank feed), ih valid (readyNext ready here v feed)]
      simp only [among]
      by_cases mine : item.macro? = some m <;> simp [mine]
    · obtain ⟨open_, rfl⟩ := not_or.mp ends |>.imp_right not_not.mp
      have alone : render v closed [(item, feed)] = item.line v := by
        rw [render, if_neg open_, List.append_nil]
      have text := reads [] (List.forall_mem_nil _)
      rw [List.append_nil] at text
      rw [alone, (Bytes.Lined.last (Item.linePlain v here)).lines, scanFrom, scanFrom, text,
        Option.or_none]
      simp [rendered]

theorem renderedFound (v : Version) (closed : Bool) (m : VersionMacro) {items : List (Item × Bool)}
    (valid : ∀ i ∈ items, i.1.Valid) :
    lookup m (render v closed items) =
      if m ∈ rendered items then some (.number (Item.component v m)) else none := by
  rw [lookupScan]
  exact renderedScan v closed m valid ⟨settledWithout (b := slash) (by decide) nofun, nofun⟩

theorem macroValueRendered (v : Version) (closed : Bool) (m : VersionMacro)
    {items : List (Item × Bool)} (valid : ∀ i ∈ items, i.1.Valid) :
    Version.macroValue? m (render v closed items) =
      .ok (if m ∈ rendered items then some (Item.component v m) else none) := by
  rw [Version.macroValue?, renderedFound v closed m valid]
  by_cases stated : m ∈ rendered items
  · rw [if_pos stated, if_pos stated]
  · rw [if_neg stated, if_neg stated]

theorem requiredRendered (v : Version) (closed : Bool) {m : VersionMacro}
    {items : List (Item × Bool)} (valid : ∀ i ∈ items, i.1.Valid) (stated : m ∈ rendered items) :
    Version.requiredValue m (render v closed items) = .ok (Item.component v m) := by
  have found := macroValueRendered v closed m valid
  rw [if_pos stated] at found
  exact Version.requiredFound found

theorem checkOutcome (v : Version) :
    (v.major = 4 → v.check = .ok .supported) ∧ (4 < v.major → v.check = .ok .newer) ∧
      (v.major < 4 → v.check = .error (.unsupported v 4)) := by
  have order : compare v.major Version.supportedMajor = compareOfLessAndEq v.major 4 := rfl
  unfold Version.check
  rw [order, compareOfLessAndEq]
  refine ⟨fun same => ?_, fun above => ?_, fun below => ?_⟩
  · rw [same]
    rfl
  · rw [if_neg (UInt32.not_lt.mpr (UInt32.le_of_lt above)), if_neg (UInt32.ne_of_lt above).symm]
  · rw [if_pos below]
    rfl

/- Reading undoes rendering, whatever the layouts, the other lines and the order. A macro may be
defined more than once. -/
theorem renderedVersionReadsBack (v : Version) (closed : Bool) (items : List (Item × Bool))
    (valid : ∀ i ∈ items, i.1.Valid) (major : .major ∈ rendered items)
    (minor : .minor ∈ rendered items) (micro : .micro ∈ rendered items ∨ v.micro = 0) :
    Version.ofHeader (render v closed items) = .ok v ∧
      (v.major = 4 → Version.checkHeader (render v closed items) = .ok (v, .supported)) ∧
      (4 < v.major → Version.checkHeader (render v closed items) = .ok (v, .newer)) ∧
      (v.major < 4 → Version.checkHeader (render v closed items) = .error (.unsupported v 4)) := by
  have last : (if .micro ∈ rendered items then some v.micro else none).getD 0 = v.micro := by
    split
    · rfl
    · rename_i absent
      exact (micro.resolve_left absent).symm
  have read : Version.ofHeader (render v closed items) = .ok v := by
    rw [Version.ofHeader, requiredRendered v closed valid major,
      requiredRendered v closed valid minor, macroValueRendered v closed .micro valid]
    exact congrArg (fun micro => (.ok ⟨v.major, v.minor, micro⟩ : Except VersionError Version)) last
  obtain ⟨supported, newer, older⟩ := checkOutcome v
  have checked : Version.checkHeader (render v closed items) =
      v.check >>= fun compatibility => .ok (v, compatibility) := by
    rw [Version.checkHeader, read]
    rfl
  refine ⟨read, fun same => ?_, fun above => ?_, fun below => ?_⟩
  · rw [checked, supported same]
    rfl
  · rw [checked, newer above]
    rfl
  · rw [checked, older below]
    rfl

instance (l : Layout) : Decidable l.Valid :=
  decidable_of_iff
    ((∀ gap ∈ [l.indent, l.hashGap, l.wordGap, l.nameGap, l.valueGap], ∀ b ∈ gap, isSpace b) ∧
      (l.wordGap ≠ [] ∧ l.nameGap ≠ []) ∧
      (∀ pair ∈ l.parens, ∀ b ∈ pair.1 ++ pair.2, isSpace b) ∧ (∀ b ∈ l.suffix, isSuffix b) ∧
      ∀ r ∈ l.remark, ∀ b ∈ r.text, b ≠ Bytes.newline ∧ b ≠ slash ∧ b ≠ star)
    ⟨fun ⟨spaces, separated, inner, letters, plain⟩ => ⟨spaces, separated, inner, letters, plain⟩,
      fun ⟨spaces, separated, inner, letters, plain⟩ => ⟨spaces, separated, inner, letters, plain⟩⟩

instance (p : VersionMacro → Prop) [DecidablePred p] : Decidable (∀ m, p m) :=
  decidable_of_iff (∀ m ∈ VersionMacro.all, p m)
    ⟨fun all m => all m (by cases m <;> decide), fun all m _ => all m⟩

instance : DecidablePred Item.Valid
  | .define _ l => inferInstanceAs (Decidable l.Valid)
  | .other line => inferInstanceAs (Decidable (Bytes.newline ∉ line ∧
      Bytes.contains blockOpener line = false ∧
      ∀ d ∈ Define.ofLine? line, ∀ m : VersionMacro, d.name ≠ m.bytes))

def oddLayout : Layout where
  indent := Bytes.ofAscii " "
  hashGap := Bytes.ofAscii "\t"
  wordGap := Bytes.ofAscii "  "
  nameGap := Bytes.ofAscii "\t"
  parens := [(Bytes.ofAscii " ", []), ([], Bytes.ofAscii " ")]
  zeros := 2
  suffix := Bytes.ofAscii "uL"
  valueGap := Bytes.ofAscii " "
  remark := some (.block (Bytes.ofAscii " was 3 "))

def oddItems : List (Item × Bool) :=
  [(.other (Bytes.ofAscii "// YR_MAJOR_VERSION YR_MINOR_VERSION"), true),
    (.define .minor { oddLayout with remark := some (.line (Bytes.ofAscii " YR_MAJOR_VERSION")) }, true),
    (.other (Bytes.ofAscii "#define YR_MAJOR_VERSION_TEXT 3"), false), (.define .major oddLayout, false)]

theorem oddItemsReadBack :
    (∀ i ∈ oddItems, i.1.Valid) ∧ .major ∈ rendered oddItems ∧ .minor ∈ rendered oddItems ∧
      Version.ofHeader (render ⟨4, 5, 0⟩ false oddItems) = .ok ⟨4, 5, 0⟩ ∧
      Version.checkHeader (render ⟨4, 5, 0⟩ false oddItems) = .ok (⟨4, 5, 0⟩, .supported) := by
  have valid : ∀ i ∈ oddItems, i.1.Valid := by decide +kernel
  have major : .major ∈ rendered oddItems := by decide
  have minor : .minor ∈ rendered oddItems := by decide
  obtain ⟨read, supported, -, -⟩ :=
    renderedVersionReadsBack ⟨4, 5, 0⟩ false oddItems valid major minor (.inr rfl)
  exact ⟨valid, major, minor, read, supported rfl⟩

end ScanEngine.Header
