import Mathlib.Data.List.Induction
import ScanEngine.Proofs.Header.LineScan
import ScanEngine.Version

/-! Block comments as a reader from the left sees them, against openers as `underOpener` sees them. The
reader is in a block comment when an opener met in code has no closer after it; a text is under an
opener when any opener has none. So every line in a block comment is under an opener, and a line
outside is under one only after a stray opener, one that opened nothing because it was met inside
another comment. A define in a block comment is never used. A define after a stray opener is passed
over though it counts. -/
namespace ScanEngine.Header

def OpenBlock (before rest : Bytes) : Prop :=
  ∃ front, before = front ++ blockOpener ++ rest ∧ modeAfter front = .code ∧ ¬blockCloser <:+: rest

theorem closedByLast {rest : Bytes} {b : UInt8} (closed : blockCloser <:+: rest ++ [b])
    (unclosed : ¬blockCloser <:+: rest) : b = slash ∧ rest.getLast? = some star := by
  rcases Bytes.pairAcross closed with inside | alone | ⟨last, next⟩
  · exact absurd inside unclosed
  · have short := alone.length_le
    simp at short
  · exact ⟨Option.some.inj next, last⟩

theorem openBlockMore {before rest : Bytes} {b : UInt8} (h : OpenBlock before rest)
    (still : b = slash → rest.getLast? ≠ some star) : OpenBlock (before ++ [b]) (rest ++ [b]) := by
  obtain ⟨front, rfl, code, unclosed⟩ := h
  refine ⟨front, (List.append_assoc _ _ _), code, fun closed => ?_⟩
  obtain ⟨last, ends⟩ := closedByLast closed unclosed
  exact still last ends

def Mode.Tells (before : Bytes) : Mode → Prop
  | .code | .line => True
  | .afterSlash => ∃ front, before = front ++ [slash] ∧ modeAfter front = .code
  | .block => ∃ rest, OpenBlock before rest ∧ rest.getLast? ≠ some star
  | .afterStar => ∃ rest, OpenBlock before rest

theorem modeTellsNext {before : Bytes} {mode : Mode} (now : modeAfter before = mode)
    (tells : mode.Tells before) (b : UInt8) : (mode.step b).Tells (before ++ [b]) := by
  have lastOf {rest : Bytes} (other : b ≠ star) : (rest ++ [b]).getLast? ≠ some star := by
    rw [List.getLast?_concat]
    exact fun same => other (Option.some.inj same)
  cases mode with
  | code =>
    rw [Mode.step]
    split
    · rename_i slashed
      subst slashed
      exact ⟨before, rfl, now⟩
    · trivial
  | afterSlash =>
    obtain ⟨front, rfl, code⟩ := tells
    rw [Mode.step]
    split
    · trivial
    · split
      · rename_i starred
        subst starred
        refine ⟨[], ⟨front, ?_, code, by decide⟩, nofun⟩
        rw [List.append_nil, List.append_assoc]
        rfl
      · trivial
  | line =>
    rw [Mode.step]
    split <;> trivial
  | block =>
    obtain ⟨rest, opened, ends⟩ := tells
    have more := openBlockMore (b := b) opened fun _ => ends
    rw [Mode.step]
    split
    · exact ⟨_, more⟩
    · rename_i other
      exact ⟨_, more, lastOf other⟩
  | afterStar =>
    obtain ⟨rest, opened⟩ := tells
    rw [Mode.step]
    split
    · trivial
    · rename_i unslashed
      have more := openBlockMore (b := b) opened fun slashed => absurd slashed unslashed
      split
      · exact ⟨_, more⟩
      · rename_i other
        exact ⟨_, more, lastOf other⟩

theorem modeTells (before : Bytes) : (modeAfter before).Tells before := by
  induction before using List.reverseRecOn with
  | nil => trivial
  | append_singleton before b ih =>
    rw [modeAfterAppend]
    exact modeTellsNext rfl ih b

def Mode.pending : Mode → Bytes
  | .afterStar => [star]
  | .code | .afterSlash | .line | .block => []

theorem unclosedStays {mode : Mode} (inside : mode.inBlock = true) {rest : Bytes}
    (unclosed : ¬blockCloser <:+: mode.pending ++ rest) :
    (rest.foldl Mode.step mode).inBlock = true := by
  induction rest generalizing mode with
  | nil => exact inside
  | cons b rest ih =>
    have shorter : ¬blockCloser <:+: b :: rest := fun closed =>
      unclosed (closed.trans (List.suffix_append _ _).isInfix)
    have next : ¬blockCloser <:+: rest := fun closed => shorter (List.infix_cons closed)
    rw [List.foldl_cons]
    cases mode with
    | code | afterSlash | line => cases inside
    | block =>
      rw [Mode.step]
      split
      · rename_i starred
        subst starred
        exact ih rfl shorter
      · exact ih rfl next
    | afterStar =>
      rw [Mode.step]
      split
      · -- The star is still pending, so that a slash here would close.
        rename_i slashed
        subst slashed
        exact absurd (List.prefix_append [star, slash] rest).isInfix unclosed
      · split
        · rename_i starred
          subst starred
          exact ih rfl shorter
        · exact ih rfl next

theorem inBlockIff {before : Bytes} :
    (modeAfter before).inBlock = true ↔ ∃ rest, OpenBlock before rest := by
  constructor
  · intro inside
    have tells := modeTells before
    cases mode : modeAfter before with
    | code | afterSlash | line => rw [mode] at inside; cases inside
    | block =>
      rw [mode] at tells
      obtain ⟨rest, opened, -⟩ := tells
      exact ⟨rest, opened⟩
    | afterStar => rw [mode] at tells; exact tells
  · rintro ⟨rest, front, rfl, code, unclosed⟩
    rw [modeAfterAppend, modeAfterAppend, code]
    exact unclosedStays rfl unclosed

/- An opener that opened nothing and has no closer after it. -/
def Stray (before : Bytes) : Prop :=
  ∃ front rest, before = front ++ blockOpener ++ rest ∧ modeAfter front ≠ .code ∧
    ¬blockCloser <:+: rest

theorem underOpenerModes {before : Bytes} :
    underOpener before = true ↔ (modeAfter before).inBlock = true ∨ Stray before := by
  rw [underOpenerIff, inBlockIff]
  constructor
  · rintro ⟨rest, ⟨front, rfl⟩, unclosed⟩
    by_cases code : modeAfter front = .code
    · exact .inl ⟨rest, front, (List.append_assoc _ _ _).symm, code, unclosed⟩
    · exact .inr ⟨front, rest, (List.append_assoc _ _ _).symm, code, unclosed⟩
  · rintro (⟨rest, front, rfl, -, unclosed⟩ | ⟨front, rest, rfl, -, unclosed⟩)
    all_goals exact ⟨rest, ⟨front, (List.append_assoc _ _ _).symm⟩, unclosed⟩

def Line.Live (l : Line) : Prop := (modeAfter l.before).inBlock = false

instance : DecidablePred Line.Live := fun l =>
  inferInstanceAs (Decidable ((modeAfter l.before).inBlock = false))

def Line.Seen (l : Line) : Prop := l.Live ∧ ¬Stray l.before

theorem seenIff {l : Line} : underOpener l.before = false ↔ l.Seen := by
  rw [← Bool.not_eq_true, underOpenerModes, not_or, Bool.not_eq_true]
  rfl

theorem lookupSeen (m : VersionMacro) (header : Bytes) (r : Reading) :
    lookup m header = some r ↔ First m Line.Seen (linesOf header) r := by
  rw [lookupFirst, show (fun l : Line => underOpener l.before = false) = Line.Seen from
    funext fun l => propext seenIff]

/- The first live define of a macro is found unless a stray opener stands before it, and then what
counts is the next one seen. -/
theorem liveDefineFoundUnlessStray (m : VersionMacro) (header : Bytes) :
    (∀ r, lookup m header = some r ↔ First m Line.Seen (linesOf header) r) ∧
    ∀ earlier l later r, linesOf header = earlier ++ l :: later →
      (∀ k ∈ earlier, k.Live → k.reading? m = none) → l.Live → l.reading? m = some r →
      (lookup m header = some r ↔ (Stray l.before → First m Line.Seen later r)) := by
  refine ⟨lookupSeen m header, fun earlier l later r split passed live reads => ?_⟩
  rw [lookupSeen, split, firstAppend fun k mem seen => passed k mem seen.1, firstCons]
  by_cases stray : Stray l.before
  · have unseen : ¬l.Seen := fun seen => seen.2 stray
    exact ⟨fun first _ => (first.resolve_left fun here => unseen here.1).2,
      fun next => .inr ⟨fun seen => absurd seen unseen, next stray⟩⟩
  · exact ⟨fun _ strays => absurd strays stray, fun _ => .inl ⟨⟨live, stray⟩, reads⟩⟩

theorem liveDefinePassedOver :
    let header := Bytes.ofAscii
      "// modules/*.c\n#define YR_MAJOR_VERSION 4\n#define YR_MINOR_VERSION 5\n"
    ¬ ∀ r, First .major Line.Live (linesOf header) r → lookup .major header = some r := by
  intro header claim
  have found : lookup .major header = some (.number 4) := claim _ (by decide +kernel)
  have passed : lookup .major header = none := by decide +kernel
  rw [passed] at found
  cases found

theorem lookupLive {m : VersionMacro} {header : Bytes} {r : Reading}
    (found : lookup m header = some r) :
    ∃ l ∈ linesOf header, l.Live ∧ l.reading? m = some r := by
  obtain ⟨l, mem, seen, reads⟩ := firstMember ((lookupSeen m header r).mp found)
  exact ⟨l, mem, seen.1, reads⟩

def CommentedOut (m : VersionMacro) (header : Bytes) : Prop :=
  ∀ l ∈ linesOf header, (Define.ofMacro? m l.text).isSome = true → ¬l.Live

instance (m : VersionMacro) (header : Bytes) : Decidable (CommentedOut m header) :=
  inferInstanceAs (Decidable
    (∀ l ∈ linesOf header, (Define.ofMacro? m l.text).isSome = true → ¬l.Live))

theorem commentedOutAbsent {m : VersionMacro} {header : Bytes} (out : CommentedOut m header) :
    Version.macroValue? m header = .ok none := by
  cases found : lookup m header with
  | none => rw [Version.macroValue?, found]
  | some r =>
    obtain ⟨l, mem, live, reads⟩ := lookupLive found
    obtain ⟨d, defines, -⟩ := readingDefined reads
    exact absurd live (out l mem (by rw [defines]; rfl))

/- A commented-out define is never used: a macro that has no other is missing, or zero where it may
be, and whatever is used stands outside block comments. -/
theorem commentedOutNeverUsed (header : Bytes) :
    (∀ m, CommentedOut m header → Version.macroValue? m header = .ok none) ∧
    (CommentedOut .major header → Version.ofHeader header = .error (.missing .major)) ∧
    (CommentedOut .minor header → ∀ major,
      Version.macroValue? .major header = .ok (some major) →
      Version.ofHeader header = .error (.missing .minor)) ∧
    (CommentedOut .micro header → ∀ major minor,
      Version.macroValue? .major header = .ok (some major) →
      Version.macroValue? .minor header = .ok (some minor) →
      Version.ofHeader header = .ok ⟨major, minor, 0⟩) ∧
    ∀ m r, lookup m header = some r → ∃ l ∈ linesOf header, l.Live ∧ l.reading? m = some r := by
  refine ⟨fun m => commentedOutAbsent, fun out => ?_, fun out major first => ?_,
    fun out major minor first second => ?_, fun m r => lookupLive⟩
  · rw [Version.ofHeader, Version.requiredMissing (commentedOutAbsent out)]
    rfl
  · rw [Version.ofHeader, Version.requiredFound first,
      Version.requiredMissing (commentedOutAbsent out)]
    rfl
  · rw [Version.ofHeader, Version.requiredFound first, Version.requiredFound second,
      commentedOutAbsent out]
    rfl

theorem minorStaysCommentedOut :
    let header := Bytes.ofAscii
      "#define YR_MAJOR_VERSION 4 /*/ or /* //\n#define YR_MINOR_VERSION 5\n*/\n"
    CommentedOut .minor header ∧ Version.macroValue? .major header = .ok (some 4) ∧
      Version.ofHeader header = .error (.missing .minor) := by
  intro header
  have out : CommentedOut .minor header := by decide +kernel
  have found : lookup .major header = some (.number 4) := by decide +kernel
  have major : Version.macroValue? .major header = .ok (some 4) := by
    rw [Version.macroValue?, found]
  exact ⟨out, major, (commentedOutNeverUsed header).2.2.1 out 4 major⟩

end ScanEngine.Header
