import ScanEngine.FlagWord
import ScanEngine.Rule.Metadata

/-! Tables of compiled rules. A table ends at its first rule with the end mark; a sentinel that
carries the mark follows the listed rules. A cursor looks at one entry at a time and never at one
behind the end. A rule's tags are packed, each ended by a zero byte, and the first empty one ends
them. -/
namespace ScanEngine

namespace Tags

def pack (tags : List Bytes) : Bytes := tags.flatMap (· ++ [0]) ++ [0]

/-- Collects tags from the packed bytes; `current` holds the current tag, last byte first. -/
def walkFrom (current : Bytes) : Bytes → List Bytes
  | [] => []
  | b :: rest =>
    if b = 0 then
      if current.isEmpty then [] else current.reverse :: walkFrom [] rest
    else walkFrom (b :: current) rest

def walk (packed : Bytes) : List Bytes := walkFrom [] packed

def segments (packed : Bytes) : List Bytes :=
  (Bytes.splitOn 0 packed).takeWhile fun piece => !piece.isEmpty

end Tags

structure Rule where
  name : Option Bytes
  space : Option Bytes
  flags : RuleFlags
  tags : Option Bytes
  metas : List MetaEntry
  deriving DecidableEq, Repr

namespace Rule

def privateFlag : RuleFlags := ⟨1⟩

def globalFlag : RuleFlags := ⟨2⟩

def endFlag : RuleFlags := ⟨4⟩

def isEnd (r : Rule) : Bool := r.flags.intersects endFlag

def identifier (r : Rule) : String :=
  (r.name.bind fun name => Text.strict? (Text.terminated name)).getD ""

def namespaceName (r : Rule) : String :=
  (r.space.map fun space => Text.lossy (Text.terminated space)).getD ""

def tagTexts (r : Rule) : List String :=
  ((r.tags.map Tags.walk).getD []).filterMap Text.strict?

def metadata (r : Rule) : List Metadata := (MetaEntry.visited r.metas).filterMap MetaEntry.read?

def isPrivate (r : Rule) : Bool := r.flags.contains privateFlag

def isGlobal (r : Rule) : Bool := r.flags.contains globalFlag

def debug (r : Rule) : String :=
  "Rule \x7b namespace: " ++ Text.quoted r.namespaceName ++
    ", identifier: " ++ Text.quoted r.identifier ++ " \x7d"

end Rule

abbrev Table := List Rule

namespace Table

def isRule (t : Table) (position : Nat) : Bool :=
  match t[position]? with
  | some r => !r.isEnd
  | none => false

def at? (t : Table) (position : Nat) : Option Nat :=
  if t.isRule position then some position else none

def first? (t : Table) : Option Nat := t.at? 0

def next? (t : Table) (position : Nat) : Option Nat := t.at? (position + 1)

theorem atBound {t : Table} {position found : Nat} (h : t.at? position = some found) :
    found = position ∧ position < t.length := by
  unfold at? at h
  split at h <;> try contradiction
  rename_i live
  refine ⟨(Option.some.inj h).symm, ?_⟩
  unfold isRule at live
  split at live
  · rename_i inside
    exact (List.getElem?_eq_some_iff.mp inside).1
  · contradiction

def pulls (t : Table) : Nat → Option Nat → List (Option Nat)
  | 0, _ => []
  | n + 1, none => none :: pulls t n none
  | n + 1, some position => some position :: pulls t n (t.next? position)

def walkFrom (t : Table) (position : Nat) : List Nat :=
  match _found : t.at? position with
  | some here => here :: walkFrom t (here + 1)
  | none => []
termination_by t.length - position
decreasing_by
  have bound := atBound _found
  omega

def handles (t : Table) : List Nat := t.walkFrom 0

def count (t : Table) : Nat := t.handles.length

def live (t : Table) : List Rule := t.takeWhile fun r => !r.isEnd

end Table
end ScanEngine
