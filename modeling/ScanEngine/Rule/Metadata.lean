import ScanEngine.Text.Utf8

/-! Metadata of rules. The entries of a rule stand one after another and the last one carries a
mark, so a walk looks at the mark after it has visited an entry. An entry without a readable name
or with an unknown kind is visited but yields nothing. -/
namespace ScanEngine

structure MetaEntry where
  name : Option Bytes
  kind : Int32
  integer : Int64
  text : Option Bytes
  flags : Int32
  deriving DecidableEq, Repr

inductive MetaValue where
  | integer (value : Int64)
  | text (value : String)
  | boolean (value : Bool)
  deriving DecidableEq, Repr

structure Metadata where
  name : String
  value : MetaValue
  deriving DecidableEq, Repr

namespace MetaEntry

def isLast (m : MetaEntry) : Bool := m.flags &&& 1 != 0

def sealed : List MetaEntry → List MetaEntry
  | [] => []
  | [m] => [{ m with flags := m.flags ||| 1 }]
  | m :: next :: rest => m :: sealed (next :: rest)

def visited : List MetaEntry → List MetaEntry
  | [] => []
  | m :: rest => if m.isLast then [m] else m :: visited rest

def textValue (m : MetaEntry) : String :=
  (m.text.map fun text => Text.lossy (Text.terminated text)).getD ""

def value? (m : MetaEntry) : Option MetaValue :=
  if m.kind = 1 then some (.integer m.integer)
  else if m.kind = 2 then some (.text m.textValue)
  else if m.kind = 3 then some (.boolean (m.integer != 0))
  else none

def read? (m : MetaEntry) : Option Metadata := do
  let raw ← m.name
  let name ← Text.strict? (Text.terminated raw)
  let value ← m.value?
  some ⟨name, value⟩

end MetaEntry

end ScanEngine
