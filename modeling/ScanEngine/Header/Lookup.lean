import ScanEngine.Header.Define
import ScanEngine.Header.Number

/-! Finding what a version macro is defined as. `lookup` jumps from one occurrence of the name to
the next and looks at the line around it; `scanLines` goes through the lines in order. Both take
the first line that defines exactly this name and is not under an open block comment. -/
namespace ScanEngine.Header

inductive VersionMacro where
  | major | minor | micro
  deriving DecidableEq, Repr

namespace VersionMacro

def name : VersionMacro → String
  | major => "YR_MAJOR_VERSION"
  | minor => "YR_MINOR_VERSION"
  | micro => "YR_MICRO_VERSION"

def bytes (m : VersionMacro) : Bytes := Bytes.ofAscii m.name

def all : List VersionMacro := [major, minor, micro]

end VersionMacro

inductive Reading where
  | number (n : UInt32)
  | invalid (value : Bytes)
  deriving DecidableEq, Repr

def Reading.ofValue (value : Bytes) : Reading :=
  match readNumber? value with
  | some n => number n
  | none => invalid value

def lineReading? (m : VersionMacro) (before line : Bytes) : Option Reading :=
  if underOpener before then none
  else match Define.ofLine? line with
    | none => none
    | some d => if d.name = m.bytes then some (.ofValue d.value) else none

/-- A place in a text: the bytes before it, nearest first, and the bytes from it on. -/
structure Place where
  before : Bytes
  rest : Bytes
  deriving DecidableEq, Repr

namespace Place

def line (p : Place) : Bytes :=
  (p.before.takeWhile (· != Bytes.newline)).reverse ++ p.rest.takeWhile (· != Bytes.newline)

def beforeLine (p : Place) : Bytes := (p.before.dropWhile (· != Bytes.newline)).reverse

end Place

/-- The places where `needle` begins, left to right and without overlap; the first `skip` bytes
belong to the previous one. -/
def placesFrom (needle : Bytes) : Nat → Bytes → Bytes → List Place
  | _, _, [] => []
  | skip + 1, before, b :: rest => placesFrom needle skip (b :: before) rest
  | 0, before, b :: rest =>
    if needle.isPrefixOf (b :: rest) then
      ⟨before, b :: rest⟩ :: placesFrom needle (needle.length - 1) (b :: before) rest
    else placesFrom needle 0 (b :: before) rest

def places (needle header : Bytes) : List Place := placesFrom needle 0 [] header

def lookup (m : VersionMacro) (header : Bytes) : Option Reading :=
  (places m.bytes header).findSome? fun p => lineReading? m p.beforeLine p.line

def scanFrom (m : VersionMacro) (before : Bytes) : List Bytes → Option Reading
  | [] => none
  | line :: more =>
    (lineReading? m before line).or (scanFrom m (before ++ line ++ [Bytes.newline]) more)

def scanLines (m : VersionMacro) (header : Bytes) : Option Reading :=
  scanFrom m [] (Bytes.lines header)

end ScanEngine.Header
