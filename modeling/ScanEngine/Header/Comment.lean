import ScanEngine.Bytes

/-! Comments in a header, decided in two ways. `underOpener` looks back from a position for the last
block opener and asks whether a closer follows it. `modeAfter` reads the text from its start, where
a line comment hides an opener and nothing inside a comment opens another. They differ, for
instance, after a line comment that holds an opener. -/
namespace ScanEngine.Header

def slash : UInt8 := 0x2f

def star : UInt8 := 0x2a

def blockOpener : Bytes := [slash, star]

def blockCloser : Bytes := [star, slash]

def underOpener (before : Bytes) : Bool :=
  match Bytes.afterLast? blockOpener before with
  | some rest => !Bytes.contains blockCloser rest
  | none => false

/-- Where a reader from the left stands. `code` and `afterSlash` are outside comments, `block` and
`afterStar` inside a block comment. -/
inductive Mode where
  | code | afterSlash | line | block | afterStar
  deriving DecidableEq, Repr

def Mode.step : Mode → UInt8 → Mode
  | .code, b => if b = slash then .afterSlash else .code
  | .afterSlash, b => if b = slash then .line else if b = star then .block else .code
  | .line, b => if b = Bytes.newline then .code else .line
  | .block, b => if b = star then .afterStar else .block
  | .afterStar, b => if b = slash then .code else if b = star then .afterStar else .block

def modeAfter (before : Bytes) : Mode := before.foldl Mode.step .code

def Mode.inBlock : Mode → Bool
  | .block | .afterStar => true
  | .code | .afterSlash | .line => false

theorem modeAfterAppend (before more : Bytes) :
    modeAfter (before ++ more) = more.foldl Mode.step (modeAfter before) := List.foldl_append

end ScanEngine.Header
