import ScanEngine.Failure

/-! Files by path. All files stand in one directory, with no directories below it, and the
directories above it hold no known name. A path goes step by step: an empty or dot step stays, two
dots lead above, and any other step names a file, which only the last step may do. Paths are byte
strings; as C strings they are passed on in their lossy text form. -/
namespace ScanEngine

structure Files where
  entries : List (Bytes × Bytes)
  deriving DecidableEq, Repr

namespace Files

def nameLimit : Nat := 255

def pathLimit : Nat := 4095

def find? (files : Files) (name : Bytes) : Option Bytes := files.entries.lookup name

def above : Files := ⟨[]⟩

def follow (directory : Files) : List Bytes → Except PathFault Bytes
  | [] => .ok []
  | name :: rest =>
    if name = [] ∨ name = [0x2e] then directory.follow rest
    else if name = [0x2e, 0x2e] then above.follow rest
    else if nameLimit < name.length then .error .nameTooLong
    else match directory.find? name, rest with
      | none, _ => .error .absent
      | some content, [] => .ok content
      | some _, _ :: _ => .error .throughFile

def read (files : Files) (path : Bytes) : Except PathFault Bytes :=
  if (0 : UInt8) ∈ path then .error .zeroByte
  else if pathLimit < path.length then .error .nameTooLong
  else if path = [] then .error .absent
  else (if path.head? = some 0x2f then above else files).follow (Bytes.splitOn 0x2f path)

end Files

def pathString (path : Bytes) : Except ZeroByte Bytes := cString (Text.encode (Text.lossy path))

end ScanEngine
