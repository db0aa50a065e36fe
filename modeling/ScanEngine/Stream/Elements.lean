import ScanEngine.Stream.Reader
import ScanEngine.Stream.Writer

/-! Requests for whole elements over readers and writers of bytes. A request names an element size
and a count; one whose product needs more than 64 bits is refused. The first fault is kept, and
with a fault kept every later request is answered with zero elements. -/
namespace ScanEngine

structure Request where
  size : Nat
  count : Nat
  deriving DecidableEq, Repr

namespace Request

def sizeLimit : Nat := UInt64.size

def length (q : Request) : Nat := q.size * q.count

def fits (q : Request) : Bool := q.length < sizeLimit

end Request

structure WriteRequest where
  request : Request
  data : Bytes
  deriving DecidableEq, Repr

def WriteRequest.bytes (w : WriteRequest) : Bytes := w.data.take w.request.length

structure Filling where
  request : Request
  steps : List ReadStep
  returned : Nat
  buffer : Bytes
  deriving DecidableEq, Repr

namespace Filling

def received (f : Filling) : Bytes := f.steps.flatMap ReadStep.bytes

def failed (f : Filling) : Bool := f.steps.any ReadStep.failed

end Filling

structure Draining where
  request : Request
  steps : List WriteStep
  returned : Nat
  deriving DecidableEq, Repr

namespace Draining

def accepted (d : Draining) : Bytes := d.steps.flatMap WriteStep.taken

def failed (d : Draining) : Bool := d.steps.any WriteStep.failed

end Draining

structure ElementSource where
  reader : Reader
  kept : Option Fault
  deriving DecidableEq, Repr

namespace ElementSource

def ofReader (reader : Reader) : ElementSource := ⟨reader, none⟩

/-- Fills the front of the buffer and answers with the number of whole elements; a fault makes
that zero, though the bytes read before it stay in the buffer. -/
def serve (s : ElementSource) (q : Request) (buffer : Bytes) : Filling × ElementSource :=
  if s.kept.isSome || q.length == 0 || !q.fits then (⟨q, [], 0, buffer⟩, s)
  else
    let filled := s.reader.fill q.length
    let whole := filled.bytes ++ buffer.drop filled.bytes.length
    match filled.fault with
    | none => (⟨q, filled.steps, filled.bytes.length / q.size, whole⟩, ⟨filled.reader, none⟩)
    | some f => (⟨q, filled.steps, 0, whole⟩, ⟨filled.reader, some f⟩)

def unfilled : UInt8 := 0xaa

def freshBuffer (q : Request) : Bytes :=
  if q.fits then List.replicate q.length unfilled else []

def serveInto (s : ElementSource) : List (Request × Bytes) → List Filling × ElementSource
  | [] => ([], s)
  | (q, buffer) :: rest =>
    let first := s.serve q buffer
    let others := first.2.serveInto rest
    (first.1 :: others.1, others.2)

def serveAll (s : ElementSource) (requests : List Request) : List Filling × ElementSource :=
  s.serveInto (requests.map fun q => (q, freshBuffer q))

end ElementSource

structure ElementSink where
  writer : Writer
  kept : Option Fault
  deriving DecidableEq, Repr

namespace ElementSink

def ofWriter (writer : Writer) : ElementSink := ⟨writer, none⟩

/-- Writes all elements or none as far as the answer goes; a request of no bytes is answered in
full without a word to the writer. -/
def serve (s : ElementSink) (w : WriteRequest) : Draining × ElementSink :=
  let q := w.request
  if s.kept.isSome || !q.fits then (⟨q, [], 0⟩, s)
  else if q.length = 0 then (⟨q, [], q.count⟩, s)
  else
    let sent := s.writer.writeAll w.bytes
    match sent.fault with
    | none => (⟨q, sent.steps, q.count⟩, ⟨sent.writer, none⟩)
    | some f => (⟨q, sent.steps, 0⟩, ⟨sent.writer, some f⟩)

def serveAll (s : ElementSink) : List WriteRequest → List Draining × ElementSink
  | [] => ([], s)
  | w :: rest =>
    let first := s.serve w
    let others := first.2.serveAll rest
    (first.1 :: others.1, others.2)

end ElementSink
end ScanEngine
