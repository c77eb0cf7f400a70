/-! Where a program's output goes.

A sink may have a capacity in bytes. A write that does not fit keeps the bytes that do and fails.
-/

set_option autoImplicit false

namespace MatrixScript

structure Sink where
  written : ByteArray := .empty
  capacity : Option Nat := none

namespace Sink

/-- Writes a text; the flag tells whether all of it was written. -/
def write (sink : Sink) (text : String) : Bool × Sink :=
  let bytes := text.toByteArray
  match sink.capacity with
  | none => (true, { sink with written := sink.written ++ bytes })
  | some capacity =>
    let room := capacity - sink.written.size
    if bytes.size ≤ room then
      (true, { sink with written := sink.written ++ bytes })
    else
      (false, { sink with written := sink.written ++ bytes.extract 0 room })

/-- The output as text. Only the last character can be cut, and it is shown as U+FFFD. -/
def text (sink : Sink) : String :=
  let bytes := sink.written
  match String.fromUTF8? bytes with
  | some text => text
  | none =>
    let shortened := [1, 2, 3].findSome? fun cut => String.fromUTF8? (bytes.extract 0 (bytes.size - cut))
    shortened.getD "" ++ "\uFFFD"

end Sink

end MatrixScript
