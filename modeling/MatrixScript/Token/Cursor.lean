import MatrixScript.Source

/-! A place in a source text together with the text that follows it. -/

set_option autoImplicit false

namespace MatrixScript

structure Cursor where
  rest : List Char
  position : Position
  deriving DecidableEq, Repr

namespace Cursor

def start (source : String) : Cursor :=
  ⟨source.toList, ⟨0, 1⟩⟩

def atEnd (cursor : Cursor) : Bool :=
  cursor.rest.isEmpty

def next (cursor : Cursor) : Cursor :=
  match cursor.rest with
  | [] => cursor
  | c :: rest =>
    { rest
      position.offset := cursor.position.offset + c.utf8Size
      position.line := if c = '\n' then cursor.position.line + 1 else cursor.position.line }

/-- Moves past a number of characters, not past the end. -/
def skip : Nat → Cursor → Cursor
  | 0, cursor => cursor
  | count + 1, cursor => skip count cursor.next

/-- The characters that begin within the next `bytes` bytes of a text. -/
def charsWithin : Nat → List Char → Nat
  | _, [] => 0
  | bytes, c :: rest => if bytes = 0 then 0 else charsWithin (bytes - c.utf8Size) rest + 1

def skipBytes (bytes : Nat) (cursor : Cursor) : Cursor :=
  cursor.skip (charsWithin bytes cursor.rest)

/-- The place of a lexeme of a number of bytes that starts here; a lexeme lies on one line. -/
def span (bytes : Nat) (cursor : Cursor) : Span :=
  ⟨cursor.position, { cursor.position with offset := cursor.position.offset + bytes }⟩

end Cursor

end MatrixScript
