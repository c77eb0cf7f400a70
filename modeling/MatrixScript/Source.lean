/-! Places in a source text.

Offsets count UTF-8 bytes from the start of the text and lines count from one. A line of a
text reaches through its newline; the last line may have none. Offsets and lines
are not bounded: a source is taken to have fewer than 2^32 bytes.
-/

set_option autoImplicit false

namespace MatrixScript

structure Position where
  offset : Nat
  line : Nat
  deriving DecidableEq, Repr, Inhabited

structure Span where
  start : Position
  stop : Position
  deriving DecidableEq, Repr, Inhabited

def byteLength (text : List Char) : Nat :=
  text.foldl (fun total c => total + c.utf8Size) 0

theorem foldl_utf8Size (text : List Char) (total : Nat) :
    text.foldl (fun total c => total + c.utf8Size) total = total + byteLength text := by
  induction text generalizing total with
  | nil => rfl
  | cons c rest ih =>
    simp only [byteLength, List.foldl_cons] at ih ⊢
    rw [ih (total + c.utf8Size), ih (0 + c.utf8Size)]
    omega

@[simp] theorem byteLength_nil : byteLength [] = 0 := rfl

@[simp] theorem byteLength_cons (c : Char) (rest : List Char) :
    byteLength (c :: rest) = c.utf8Size + byteLength rest := by
  rw [byteLength, List.foldl_cons, foldl_utf8Size, Nat.zero_add]

@[simp] theorem byteLength_append (left right : List Char) :
    byteLength (left ++ right) = byteLength left + byteLength right := by
  induction left with
  | nil => simp
  | cons c rest ih => simp [ih, Nat.add_assoc]

/-- One line of a text, with the byte column of a place in it. -/
structure SourceLine where
  number : Nat
  text : List Char
  column : Nat
  deriving DecidableEq, Repr

/-- The line that holds byte `column`, counted from the start of the current line, whose
characters read so far are `before` in reverse. -/
def lineFrom (number column : Nat) (before : List Char) : List Char → Option SourceLine
  | [] => if column < byteLength before then some ⟨number, before.reverse, column⟩ else none
  | c :: rest =>
    if c = '\n' then
      let length := byteLength (c :: before)
      if column < length then
        some ⟨number, (c :: before).reverse, column⟩
      else
        lineFrom (number + 1) (column - length) [] rest
    else
      lineFrom number column (c :: before) rest

/-- The line that holds byte `offset` of `source`; a place at or past the end is on none. -/
def lineAt (source : String) (offset : Nat) : Option SourceLine :=
  lineFrom 1 offset [] source.toList

end MatrixScript
