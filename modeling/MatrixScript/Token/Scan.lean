import MatrixScript.Fault
import MatrixScript.Token.Cursor
import MatrixScript.Token.Rule

/-! Scanning: from a source text to its tokens. -/

set_option autoImplicit false

namespace MatrixScript

namespace Cursor

def token? (cursor : Cursor) (rule : Rule) (length : Nat) : Option Token :=
  let lexeme := cursor.rest.take length
  (rule.token? lexeme).map fun (kind, value) => ⟨kind, value, cursor.span (byteLength lexeme)⟩

/-- The tokens from a cursor on, after those already `found`, which are in reverse. Every rule takes at
least one character, so as many steps as there are characters left suffice. -/
def scanFrom : Nat → Cursor → List Token → Except Failure (List Token)
  | 0, cursor, found => .ok (Token.atEnd cursor.position :: found).reverse
  | steps + 1, cursor, found =>
    match cursor.rest with
    | [] => .ok (Token.atEnd cursor.position :: found).reverse
    | c :: _ =>
      match Rule.first? cursor.rest with
      | none => .error ⟨.unrecognised c.toString, cursor.position⟩
      | some (rule, length) =>
        scanFrom steps (cursor.skip length) ((cursor.token? rule length).toList ++ found)

end Cursor

/-- The tokens of a source text, the end token last, or the first place where no rule applies. -/
def scan (source : String) : Except Failure (List Token) :=
  let cursor := Cursor.start source
  cursor.scanFrom cursor.rest.length []

end MatrixScript
