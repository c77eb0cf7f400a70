import MatrixScript.Fault
import MatrixScript.Text.Blank

/-! The report of a failure.

A report names the fault with its tip, then the file, then shows the source line under a margin with a
caret below the failing place:

    Error: IndexOutOfBounds (Index 5 is out of range for length 2)
    -> program.m
       |
    20 | x = A[5];
       | ----^

Indentation is left out, and so are blanks at the end of the line.
-/

set_option autoImplicit false

namespace MatrixScript

def isIndent (c : Char) : Bool := c == ' ' || c == '\t'

def trimEnd (text : List Char) : List Char :=
  (text.reverse.dropWhile Text.isBlank).reverse

/-- The margin, the line without its indentation, and the caret at the byte column of the place. -/
def SourceLine.excerpt (line : SourceLine) : List String :=
  let number := toString line.number
  let margin := String.ofList (List.replicate (number.length + 1) ' ' ++ ['|'])
  let shown := line.text.dropWhile isIndent
  let removed := byteLength (line.text.takeWhile isIndent)
  let pointer := String.ofList (List.replicate (line.column - removed) '-' ++ ['^'])
  [margin, s!"{number} | " ++ String.ofList (trimEnd shown), margin ++ " " ++ pointer]

def Failure.heading (failure : Failure) : String :=
  match failure.fault.tip with
  | none => s!"Error: {failure.fault.name}"
  | some tip => s!"Error: {failure.fault.name} ({tip})"

def Failure.reportLines (failure : Failure) (file source : String) : List String :=
  let place :=
    match lineAt source failure.position.offset with
    | none => [s!"at end of input, line {failure.position.line}"]
    | some line => line.excerpt
  failure.heading :: s!"-> {file}" :: place

def Failure.report (failure : Failure) (file source : String) : String :=
  String.join ((failure.reportLines file source).map (· ++ "\n"))

end MatrixScript
