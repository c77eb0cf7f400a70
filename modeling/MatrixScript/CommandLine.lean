import MatrixScript.Program
import MatrixScript.Report

/-! The command line: what is done with a file, and what is written where.

Findings of the checker go to the standard output and failures to the standard error. Only a failure while running
and a file that cannot be read make the exit code differ from zero.
-/

set_option autoImplicit false

namespace MatrixScript.CommandLine

structure Options where
  file : String
  /-- Stop after checking. -/
  checkOnly : Bool
  /-- Show the tokens and stop. -/
  showTokens : Bool
  deriving DecidableEq, Repr

/-- Options may stand on either side of the file name; after `--` every argument is a file name. -/
def parseFrom (file : Option String) (checkOnly showTokens onlyFiles : Bool) :
    List String → Option Options
  | [] => file.map fun file => ⟨file, checkOnly, showTokens⟩
  | argument :: rest =>
    if !onlyFiles && argument = "--" then
      parseFrom file checkOnly showTokens true rest
    else if !onlyFiles && argument = "--check" then
      if checkOnly then none else parseFrom file true showTokens onlyFiles rest
    else if !onlyFiles && argument = "--tokens" then
      if showTokens then none else parseFrom file checkOnly true onlyFiles rest
    else if !onlyFiles && argument.startsWith "-" && argument ≠ "-" then
      none
    else if file.isSome then
      none
    else
      parseFrom (some argument) checkOnly showTokens onlyFiles rest

def Options.ofArguments? (arguments : List String) : Option Options :=
  parseFrom none false false false arguments

inductive FileContent where
  | unreadable (reason : String)
  | data (bytes : ByteArray)

structure Outcome where
  code : Nat
  stdout : String
  stderr : String
  deriving DecidableEq, Repr

def usage : Outcome :=
  ⟨2, "", "usage: matrixscript [--check] [--tokens] [--] FILE\n"⟩

def missing : FileContent := .unreadable "No such file or directory (os error 2)"

def cannotOpen (file reason : String) : Outcome :=
  ⟨2, "", s!"Cannot open {file} file: {reason}\n"⟩

/-- A token on a line of its own, behind its line number, which takes four places. -/
def tokenLine (token : Token) : String :=
  let number := toString token.span.start.line
  String.ofList (List.replicate (4 - number.length) ' ') ++ number ++ ": " ++ token.display ++ "\n"

def showTokens (file source : String) : Outcome :=
  match scan source with
  | .ok tokens => ⟨0, String.join (tokens.map tokenLine), ""⟩
  | .error failure => ⟨0, "", failure.report file source⟩

def rejected (file source : String) : Rejection → Outcome
  | .lexical failure => ⟨0, "", failure.report file source⟩
  | .grammatical failure => ⟨0, "", failure.report file source⟩
  | .static findings => ⟨0, String.join (findings.map fun finding => finding.report ++ "\n"), ""⟩

def runProgram (file source : String) (program : Program) (steps : Nat) : Outcome :=
  let result := program.tree.run steps {}
  let output := result.machine.sink.text
  match result.outcome with
  | .ok _ => ⟨0, output, ""⟩
  | .error (.failed failure) => ⟨1, output, failure.report file source⟩
  | .error .unfinished => ⟨1, output, "the program did not finish\n"⟩

def process (options : Options) (source : String) (steps : Nat) : Outcome :=
  if options.showTokens then
    showTokens options.file source
  else
    match Program.ofSource source with
    | .error rejection => rejected options.file source rejection
    | .ok program =>
      if options.checkOnly then ⟨0, "", ""⟩ else runProgram options.file source program steps

def run (options : Options) (content : FileContent) (steps : Nat) : Outcome :=
  match content with
  | .unreadable reason => cannotOpen options.file reason
  | .data bytes =>
    match String.fromUTF8? bytes with
    | none => cannotOpen options.file "stream did not contain valid UTF-8"
    | some source => process options source steps

/-- More steps than any run can take. -/
def unlimited : Nat := 0x4000000000000000

end MatrixScript.CommandLine
