import MatrixScript.CommandLine

/-! The program: reads the file, does what the arguments say, and writes the results. -/

set_option autoImplicit false

open MatrixScript CommandLine

def readFile (file : String) : IO FileContent := do
  try
    return .data (← IO.FS.readBinFile file)
  catch
    | .noFileOrDirectory _ _ _ => return missing
    | error => return .unreadable (toString error)

def main (arguments : List String) : IO UInt32 := do
  let outcome ←
    match Options.ofArguments? arguments with
    | none => pure usage
    | some options => pure (CommandLine.run options (← readFile options.file) unlimited)
  (← IO.getStdout).putStr outcome.stdout
  (← IO.getStderr).putStr outcome.stderr
  return outcome.code.toUInt32
