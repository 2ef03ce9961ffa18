import SmallScheme.Shell

/-! The command line: `FILE` evaluates a file, no argument evaluates standard
input line by line, and `--nodes` shows how the lines of standard input compile.
The limit on nesting is read from `MAX_DEPTH`, and a non-empty `PROFILE` asks for
the counts of steps in a file. -/

namespace SmallScheme.CommandLine

def bytesOf (name : String) : IO (Option ByteArray) :=
  try
    return some (← IO.FS.readBinFile name)
  catch _ =>
    return none

def printTranscript (transcript : Transcript) : IO UInt32 := do
  (← IO.getStdout).putStr transcript.stdout
  (← IO.getStderr).putStr transcript.stderr
  return transcript.exitCode.toUInt32

/-- A run that does not end in a lifetime prints nothing more. -/
def unfinished : IO UInt32 := return 1

def runFile (name : String) : IO UInt32 := do
  let setting ← IO.getEnv "MAX_DEPTH"
  let counting := ((← IO.getEnv "PROFILE").getD "") != ""
  match Shell.file setting counting name (← bytesOf name) with
  | some transcript => printTranscript transcript
  | none => unfinished

partial def evalLoop (session : Session) : IO UInt32 := do
  let line ← (← IO.getStdin).getLine
  if line.isEmpty then
    return 0
  match Shell.evalLine session line with
  | some (printed, session) =>
      (← IO.getStdout).putStr printed
      (← IO.getStdout).flush
      evalLoop session
  | none => unfinished

partial def compileLoop : IO UInt32 := do
  (← IO.getStdout).putStr Shell.prompt
  (← IO.getStdout).flush
  let line ← (← IO.getStdin).getLine
  if line.isEmpty then
    return 0
  (← IO.getStdout).putStr (Shell.compileLine line)
  compileLoop

end SmallScheme.CommandLine

open SmallScheme.CommandLine in
def main (arguments : List String) : IO UInt32 := do
  match arguments with
  | [] => evalLoop (SmallScheme.Shell.session (← IO.getEnv "MAX_DEPTH"))
  | "--nodes" :: _ => compileLoop
  | name :: _ => runFile name
