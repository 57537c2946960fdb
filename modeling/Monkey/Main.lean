import Monkey.Command.Run

/-! # The program

Reads the arguments, and the file or the lines that a run needs, and writes what the
run answers. -/

namespace Monkey.Command

def Console.write (console : Console) : IO Unit := do
  let out ← IO.getStdout
  let err ← IO.getStderr
  out.putStr console.out
  out.flush
  err.putStr console.err
  err.flush

/-- The refusal that an error number of the system stands for, which may come as its
negative in 32 bits. -/
def readErrorOf (code : UInt32) (description : String) : ReadError :=
  let number := min code.toNat (-code).toNat
  if number = 2 then .notFound
  else if number = 20 then .notDirectory
  else if number = 21 then .isDirectory
  else if number = 36 then .nameTooLong
  else .refused description number

def readErrorOfSystem : IO.Error → ReadError
  | .noFileOrDirectory _ number text | .permissionDenied _ number text
  | .inappropriateType _ number text | .resourceExhausted _ number text
  | .invalidArgument _ number text | .noSuchThing _ number text
  | .otherError number text => readErrorOf number text
  | error => .refused (toString error) 0

/-- The text of the file at a path of the system. -/
def readPath (path : String) : IO (Except ReadError String) := do
  try
    return decodeText (← IO.FS.readBinFile path)
  catch error =>
    return .error (readErrorOfSystem error)

/-- The bytes of the input up to the next line feed, or up to its end. -/
partial def readLine (read : ByteArray) : IO ByteArray := do
  let byte ← (← IO.getStdin).read 1
  let read := read ++ byte
  if byte.isEmpty || byte[0]! = 10 then return read
  readLine read

/-- Answers lines as they come. -/
partial def converse (options : Options) (tokens : Bool) (recovery : Recovery) :
    IO (Option Failure) := do
  Console.write ⟨prompt, ""⟩
  let bytes ← readLine .empty
  if bytes.isEmpty then
    Console.write ⟨farewell, ""⟩
    return none
  match decodeText bytes with
  | .error error => return some (.badInput error)
  | .ok line =>
    let answer := runLine options tokens recovery line
    answer.console.write
    if answer.failure.isSome then return answer.failure
    converse options tokens recovery

/-- Writes the end of a run and gives its exit status. -/
def close (run : Run) : IO UInt32 := do
  let report := run.report
  Console.write ⟨report.out, report.err⟩
  return UInt32.ofNat report.code

def start (options : Options) : IO UInt32 := do
  match options.action with
  | .repl tokens recovery => close ⟨.empty, ← converse options tokens recovery⟩
  | .file path task => close (runFile options path task (← readPath path))
  | .version => close (runOptions options .empty .empty)

end Monkey.Command

def main (arguments : List String) : IO UInt32 := do
  match Monkey.Command.Options.ofArguments arguments with
  | .error error =>
    (← IO.getStderr).putStrLn ("error: " ++ error.message)
    return 2
  | .ok options => Monkey.Command.start options
