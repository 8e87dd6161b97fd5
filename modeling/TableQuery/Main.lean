import TableQuery.Command.Run

/-! # The program -/

namespace TableQuery

def usage : String :=
  "Usage: tabula [--json] [query [OPTIONS] | parse <KIND> [FILE]]\n"

def UsageError.message : UsageError → String
  | .valueValidation => "error: a value is not valid for its option"
  | .invalidValue => "error: a value is missing or not one of the possible values"
  | .unknownArgument => "error: unexpected argument found"
  | .argumentConflict => "error: an option cannot be used multiple times"
  | .tooManyValues => "error: a value was given to an option that takes none"
  | .missingRequiredArgument => "error: a required argument was not provided"
  | .invalidSubcommand => "error: unrecognized subcommand"
  | .displayHelp => usage
  | .displayVersion => "tabula 0.1.0\n"

def decodeText (bytes : ByteArray) : Except FileFailure String :=
  (String.fromUTF8? bytes).elim (.error .invalidData) .ok

def readSource : Source → IO (Except FileFailure String)
  | .input => do
    let stdin ← IO.getStdin
    pure (decodeText (← stdin.readBinToEnd))
  | .file path => do
    match ← (IO.FS.readBinFile path).toBaseIO with
    | .ok bytes => pure (decodeText bytes)
    | .error (.noFileOrDirectory ..) => pure (.error .notFound)
    | .error e => pure (.error (.other (toString e)))

def causeMessage : CommandError → String
  | .unreadable _ why => why.message
  | .malformed _ why => why.message

def runInvocation (i : Invocation) : IO UInt32 := do
  let content ← match i.source? with
    | some source => readSource source
    | none => pure (.ok "")
  match i.run fun _ => content with
  | .ok text =>
    IO.print text
    pure 0
  | .error e =>
    IO.eprintln ("Error: " ++ e.message ++ "\n\nCaused by:\n    " ++ causeMessage e)
    pure 1

end TableQuery

open TableQuery in
def main (line : List String) : IO UInt32 := do
  match Invocation.ofLine line with
  | .ok i => runInvocation i
  | .error .displayHelp =>
    IO.print (UsageError.message .displayHelp)
    pure 0
  | .error .displayVersion =>
    IO.print (UsageError.message .displayVersion)
    pure 0
  | .error e =>
    IO.eprintln e.message
    pure 2
