import Offload.CommandLine

/-! The command line on the files of the system. -/
namespace Offload
namespace CommandLine

/-- The system's message for a failed operation. -/
def systemMessage : IO.Error → Text
  | .noFileOrDirectory _ _ _ => FileError.notFound.message
  | .inappropriateType _ 21 _ => FileError.isDirectory.message
  | .inappropriateType _ _ _ => FileError.notDirectory.message
  | .invalidArgument _ 36 _ => FileError.nameTooLong.message
  | .permissionDenied _ 13 _ => "Permission denied (os error 13)"
  | e => (toString e).toList

def tryRead (path : Text) : IO (Except Text Text) := do
  try
    match String.fromUTF8? (← IO.FS.readBinFile (String.ofList path)) with
    | some content => return .ok content.toList
    | none => return .error "stream did not contain valid UTF-8"
  catch e => return .error (systemMessage e)

def tryWrite (path content : Text) : IO (Except Text Unit) := do
  try return .ok (← IO.FS.writeFile (String.ofList path) (String.ofList content))
  catch e => return .error (systemMessage e)

/-- The records that the options ask for. -/
def shown (o : Options) (records : List LogRecord) : List LogRecord :=
  let level : LogLevel := match o.verbosity with
    | 0 => .warn
    | 1 => .info
    | 2 => .debug
    | _ => .trace
  if o.quiet then [] else records.filter (LogRecord.visibleAt level)

def complain (c : Complaint) : IO UInt32 := do
  IO.eprint (String.ofList c.render)
  return 1

def runFiles (o : Options) (input : Text) : IO UInt32 := do
  let source ← tryRead input
  let config ← match o.config with
    | some path => tryRead path
    | none => pure (.ok [])
  let result := execute (fun path => if path = input then source else config) o input
  for r in shown o result.records do
    IO.eprintln (String.ofList ("[".toList ++ r.level.name ++ "] " ++ r.message))
  match result.outcome with
  | .error complaint => complain complaint
  | .ok content =>
    match o.output with
    | none =>
      IO.print (String.ofList (screenText content))
      return 0
    | some path =>
      match ← tryWrite path content with
      | .ok _ => return 0
      | .error cause => complain (writeComplaint path cause)

end CommandLine
end Offload

open Offload in
def main (args : List String) : IO UInt32 := do
  match CommandLine.readOptions (args.map String.toList) with
  | .error .usage =>
    IO.eprint (String.ofList CommandLine.usage)
    return 2
  | .error .version =>
    IO.print (String.ofList CommandLine.version)
    return 0
  | .error .help =>
    IO.print (String.ofList CommandLine.usage)
    return 0
  | .ok (o, input) => CommandLine.runFiles o input
