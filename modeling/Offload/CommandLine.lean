import Offload.CommandLine.Directory
import Offload.CommandLine.Options
import Offload.CommandLine.Report
import Offload.Compile
import Offload.Config.Encoding
import Offload.Directive.Encoding
import Offload.Json.Printer

/-! The program: it reads a source file and writes code, or what its annotations say. -/
namespace Offload
namespace CommandLine

def version : Text := "pyacc 0.1.0\n"

def usage : Text :=
  "Compile accelerator pragmas in a function into parallel host code\n\n" ++
    "Usage: pyacc [OPTIONS] <FILE>\n"

/-- A heading and the causes below it. -/
structure Complaint where
  heading : Text
  causes : List Text := []

namespace Complaint

def ofChain : List Text → Complaint
  | [] => ⟨[], []⟩
  | heading :: causes => ⟨heading, causes⟩

def ofFailure (f : Failure) : Complaint := ofChain f.chain

def render (c : Complaint) : Text := report c.heading c.causes

end Complaint

/-- One line for each directive, by annotation. -/
def listDirectives (tree : DirectiveTree) : Text :=
  let directives := (tree.entries.map TreeEntry.directive).mergeSort fun a b => a.line ≤ b.line
  Text.join "\n" (directives.map Directive.render)

/-- What is to be written for a source. -/
def produce (emit : Emit) (input : Text) (config : Config) (source : Text) :
    Logged Complaint Text :=
  match emit with
  | .code => do
    let f ← (FunctionContext.ofSource source).mapError fun e =>
      Complaint.ofFailure (.within ("No function found in " ++ input.quoted) e)
    (compile config f).mapError .ofFailure
  | .directives => do
    return listDirectives (← (parse config source).mapError .ofFailure)
  | .tree => do
    return (← (parse config source).mapError .ofFailure).outline.render
  | .json => do
    return (← (parse config source).mapError .ofFailure).outline.toJson.pretty 0

/-- The configuration from the content of a file, if there is one. -/
def readConfig (path : Text) (content : Except Text Text) : Except Complaint Config := do
  let json ← content.mapError fun cause =>
    ⟨"Failed to read config file: " ++ path.quoted, [cause]⟩
  match Config.parse? json with
  | some config => return config
  | none => .error { heading := "invalid configuration" }

/-- The text to write, given how files can be read. -/
def execute (read : Text → Except Text Text) (o : Options) (input : Text) :
    Logged Complaint Text := do
  let source ← (read input).mapError fun cause =>
    Complaint.mk ("Failed to read input file: " ++ input.quoted) [cause]
  let config ← match o.config with
    | some path => readConfig path (read path)
    | none => pure {}
  produce (o.emit.getD .code) input (o.apply config) source

def writeComplaint (path cause : Text) : Complaint :=
  ⟨"Failed to write output file: " ++ path.quoted, [cause]⟩

/-- Output on the screen ends with a line end. -/
def screenText (t : Text) : Text := if t.getLast? = some '\n' then t else t ++ "\n"

/-- What a run of the program leaves behind. -/
structure Outcome where
  exit : Nat
  stdout : Text := []
  /-- The report of a failure. -/
  report : Option Text := none
  directory : Directory

/-- Runs the program in a directory. -/
def runIn (d : Directory) (args : List Text) : Outcome :=
  match readOptions args with
  | .error .usage => { exit := 2, directory := d }
  | .error .version => { exit := 0, stdout := version, directory := d }
  | .error .help => { exit := 0, stdout := usage, directory := d }
  | .ok (o, input) =>
    match (execute (fun path => (d.read path).mapError FileError.message) o input).outcome with
    | .error complaint => { exit := 1, report := some complaint.render, directory := d }
    | .ok content =>
      match o.output with
      | none => { exit := 0, stdout := screenText content, directory := d }
      | some path =>
        match d.write path content with
        | .ok directory => { exit := 0, directory }
        | .error cause =>
          { exit := 1, report := some (writeComplaint path cause.message).render, directory := d }

end CommandLine
end Offload
