import Offload.Config
import Offload.Text.Numeral

/-!
Options of the command line. An option that takes a value has it behind an equals sign, attached to
its letter, or as the next argument, which then may not look like an option. Arguments are read from
left to right, and reading stops at the first mistake or request for help or version.
-/
namespace Offload
namespace CommandLine

inductive Emit
  | code
  | directives
  | tree
  | json
deriving DecidableEq, Repr

def Emit.ofName? (name : Text) : Option Emit :=
  if name = "code" then some .code
  else if name = "directives" then some .directives
  else if name = "tree" then some .tree
  else if name = "json" then some .json
  else none

/-- Options that take a value. -/
inductive Setting
  | output
  | emit
  | backend
  | framework
  | gangs
  | entry
  | tabWidth
  | config
deriving DecidableEq, Repr

namespace Setting

def ofName? (name : Text) : Option Setting :=
  if name = "output" then some .output
  else if name = "emit" then some .emit
  else if name = "backend" then some .backend
  else if name = "framework" then some .framework
  else if name = "gangs" then some .gangs
  else if name = "entry" then some .entry
  else if name = "tab-width" then some .tabWidth
  else if name = "config" then some .config
  else none

def ofLetter? : Char → Option Setting
  | 'o' => some .output
  | 'b' => some .backend
  | _ => none

end Setting

/-- Options without a value. -/
inductive Switch
  | verbose
  | quiet
  | version
  | help
deriving DecidableEq, Repr

namespace Switch

def ofName? (name : Text) : Option Switch :=
  if name = "verbose" then some .verbose
  else if name = "quiet" then some .quiet
  else if name = "version" then some .version
  else if name = "help" then some .help
  else none

def ofLetter? : Char → Option Switch
  | 'v' => some .verbose
  | 'q' => some .quiet
  | 'V' => some .version
  | 'h' => some .help
  | _ => none

end Switch

structure Options where
  input : Option Text := none
  output : Option Text := none
  emit : Option Emit := none
  backend : Option BackendKind := none
  framework : Option Text := none
  gangs : Option Nat := none
  entry : Option Text := none
  tabWidth : Option Nat := none
  config : Option Text := none
  verbosity : Nat := 0
  quiet : Bool := false
deriving DecidableEq, Repr

/-- Why nothing is to be run. -/
inductive Stop
  | usage
  | version
  | help
deriving DecidableEq, Repr

/-- The value of an option that has not been given before. -/
def fresh {α : Type} (earlier : Option α) (value : Option α) : Except Stop (Option α) :=
  match earlier, value with
  | none, some value => .ok (some value)
  | _, _ => .error .usage

/-- Paths are not empty. -/
def path? (t : Text) : Option Text := if t.isEmpty then none else some t

def numberIn? (low high : Nat) (t : Text) : Option Nat :=
  t.numeral?.filter fun n => low ≤ n && n ≤ high

namespace Options

def set (o : Options) (setting : Setting) (value : Text) : Except Stop Options := do
  match setting with
  | .output => return { o with output := ← fresh o.output (path? value) }
  | .emit => return { o with emit := ← fresh o.emit (Emit.ofName? value) }
  | .backend =>
    let backend := if value = BackendKind.host.name then some BackendKind.host else none
    return { o with backend := ← fresh o.backend backend }
  | .framework => return { o with framework := ← fresh o.framework (some value) }
  | .gangs => return { o with gangs := ← fresh o.gangs (numberIn? 1 (UInt32.size - 1) value) }
  | .entry => return { o with entry := ← fresh o.entry (some value) }
  | .tabWidth => return { o with tabWidth := ← fresh o.tabWidth (numberIn? 1 16 value) }
  | .config => return { o with config := ← fresh o.config (path? value) }

def switch (o : Options) : Switch → Except Stop Options
  | .verbose => .ok { o with verbosity := o.verbosity + 1 }
  | .quiet => if o.quiet then .error .usage else .ok { o with quiet := true }
  | .version => .error .version
  | .help => .error .help

def positional (o : Options) (value : Text) : Except Stop Options := do
  return { o with input := ← fresh o.input (path? value) }

end Options

/-- The options read so far, and what the next argument means. -/
structure Reading where
  options : Options := {}
  /-- The option that waits for its value. -/
  pending : Option Setting := none
  /-- Options have come to an end. -/
  onlyPositional : Bool := false

namespace Reading

def long (r : Reading) (body : Text) : Except Stop Reading := do
  let (name, value) : Text × Option Text := match Text.cut? "=" body with
    | some (name, value) => (name, some value)
    | none => (body, none)
  match Setting.ofName? name, Switch.ofName? name, value with
  | some setting, _, some value => return { r with options := ← r.options.set setting value }
  | some setting, _, none => return { r with pending := some setting }
  | none, some switch, none => return { r with options := ← r.options.switch switch }
  | _, _, _ => .error .usage

/-- A run of letters behind one dash. The letter of an option that takes a value ends the run; the
value may stand behind an equals sign. -/
def short (r : Reading) : Text → Except Stop Reading
  | [] => .ok r
  | c :: cs => do
    match Setting.ofLetter? c, Switch.ofLetter? c, cs with
    | some setting, _, [] => return { r with pending := some setting }
    | some setting, _, cs =>
      let value := (Text.after? "=" cs).getD cs
      return { r with options := ← r.options.set setting value }
    | none, some switch, cs => short { r with options := ← r.options.switch switch } cs
    | none, none, _ => .error .usage

/-- Reads one argument. -/
def step (r : Reading) (arg : Text) : Except Stop Reading :=
  if r.onlyPositional then do
    return { r with options := ← r.options.positional arg }
  else if Text.startsWith "-" arg && arg != "-" then
    if r.pending.isSome then .error .usage
    else match Text.after? "--" arg with
      | some [] => .ok { r with onlyPositional := true }
      | some body => r.long body
      | none => r.short (arg.drop 1)
  else match r.pending with
    | some setting => do
      return { r with options := ← r.options.set setting arg, pending := none }
    | none => do return { r with options := ← r.options.positional arg }

/-- All options were given their values, and there is an input. -/
def finish (r : Reading) : Except Stop (Options × Text) :=
  match r.pending, r.options.input with
  | none, some input => .ok (r.options, input)
  | _, _ => .error .usage

end Reading

/-- The options and the input file. -/
def readOptions (args : List Text) : Except Stop (Options × Text) := do
  (← args.foldlM Reading.step {}).finish

/-- The settings of a configuration, overridden by the options. -/
def Options.apply (o : Options) (c : Config) : Config :=
  { c with
    framework := o.framework.getD c.framework
    gangs := o.gangs.getD c.gangs
    entry := o.entry.getD c.entry
    tabWidth := o.tabWidth.getD c.tabWidth
    backend := o.backend.getD c.backend }

end CommandLine
end Offload
