import Offload.Pragma
import Offload.Clause.Reader
import Offload.Config
import Offload.Directive.Tree

/-!
From annotated source to a tree of directives. Annotations are read in the order of their lines, so
the directives around an annotation are in the tree when its clauses are read.
-/
namespace Offload

/-- Splits the tokens of a fused annotation into those of the loop and those of the construct. The
loop gets every clause that it accepts, and detached arguments stay with their keyword. -/
def routeFrom (toLoop : Bool) : List Text → List Text × List Text
  | [] => ([], [])
  | token :: rest =>
    let toLoop :=
      if Token.isArgument token then toLoop
      else (ClauseKind.ofKeyword? (Token.split token).1).any DirectiveKind.loop.accepts
    let (loop, construct) := routeFrom toLoop rest
    if toLoop then (token :: loop, construct) else (loop, token :: construct)

def routeFused (tokens : List Text) : List Text × List Text := routeFrom false tokens

namespace DirectiveTree

def insertLogged (t : DirectiveTree) (d : Directive) : Logged Error (DirectiveTree × Nat) := do
  let (new, id) ← (t.insert d).mapError Error.internal
  .log .trace ("inserted #" ++ Text.decimal id ++ " at line " ++ Text.decimal d.line ++
    " under #" ++ Text.decimal (t.parentFor d.line))
  return (new, id)

def attachLogged (t : DirectiveTree) (owner : Nat) (d : Directive) :
    Logged Error (DirectiveTree × Nat) := do
  let (new, id) ← (t.attach owner d).mapError Error.internal
  .log .trace ("attached hybrid #" ++ Text.decimal id ++ " under #" ++ Text.decimal owner)
  return (new, id)

end DirectiveTree

namespace PragmaLine

/-- The region of an annotation; a fused one governs a statement. -/
def region (config : Config) (s : Source) (line : Nat) (p : Pragma) :
    Except SyntaxFault (Option Region) :=
  if p.fused then do return some ⟨← Region.scope s line, false⟩
  else Region.find config.markers s p.kind line

/-- The clauses of a directive that stands inside the given ones. -/
def readClauses (s : Source) (d : Directive) (ancestors : List Directive) (tokens : List Text) :
    Logged Error ClauseSet :=
  ClauseContext.readAll
    { kind := d.kind, line := d.line, region := d.region, source := s, ancestors } tokens

/-- The loop half of a fused annotation, without its clauses. -/
def loopHalf (construct : Directive) : Directive :=
  { kind := .loop, line := construct.line, region := construct.region, fused := true }

/-- The directive of an annotation, without its clauses. -/
def bare (a : PragmaLine) (pragma : Pragma) (found : Option Region) : Directive where
  kind := pragma.kind
  line := a.line
  region := found.map Region.span
  argument := pragma.argument
  fused := pragma.fused
  delimited := found.any Region.delimited

/-- Reads the directive of an annotation that stands inside the given ones, and its loop half if the
annotation is fused. -/
def directives (config : Config) (s : Source) (around : List Directive) (a : PragmaLine) :
    Logged Error (Directive × Option Directive) := do
  let pragma ← (Pragma.read a.body).mapError (Error.malformed a.line)
  .log .debug ("line " ++ Text.decimal a.line ++ ": `" ++ pragma.kind.keyword ++ "`" ++
    (if pragma.fused then " loop" else ""))
  let found ← (region config s a.line pragma).mapError (Error.malformed a.line)
  let d := a.bare pragma found
  if pragma.fused then
    let (loopTokens, constructTokens) := routeFused pragma.tokens
    let construct := d.withClauses (← readClauses s d around constructTokens)
    let half := loopHalf construct
    return (construct, some (half.withClauses
      (← readClauses s half (construct :: around) loopTokens)))
  else return (d.withClauses (← readClauses s d around pragma.tokens), none)

/-- Reads an annotation and adds its directives to the tree. -/
def addTo (config : Config) (s : Source) (tree : DirectiveTree) (a : PragmaLine) :
    Logged Error DirectiveTree := do
  let (d, half) ← a.directives config s ((tree.ancestorsAt a.line).map tree.get)
  let (tree, owner) ← tree.insertLogged d
  match half with
  | none => return tree
  | some half => return (← tree.attachLogged owner half).1

end PragmaLine

/-- The tree of all directives of a source. -/
def parseDirectives (config : Config) (s : Source) : Logged Error DirectiveTree := do
  let framework ← PragmaLine.checkFramework config.framework
  let tree ← (PragmaLine.scan framework s).foldlM (PragmaLine.addTo config s) (.empty s.size)
  tree.validate.mapError Error.internal
  .log .info ("parsed " ++ Text.decimal tree.entries.length ++ " directives over " ++
    Text.decimal s.size ++ " lines")
  return tree

end Offload
