import Offload.Directive

/-!
What can go wrong, by cause. The wording of every cause is here, so that the rest of the library
speaks of causes only.
-/
namespace Offload

/-- Sorts of malformed annotations and of code that does not fit them. -/
inductive SyntaxCategory
  | missingDirective
  | unknownDirective
  | unbalancedParens
  | invalidArgument
  | loopCountMismatch
  | uncountableLoop
  | unterminatedBlock
  | missingStatement
deriving DecidableEq, Repr

inductive SyntaxFault
  | noDirective
  | unknownDirective (word : Text)
  | unexpectedClose
  | unclosedOpen
  | missingArgument (clause : ClauseKind)
  | needlessArgument (clause : ClauseKind) (argument : Text)
  | notPositive (clause : ClauseKind) (text : Text)
  | zeroSize (clause : ClauseKind)
  | emptyList (clause : ClauseKind)
  | noOperator
  | unknownOperator (symbol : Text)
  | emptyReduction (operator : ReductionOp)
  | unknownDefault (word : Text)
  | notFunctionName (text : Text)
  | noTileSizes
  | unknownGangArgument (item : Text)
  | repeatedGangArgument (name : Text)
  | cacheWithoutVariables
  | directiveWithArgument (kind : DirectiveKind)
  | emptyDirectiveArgument (kind : DirectiveKind)
  | routineWithNames
  | malformedSignature
  | loopCount (expected found : Nat)
  | uncountable (iterable : Text)
  | unterminatedBlock (openLine : Nat)
  | noStatement
  | noStatementInBlock
  | noLoopNest (clause : ClauseKind)
  | noFunction
deriving DecidableEq, Repr

namespace SyntaxFault

def category : SyntaxFault → SyntaxCategory
  | .noDirective => .missingDirective
  | .unknownDirective _ => .unknownDirective
  | .unexpectedClose | .unclosedOpen => .unbalancedParens
  | .loopCount _ _ => .loopCountMismatch
  | .uncountable _ => .uncountableLoop
  | .unterminatedBlock _ => .unterminatedBlock
  | .noStatement | .noStatementInBlock | .noLoopNest _ | .noFunction => .missingStatement
  | _ => .invalidArgument

def ofClause (clause : ClauseKind) (complaint : Text) : Text :=
  "`" ++ clause.keyword ++ "`: " ++ complaint

def message : SyntaxFault → Text
  | .noDirective => "annotation has no directive"
  | .unknownDirective word => "unknown directive `" ++ word ++ "`"
  | .unexpectedClose => "unexpected `)`"
  | .unclosedOpen => "unclosed `(`"
  | .missingArgument clause => ofClause clause "missing argument"
  | .needlessArgument clause argument =>
    ofClause clause ("takes no argument, got `(" ++ argument ++ ")`")
  | .notPositive clause text => ofClause clause ("`" ++ text ++ "` is not a positive integer")
  | .zeroSize clause => ofClause clause "must be positive"
  | .emptyList clause => ofClause clause "empty variable list"
  | .noOperator => ofClause .reduction "expected `operator: variables`"
  | .unknownOperator symbol => ofClause .reduction ("unknown operator `" ++ symbol ++ "`")
  | .emptyReduction operator => "reduction over `" ++ operator.symbol ++ "` names no variables"
  | .unknownDefault word => "`default` takes `none` or `present`, got `" ++ word ++ "`"
  | .notFunctionName text => "`bind` expects a function name, got `" ++ text ++ "`"
  | .noTileSizes => "`tile` needs sizes"
  | .unknownGangArgument item => "unknown `gang` argument `" ++ item ++ "`"
  | .repeatedGangArgument name => "`gang` argument `" ++ name ++ "` given twice"
  | .cacheWithoutVariables => "`cache` needs a variable list"
  | .directiveWithArgument kind => "`" ++ kind.keyword ++ "` takes no argument"
  | .emptyDirectiveArgument kind => "empty argument to `" ++ kind.keyword ++ "`"
  | .routineWithNames => "`routine` names a single function"
  | .malformedSignature => "malformed function signature"
  | .loopCount expected found =>
    "expected " ++ Text.decimal expected ++ " loops, found " ++ Text.decimal found
  | .uncountable iterable => "loop over `" ++ iterable ++ "` has no countable trip range"
  | .unterminatedBlock openLine =>
    "block opened at line " ++ Text.decimal openLine ++ " is never closed"
  | .noStatement => "directive is not followed by a statement"
  | .noStatementInBlock => "directive is not followed by a statement in its block"
  | .noLoopNest clause => "`" ++ clause.keyword ++ "` needs a governed loop nest"
  | .noFunction => "no function definition found"

end SyntaxFault

/-- Sorts of clauses that cannot stand where they are. -/
inductive ClauseCategory
  | unrecognized
  | ancestorConflict
  | duplicate
  | conflicting
  | missing
deriving DecidableEq, Repr

inductive ClauseFault
  | unrecognized (name : Text) (directive : DirectiveKind)
  /-- A size that needs a `kernels` construct around it. -/
  | sizeOutside (clause : ClauseKind) (written : Text)
  /-- A size inside a construct of another kind, which has a clause of its own for it. -/
  | sizeInside (clause : ClauseKind) (written : Text) (construct : DirectiveKind) (line : Nat)
    (constructClause : ClauseKind)
  /-- A size inside a `kernels` construct that sets it already. -/
  | sizeTwice (clause : ClauseKind) (written : Text) (constructClause : ClauseKind) (line : Nat)
  | duplicate (clause : ClauseKind) (directive : DirectiveKind)
  | conflicting (clause other : ClauseKind) (directive : DirectiveKind)
  | missing (directive : DirectiveKind)
deriving DecidableEq, Repr

namespace ClauseFault

def category : ClauseFault → ClauseCategory
  | .unrecognized _ _ => .unrecognized
  | .sizeOutside _ _ | .sizeInside _ _ _ _ _ | .sizeTwice _ _ _ _ => .ancestorConflict
  | .duplicate _ _ => .duplicate
  | .conflicting _ _ _ => .conflicting
  | .missing _ => .missing

/-- The clause at fault, as far as there is one. -/
def clauseText : ClauseFault → Text
  | .unrecognized name _ => name
  | .sizeOutside clause _ | .sizeInside clause _ _ _ _ | .sizeTwice clause _ _ _
  | .duplicate clause _ | .conflicting clause _ _ => clause.keyword
  | .missing _ => ""

/-- The clauses that could stand there instead. -/
def expected : ClauseFault → List Text
  | .unrecognized _ directive => directive.acceptedClauses.map ClauseKind.keyword
  | .missing directive => directive.requiredClauses.map ClauseKind.keyword
  | _ => []

def message : ClauseFault → Text
  | .unrecognized name directive =>
    "`" ++ name ++ "` is not a clause of `" ++ directive.keyword ++ "`"
  | .sizeOutside _ written =>
    "`" ++ written ++ "` with an explicit size must be inside a `kernels` construct"
  | .sizeInside _ written construct line constructClause =>
    "`" ++ written ++ "` with an explicit size is not allowed inside `" ++ construct.keyword ++
      "` (line " ++ Text.decimal line ++ "); use `" ++ constructClause.keyword ++
      "` on the construct"
  | .sizeTwice _ written constructClause line =>
    "`" ++ written ++ "` with an explicit size conflicts with `" ++ constructClause.keyword ++
      "` on the enclosing `kernels` (line " ++ Text.decimal line ++ ")"
  | .duplicate clause directive =>
    "`" ++ clause.keyword ++ "` may appear only once on `" ++ directive.keyword ++ "`"
  | .conflicting clause other directive =>
    "`" ++ clause.keyword ++ "` cannot be combined with `" ++ other.keyword ++ "` on `" ++
      directive.keyword ++ "`"
  | .missing directive => "`" ++ directive.keyword ++ "` needs at least one data clause"

end ClauseFault

/-- Sorts of directives for which no code can be generated. -/
inductive GenerationCategory
  | unsupportedShape
  | unsupportedFeature
  | overlappingPatch
deriving DecidableEq, Repr

inductive GenerationFault
  | governsNothing (kind : DirectiveKind)
  | notForLoop
  | bodyOnHeaderLine
  | elseBranch
  | escapingBreak
  | escapingReturn
  | reductionTarget (text : Text)
  | patch (range body : Span)
deriving DecidableEq, Repr

namespace GenerationFault

def category : GenerationFault → GenerationCategory
  | .reductionTarget _ => .unsupportedFeature
  | .patch _ _ => .overlappingPatch
  | _ => .unsupportedShape

def message : GenerationFault → Text
  | .governsNothing kind => "`" ++ kind.keyword ++ "` governs no statement"
  | .notForLoop => "`loop` must govern a `for` statement"
  | .bodyOnHeaderLine => "loop body must start on its own line"
  | .elseBranch => "a `for` loop with an `else` clause cannot be parallelized"
  | .escapingBreak => "`break` cannot leave a parallel loop"
  | .escapingReturn => "`return` inside a parallel loop body"
  | .reductionTarget text => "cannot reduce into `" ++ text ++ "` on the host"
  | .patch range body => "cannot rewrite lines " ++ range.render ++ " of body " ++ body.render

end GenerationFault

/-- Misuse of the library, and trees that are not well formed. -/
inductive InternalFault
  | badFramework (word : Text)
  | secondRoot
  | lineOutside (line lineCount : Nat)
  | lineTaken (line id : Nat)
  | noNode (id : Nat)
  | strangeHalf (line : Nat) (owner : Directive)
  | halvesDisagree (line : Nat)
  | outsideParent (line parentLine : Nat)
  | childrenWithoutRegion (line : Nat)
  | escapesAncestor (line ancestorLine : Nat)
deriving DecidableEq

namespace InternalFault

def message : InternalFault → Text
  | .badFramework word => "framework keyword `" ++ word ++ "` must be a single word"
  | .secondRoot => "a tree has exactly one root"
  | .lineOutside line lineCount =>
    "directive line " ++ Text.decimal line ++ " is outside the source (" ++
      Text.decimal lineCount ++ " lines)"
  | .lineTaken line id =>
    "line " ++ Text.decimal line ++ " already holds node #" ++ Text.decimal id
  | .noNode id => "no node #" ++ Text.decimal id
  | .strangeHalf line owner =>
    "hybrid child at line " ++ Text.decimal line ++ " does not match its parent " ++ owner.render
  | .halvesDisagree line =>
    "hybrid halves at line " ++ Text.decimal line ++ " disagree on their region"
  | .outsideParent line parentLine =>
    "line " ++ Text.decimal line ++ " lies outside its parent at line " ++ Text.decimal parentLine
  | .childrenWithoutRegion line =>
    "node at line " ++ Text.decimal line ++ " has children but no region"
  | .escapesAncestor line ancestorLine =>
    "line " ++ Text.decimal line ++ " escapes the region of its ancestor at line " ++
      Text.decimal ancestorLine

end InternalFault

inductive Error
  | clause (line : Nat) (fault : ClauseFault)
  | malformed (line : Nat) (fault : SyntaxFault)
  | notImplemented (line : Nat) (backend : Text) (kind : DirectiveKind)
  | generation (line : Nat) (fault : GenerationFault)
  | internal (fault : InternalFault)
deriving DecidableEq

namespace Error

/-- The line that the error was found on, if it has one. -/
def line? : Error → Option Nat
  | .clause line _ | .malformed line _ | .notImplemented line _ _ | .generation line _ => some line
  | .internal _ => none

def atLine (line : Nat) (message : Text) : Text := message ++ " at line " ++ Text.decimal line

/-- The cause and the place, without the sort of error. -/
def detail : Error → Text
  | .clause line fault =>
    atLine line fault.message ++
      match fault.expected with
      | [] => []
      | expected => " (expected one of: " ++ Text.join ", " expected ++ ")"
  | .malformed line fault => atLine line fault.message
  | .notImplemented line backend kind =>
    atLine line
      ("backend `" ++ backend ++ "` has no generator for `" ++ kind.keyword ++ "` directives")
  | .generation line fault => atLine line fault.message
  | .internal fault => fault.message

def heading : Error → Text
  | .clause _ _ => "Invalid clause: "
  | .malformed _ _ => "Syntax error: "
  | .notImplemented _ _ _ => "Not implemented: "
  | .generation _ _ => "Code generation error: "
  | .internal _ => "Internal error: "

def message (e : Error) : Text := e.heading ++ e.detail

/-- The message and the causes below it. -/
def chain (e : Error) : List Text :=
  match e with
  | .internal _ => [e.message]
  | _ => [e.message, e.detail]

end Error
end Offload
