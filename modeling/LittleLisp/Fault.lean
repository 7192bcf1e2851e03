import LittleLisp.Tree.Printer
import LittleLisp.ValueType

/-!
# Faults

Everything that can be wrong with a program, as causes. A fault has a kind, which says which part
of the work found it, and a message for people. A problem is a fault at a place.
-/

namespace LittleLisp

/-- Which part of the work finds a fault. -/
inductive Fault.Kind where
  | reading
  | structural
  | unknownSymbol
  | arity
  | mismatch
  | lowering
  | other
deriving DecidableEq, Repr

/-- What is wrong with a program. -/
inductive Fault where
  /-- No token starts with this character. -/
  | unknownToken (c : Char)
  /-- A text that starts like a number is none. -/
  | badNumeral (text : Source)
  /-- A number is too large for a C `int`. -/
  | wideNumeral (text : Source)
  /-- A string has no closing quote. -/
  | openString
  /-- A character constant is not closed. -/
  | openChar
  /-- A character constant is not ASCII. -/
  | wideChar (c : Char)
  /-- A closing parenthesis closes nothing. -/
  | strayClose
  /-- A parenthesis is never closed. -/
  | openForm
  /-- A member of a `cond` is not a clause. -/
  | badClause (clause : Node)
  /-- The condition of a clause is a `cond`. -/
  | nestedCond
  /-- A top-level tree is not a form. -/
  | notForm (tree : Node)
  /-- A top-level form is not a `defun`. -/
  | notDefun (form : Node)
  /-- A `defun` ends before its name. -/
  | noName
  /-- A `defun` has no identifier for a name. -/
  | badName (tree : Node)
  /-- A `defun` takes a name of the language. -/
  | reservedName (name : String)
  /-- A `defun` ends before its parameters. -/
  | noParameters (function : String)
  /-- The parameters of a `defun` are not a form. -/
  | badParameters (tree : Node)
  /-- A parameter is not an identifier. -/
  | badParameter (tree : Node)
  /-- A parameter is named twice. -/
  | repeatedParameter (param function : String)
  /-- A `defun` ends before its body. -/
  | noBody (function : String)
  /-- A `defun` goes on after its body. -/
  | extraBody (function : String)
  /-- A form that is evaluated names no function. -/
  | notCall (form : Node)
  /-- A name stands for nothing. -/
  | unknownSymbol (name : String)
  /-- A call has the wrong number of arguments. -/
  | arity (function : String) (want got : Nat)
  /-- An argument has the wrong type; positions count from one. -/
  | mismatch (function param : String) (position : Nat) (want got : ValueType)
  /-- The uses of a parameter do not agree. -/
  | conflict (function param : String)
  /-- A library operator is given the wrong number of arguments. -/
  | operatorArity (operator : String) (want got : Nat)
  /-- A library operator has no C form. -/
  | unsupported (operator : String)
  /-- A `cond` that is used as a value may run out of clauses. -/
  | openCond
  /-- The C name of a source name is a word of C. -/
  | keywordName (source name : String)
  /-- The C name of a source name belongs to the runtime. -/
  | runtimeName (source name : String)
  /-- The C name of a source name is taken by another source name. -/
  | takenName (source name holder : String)
  /-- A listed function has no body to check. -/
  | bodiless (function : String)
  /-- The settings are not usable. -/
  | settings (reason : String)
  /-- A fault from elsewhere, known by its kind and text only. -/
  | reported (kind : Fault.Kind) (text : String)
deriving Repr

namespace Fault

/-- The kind of a fault. -/
def kind : Fault → Kind
  | unknownToken _ | badNumeral _ | wideNumeral _ | openString | openChar | wideChar _
  | strayClose | openForm | badClause _ | nestedCond => .reading
  | notForm _ | notDefun _ | noName | badName _ | reservedName _ | noParameters _
  | badParameters _ | badParameter _ | repeatedParameter _ _ | noBody _ | extraBody _
  | notCall _ => .structural
  | unknownSymbol _ => .unknownSymbol
  | arity _ _ _ => .arity
  | mismatch _ _ _ _ _ | conflict _ _ => .mismatch
  | operatorArity _ _ _ | unsupported _ | openCond | keywordName _ _ | runtimeName _ _
  | takenName _ _ _ => .lowering
  | bodiless _ | settings _ => .other
  | reported k _ => k

/-- The name or operator that could not be lowered. -/
def operator : Fault → String
  | operatorArity op _ _ | unsupported op => op
  | openCond => condWord
  | keywordName source _ | runtimeName source _ | takenName source _ _ => source
  | _ => ""

/-- What a fault says, without what its kind puts in front. -/
def detail : Fault → String
  | unknownToken c =>
    "unknown token " ++ Text.quoteSource Text.singleQuote [.char c]
  | badNumeral text =>
    "badly formatted number " ++ Text.quoteSource Text.doubleQuote text
  | wideNumeral text =>
    "integer constant " ++ text.toText ++ " does not fit in a C int"
  | openString => "expected '\"', got EOF"
  | openChar => "unterminated character constant"
  | wideChar c =>
    "character constant " ++ Text.quoteSource Text.singleQuote [.char c] ++ " is not ASCII"
  | strayClose => "unexpected ')'"
  | openForm => "expected ')' but got EOF"
  | badClause clause => "incorrect cond clause: " ++ clause.text
  | nestedCond => "a cond clause condition cannot be a cond"
  | notForm tree => "not a function definition: " ++ tree.text
  | notDefun form => "not a defun: " ++ form.text
  | noName => "defun is missing a function name"
  | badName tree => "not a function name definition: " ++ tree.text
  | reservedName name => "cannot redefine reserved name " ++ name
  | noParameters function => "defun " ++ function ++ " is missing an argument list"
  | badParameters tree => "not an argument list: " ++ tree.text
  | badParameter tree => "not an identifier: " ++ tree.text
  | repeatedParameter param function =>
    "duplicate parameter " ++ param ++ " in defun " ++ function
  | noBody function => "defun " ++ function ++ " has no body"
  | extraBody function => "defun " ++ function ++ " has more than one body expression"
  | notCall form => "not a function call: " ++ form.text
  | unknownSymbol name => "unknown symbol " ++ name
  | arity function want got =>
    "wrong number of arguments in call to " ++ function ++ ": want " ++ toString want ++
      ", got " ++ toString got
  | mismatch function param position want got =>
    "wrong argument type in call to " ++ function ++ ": argument " ++ toString position ++
      " (" ++ param ++ ") wants " ++ want.name ++ ", got " ++ got.name
  | conflict function param =>
    "parameter " ++ param ++ " of " ++ function ++ " is used with conflicting types"
  | operatorArity _ want got =>
    "expects " ++ toString want ++ " arguments, got " ++ toString got
  | unsupported _ => "unsupported built-in"
  | openCond => "a cond used as a value must end with a T clause"
  | keywordName _ name => name ++ " is a reserved word in C"
  | runtimeName _ name => name ++ " clashes with a runtime name"
  | takenName _ name holder => "C name " ++ name ++ " is already used by " ++ holder
  | bodiless function => "unexpected node <nil> in " ++ function
  | settings reason => "invalid config: " ++ reason
  | reported _ text => text

/-- The message of a fault. -/
def message (f : Fault) : String :=
  match f.kind with
  | .reading => "syntax error: " ++ f.detail
  | .lowering => "cannot lower " ++ f.operator ++ ": " ++ f.detail
  | _ => f.detail

end Fault

/-- A fault and where it was found, if that is known. -/
structure Problem where
  fault : Fault
  loc : Option Location
deriving Repr

/-- A fault at a place. -/
def Fault.at (f : Fault) (l : Location) : Problem :=
  ⟨f, some l⟩

/-- The message of a problem. -/
def Problem.message (p : Problem) : String :=
  p.fault.message

end LittleLisp
