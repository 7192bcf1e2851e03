import LittleLisp.Inference

/-!
# Settings

What a project may choose about the C that is made: the runtime header, the limit on inference, what
a conditional does when no clause applies, how names are spelled, and the C types without a native
form.
-/

namespace LittleLisp

/-- What happens when no clause of a conditional body applies. -/
inductive Fallback where
  /-- The program ends in the runtime's trap. -/
  | trap
  /-- Nothing is done about it. -/
  | none
  /-- A choice that does not exist. -/
  | unknown (text : String)
deriving DecidableEq, Repr

namespace Fallback

/-- The choice that a text names. -/
def ofText (s : String) : Fallback :=
  if s = "trap" then trap else if s = "none" then none else unknown s

/-- The text of a choice. -/
def text : Fallback → String
  | trap => "trap"
  | none => "none"
  | unknown s => s

end Fallback

/-- The C spellings of the types without a native form. -/
structure TypeNames where
  string : String := "LL_String"
  list : String := "LL_List"
  any : String := "LL_Any"
deriving DecidableEq, Repr

/-- The settings of a project. -/
structure Settings where
  header : String := "lili/lilib.h"
  maxRounds : Int := Inference.defaultLimit
  fallback : Fallback := .trap
  mangle : Bool := true
  types : TypeNames := {}
deriving DecidableEq, Repr

/-- Why settings cannot be used. -/
inductive Settings.Flaw where
  | fallback (text : String)
  | maxRounds (given : Int)
  | header
  | types
deriving DecidableEq, Repr

/-- What is said about a flaw. -/
def Settings.Flaw.message : Settings.Flaw → String
  | fallback text =>
    "cond_fallback must be " ++ Text.quoted "trap" ++ " or " ++ Text.quoted "none" ++ ", got " ++
      Text.quoted text
  | maxRounds given => "max_rounds must be positive, got " ++ toString given
  | header => "header must not be empty"
  | types => "types.string, types.list and types.any must all be set"

namespace Settings

/-- The first flaw of settings, if there is one. -/
def flaw? (s : Settings) : Option Flaw :=
  match s.fallback with
  | .unknown text => some (.fallback text)
  | _ =>
    if s.maxRounds ≤ 0 then some (.maxRounds s.maxRounds)
    else if s.header = "" then some .header
    else if s.types.string = "" ∨ s.types.list = "" ∨ s.types.any = "" then some .types
    else none

end Settings

end LittleLisp
