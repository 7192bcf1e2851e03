import LittleLisp.Terminal
import LittleLisp.Text.Blank
import LittleLisp.Text.Quoted

/-!
# Log records

The work leaves records behind: a message at a level, with named values. Three forms are written:
one with all values as they are, and, where a value that could be misread is quoted, one for a
terminal, with styles, and one for a file, which names the level and the message as well.
-/

namespace LittleLisp

/-- How much a record matters. -/
inductive Record.Level where
  | debug
  | info
  | warn
deriving DecidableEq, Repr

/-- A log record. -/
structure Record where
  level : Record.Level
  message : String
  values : List (String × String)
deriving DecidableEq, Repr

namespace Record

/-- The name of a level. -/
def Level.name : Level → String
  | debug => "DEBUG"
  | info => "INFO"
  | warn => "WARN"

/-- The short name of a level, for a terminal. -/
def Level.shortName : Level → String
  | debug => "DBG"
  | info => "INF"
  | warn => "WRN"

/-- A record with all values as they are. -/
def text (r : Record) : String :=
  " ".intercalate
    (r.level.name :: r.message :: r.values.map fun (key, value) => key ++ "=" ++ value)

/-- The character that begins a control sequence of a terminal. -/
def escape : Char :=
  Char.ofNat 27

/-- A character that would be misread in a plain value: a blank, an equals sign, a double quote, a
control character other than the deletion sign, or a character beyond ASCII that is not printable
or stands for a broken one. -/
def misread (c : Char) : Bool :=
  if c.toNat < 0x80 then
    c == ' ' || c == '=' || c == Text.doubleQuote || decide (c.toNat < 0x20)
  else
    c.toNat == 0xfffd || Text.isBlank c || !Text.isPrintable c

/-- A value that has to be quoted: an empty one, or one with a character that would be misread. -/
def needsQuotes (value : String) : Bool :=
  value.isEmpty || value.toList.any misread

/-- A value that has to be quoted on a terminal, which takes its control sequences as they are. -/
def needsQuotesStyled (value : String) : Bool :=
  value.isEmpty || value.toList.any fun c => c != escape && misread c

/-- Quoted text in which control sequences work again. -/
def revive : List Char → List Char
  | '\\' :: 'x' :: '1' :: 'b' :: rest => escape :: revive rest
  | c :: rest => c :: revive rest
  | [] => []

/-- A value as it is written to a log file. -/
def valueText (value : String) : String :=
  if needsQuotes value then Text.quoted value else value

/-- A value as it is written on a terminal. -/
def styledText (value : String) : String :=
  if needsQuotesStyled value then String.ofList (revive (Text.quoted value).toList) else value

/-- The short name of a level in its colour. -/
def Level.styled : Level → String
  | debug => debug.shortName
  | info => Terminal.sequence "92" ++ info.shortName ++ Terminal.sequence "0"
  | warn => Terminal.sequence "93" ++ warn.shortName ++ Terminal.sequence "0"

/-- A record as a line on a terminal, with faint keys. -/
def line (r : Record) : String :=
  " ".intercalate (r.level.styled :: r.message :: r.values.map fun (key, value) =>
    Terminal.sequence "2" ++ styledText key ++ "=" ++ Terminal.sequence "0" ++ styledText value) ++
    "\n"

/-- A record as a line in which the level and the message are named. -/
def entry (r : Record) : String :=
  " ".intercalate ((("level", r.level.name) :: ("msg", r.message) :: r.values).map
    fun (key, value) => key ++ "=" ++ valueText value) ++ "\n"

end Record

end LittleLisp
