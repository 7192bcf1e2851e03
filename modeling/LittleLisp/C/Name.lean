import LittleLisp.Text.Case
import LittleLisp.Text.Hex

/-!
# C names

A source name that is a C identifier keeps its spelling. Any other name is cut into words at
hyphens and underscores, the words are put into lower case with an underscore between the parts
that capitals and digits mark, signs are spelled out, and other characters are written by number.
-/

namespace LittleLisp.C

/-- A capital letter of ASCII. -/
def isCapital (c : Char) : Bool :=
  decide ('A' ≤ c) && decide (c ≤ 'Z')

/-- A small letter of ASCII. -/
def isSmall (c : Char) : Bool :=
  decide ('a' ≤ c) && decide (c ≤ 'z')

/-- A digit of ASCII. -/
def isDecimal (c : Char) : Bool :=
  decide ('0' ≤ c) && decide (c ≤ '9')

/-- A character that may start a C identifier. -/
def isNameStart (c : Char) : Bool :=
  c == '_' || isSmall c || isCapital c

/-- A character that may stand in a C identifier. -/
def isNamePart (c : Char) : Bool :=
  isNameStart c || isDecimal c

/-- A C identifier, character by character. -/
def isIdentifier : List Char → Bool
  | [] => false
  | c :: rest => isNameStart c && rest.all isNamePart

/-- Another part of a word starts between two characters. -/
def isBreak (c next : Char) : Bool :=
  (isCapital c && (isSmall next || isDecimal next)) ||
    (isSmall c && (isCapital next || isDecimal next)) ||
    (isDecimal c && (isCapital next || isSmall next))

/-- A letter of ASCII in lower case. -/
def small (c : Char) : Char :=
  if isCapital c then Char.ofNat (c.toNat + 32) else c

/-- A word of letters and digits in lower case, with an underscore between its parts. A capital
before a small letter starts a part; `before` is the character before the word. -/
def snake (before : Option Char) : List Char → List Char
  | [] => []
  | [c] => [small c]
  | c :: next :: rest =>
    let tail := snake (some c) (next :: rest)
    if isBreak c next then
      (if isCapital c && isSmall next && before.any isCapital then ['_'] else []) ++
        small c :: ((if isSmall c || isDecimal c || isDecimal next then ['_'] else []) ++ tail)
    else small c :: tail

/-- The word for a character that cannot stand in a C identifier. -/
def signWord (c : Char) : List Char :=
  match c with
  | '+' => "plus".toList
  | '*' => "star".toList
  | '/' => "slash".toList
  | '<' => "lt".toList
  | '>' => "gt".toList
  | '=' => "eq".toList
  | '!' => "bang".toList
  | '?' => "p".toList
  | _ => 'u' :: Text.hex 4 c.toNat

/-- The word that has been collected, if there is one. -/
def finishWord : List Char → List (List Char)
  | [] => []
  | word => [snake none word]

/-- The words of a name, where `word` has been collected already. -/
def nameWords (word : List Char) : List Char → List (List Char)
  | [] => finishWord word
  | c :: rest =>
    if c = '-' ∨ c = '_' then finishWord word ++ nameWords [] rest
    else if isCapital c || isSmall c || isDecimal c then nameWords (word ++ [c]) rest
    else finishWord word ++ signWord c :: nameWords [] rest

/-- A C identifier from words: what would be empty or start with a digit gets `v_` in front. -/
def joinWords (words : List (List Char)) : List Char :=
  let name := ['_'].intercalate words
  match name with
  | [] => ['v', '_']
  | c :: _ => if isDecimal c then 'v' :: '_' :: name else name

/-- The C spelling of a source name, character by character. -/
def nameChars (name : List Char) : List Char :=
  if isIdentifier name then name else joinWords (nameWords [] name)

/-- The C spelling of a source name. -/
def spell (name : String) : String :=
  String.ofList (nameChars name.toList)

/-- The words of C, old and new, that no function or parameter can be called. -/
def keywords : List String :=
  ["auto", "break", "case", "char", "const", "continue", "default", "do", "double", "else", "enum",
   "extern", "float", "for", "goto", "if", "inline", "int", "long", "register", "restrict",
   "return", "short", "signed", "sizeof", "static", "struct", "switch", "typedef", "union",
   "unsigned", "void", "volatile", "while", "_Alignas", "_Alignof", "_Atomic", "_Bool",
   "_Complex", "_Generic", "_Imaginary", "_Noreturn", "_Static_assert", "_Thread_local",
   "alignas", "alignof", "bool", "constexpr", "false", "nullptr", "static_assert",
   "thread_local", "true", "typeof", "typeof_unqual", "NULL"]

/-- What starts every name of the runtime. -/
def runtimeStart : List Char :=
  "ll_".toList

/-- A name that the runtime keeps for itself, in any case. -/
def isRuntimeName (name : String) : Bool :=
  runtimeStart.isPrefixOf (Text.toLower name).toList

end LittleLisp.C
