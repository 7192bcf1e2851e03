import LittleLisp.Text.Quoted

/-!
# Flags

Arguments of a command are flags and words, in any order. A flag has a long name after two hyphens
and maybe a letter after one; it takes a value after an equals sign or as the next argument, except
that a switch takes one only after an equals sign. Two hyphens alone end the flags.
-/

namespace LittleLisp.Command

/-- What may be chosen on the command line. -/
inductive Flag where
  | debug
  | header
  | maxRounds
  | output
  | server
  | serverLog
  | sexp
  | noDescriptions
  | help
  | version
deriving DecidableEq, Repr

namespace Flag

/-- The long name of a flag. -/
def name : Flag → String
  | debug => "debug"
  | header => "header"
  | maxRounds => "max-rounds"
  | output => "output"
  | server => "lsp"
  | serverLog => "lsp-log-file"
  | sexp => "sexp"
  | noDescriptions => "no-descriptions"
  | help => "help"
  | version => "version"

/-- The letter of a flag. -/
def letter? : Flag → Option Char
  | debug => some 'd'
  | output => some 'o'
  | help => some 'h'
  | version => some 'v'
  | _ => none

/-- What a flag is about, for the command of some name. -/
def about (command : String) : Flag → String
  | debug => "Enable debug logging"
  | header => "Runtime header to include (overrides lili.toml)"
  | maxRounds => "Type inference round limit (overrides lili.toml)"
  | output => "Output file, or - for stdout (single input only)"
  | server => "Run in Language Server Protocol mode"
  | serverLog => "Path to LSP log file (stderr if not specified)"
  | sexp => "Print S-expressions instead of Go structures"
  | noDescriptions => "disable completion descriptions"
  | help => "help for " ++ command
  | version => "version for " ++ command

/-- A switch is on when it is named. -/
def isSwitch : Flag → Bool
  | debug | server | sexp | noDescriptions | help | version => true
  | _ => false

/-- The flags of every command. -/
def common : List Flag :=
  [debug, header, maxRounds]

/-- How a message calls a flag. -/
def label (f : Flag) : String :=
  match f.letter? with
  | some c => "-" ++ String.singleton c ++ ", --" ++ f.name
  | none => "--" ++ f.name

/-- The flag of a name among some. -/
def ofName? (known : List Flag) (name : String) : Option Flag :=
  known.find? (·.name == name)

/-- The flag of a letter among some. -/
def ofLetter? (known : List Flag) (c : Char) : Option Flag :=
  known.find? (·.letter? == some c)

end Flag

/-- What was chosen on the command line. -/
structure Options where
  debug : Bool := false
  header : Option String := none
  maxRounds : Option Int := none
  output : String := ""
  server : Bool := false
  serverLog : String := ""
  sexp : Bool := false
  noDescriptions : Bool := false
  help : Bool := false
  version : Bool := false
  /-- The flags that were given, the last one first. -/
  given : List Flag := []
deriving DecidableEq, Repr

/-- Why a text is not an integer. -/
inductive IntError where
  | badForm
  | outOfRange
deriving DecidableEq, Repr

/-- What is said about a text that is not an integer. -/
def IntError.message : IntError → String
  | badForm => "invalid syntax"
  | outOfRange => "value out of range"

/-- The value of a digit, or of a letter as a digit above nine. -/
def digitOf? (c : Char) : Option Nat :=
  let n := c.toNat
  if 48 ≤ n ∧ n ≤ 57 then some (n - 48)
  else if 97 ≤ n ∧ n ≤ 122 then some (n - 87)
  else if 65 ≤ n ∧ n ≤ 90 then some (n - 55)
  else none

/-- The base that a letter after a zero stands for. -/
def baseOf? (c : Char) : Option Nat :=
  match c with
  | 'x' | 'X' => some 16
  | 'o' | 'O' => some 8
  | 'b' | 'B' => some 2
  | _ => none

/-- The largest number of 64 bits. -/
def largest : Nat := 18446744073709551615

/-- The value of digits in a base. Underscores between them do not count. The first character that
is no digit, or that makes the number too large, decides. -/
def digitsValue (base value : Nat) : List Char → Except IntError Nat
  | [] => .ok value
  | c :: rest =>
    if c = '_' then digitsValue base value rest
    else
      match digitOf? c with
      | none => .error .badForm
      | some d =>
        if base ≤ d then .error .badForm
        else if largest < value * base + d then .error .outOfRange
        else digitsValue base (value * base + d) rest

/-- Every underscore stands between two digits. -/
def underscoresFit (afterDigit : Bool) : List Char → Bool
  | [] => afterDigit
  | c :: rest =>
    if c = '_' then afterDigit && underscoresFit false rest else underscoresFit true rest

/-- The value of digits in a base with underscores between them. -/
def groupedValue (base : Nat) (afterDigit : Bool) (digits : List Char) : Except IntError Nat :=
  match digitsValue base 0 digits with
  | .error e => .error e
  | .ok n =>
    if digits.contains '_' && !underscoresFit afterDigit digits then .error .badForm else .ok n

/-- A number without a sign: in base ten, or in the base that a zero at its start shows. The letter
of a base needs a digit after it; a zero alone shows base eight. -/
def parseNat : List Char → Except IntError Nat
  | [] => .error .badForm
  | '0' :: letter :: digit :: rest =>
    match baseOf? letter with
    | some base => groupedValue base true (digit :: rest)
    | none => groupedValue 8 true (letter :: digit :: rest)
  | '0' :: rest => groupedValue 8 true rest
  | cs => groupedValue 10 false cs

/-- An integer of 64 bits with an optional sign, in base ten or the base that its start shows. -/
def parseInt (s : String) : Except IntError Int :=
  let (negative, unsigned) := match s.toList with
    | '-' :: rest => (true, rest)
    | '+' :: rest => (false, rest)
    | cs => (false, cs)
  match parseNat unsigned with
  | .error e => .error e
  | .ok n =>
    let value : Int := if negative then -n else n
    if -9223372036854775808 ≤ value ∧ value ≤ 9223372036854775807 then .ok value
    else .error .outOfRange

/-- A truth value. -/
def parseBool? (s : String) : Option Bool :=
  if ["1", "t", "T", "true", "TRUE", "True"].contains s then some true
  else if ["0", "f", "F", "false", "FALSE", "False"].contains s then some false
  else none

/-- What is said about a value that does not fit its flag. -/
def badValue (f : Flag) (value reason : String) : String :=
  "invalid argument " ++ Text.quoted value ++ " for " ++ Text.quoted f.label ++ " flag: " ++ reason

/-- The options with the value of a flag. -/
def Options.assign (o : Options) (f : Flag) (value : String) : Except String Options :=
  let switch (change : Bool → Options) : Except String Options :=
    match parseBool? value with
    | some b => .ok (change b)
    | none =>
      .error (badValue f value ("strconv.ParseBool: parsing " ++ Text.quoted value ++ ": " ++
        IntError.badForm.message))
  match f with
  | .debug => switch fun debug => { o with debug }
  | .server => switch fun server => { o with server }
  | .sexp => switch fun sexp => { o with sexp }
  | .noDescriptions => switch fun noDescriptions => { o with noDescriptions }
  | .help => switch fun help => { o with help }
  | .version => switch fun version => { o with version }
  | .header => .ok { o with header := some value }
  | .output => .ok { o with output := value }
  | .serverLog => .ok { o with serverLog := value }
  | .maxRounds =>
    match parseInt value with
    | .ok n => .ok { o with maxRounds := some n }
    | .error e =>
      .error (badValue f value ("strconv.ParseInt: parsing " ++ Text.quoted value ++ ": " ++
        e.message))

/-- Gives a flag a value. -/
def Options.set (o : Options) (f : Flag) (value : String) : Except String Options :=
  (o.assign f value).map fun new => { new with given := f :: o.given }

/-- A flag that has been read: its value, and whether the next argument was taken for it. -/
structure Taken where
  options : Options
  tookNext : Bool

/-- Gives a flag the value after its equals sign, its value as a switch, or the next argument. -/
def takeValue (o : Options) (f : Flag) (given : Option String) (next : Option String)
    (missing : String) : Except String Taken :=
  match given with
  | some value => (o.set f value).map (⟨·, false⟩)
  | none =>
    if f.isSwitch then (o.set f "true").map (⟨·, false⟩)
    else
      match next with
      | some value => (o.set f value).map (⟨·, true⟩)
      | none => .error ("flag needs an argument: " ++ missing)

/-- The name of a long flag and what stands after its equals sign. -/
def splitEquals (cs : List Char) : String × Option String :=
  match cs.dropWhile (· ≠ '=') with
  | _ :: value => (String.ofList (cs.takeWhile (· ≠ '=')), some (String.ofList value))
  | [] => (String.ofList cs, none)

/-- Reads a flag by its long name, without its hyphens. -/
def takeLong (known : List Flag) (o : Options) (cs : List Char) (next : Option String) :
    Except String Taken :=
  match cs with
  | '-' :: _ | '=' :: _ => .error ("bad flag syntax: --" ++ String.ofList cs)
  | _ =>
    let (name, given) := splitEquals cs
    match Flag.ofName? known name with
    | some f => takeValue o f given next ("--" ++ name)
    | none => .error ("unknown flag: --" ++ name)

/-- The character whose code is the first byte of a character. -/
def firstByte (c : Char) : Char :=
  Char.ofNat ((String.utf8EncodeChar c).headD 0).toNat

/-- How a message shows a letter: by the first byte of the character that its own first byte is. An
ASCII letter is shown as it is. -/
def shownLetter (c : Char) : Char :=
  firstByte (firstByte c)

/-- Letters that begin like this belong to a test run and mean nothing. -/
def testStart : List Char :=
  "test.".toList

/-- Reads flags by their letters, without the hyphen. What follows the letter of a flag that takes a
value is the value. -/
def takeLetters (known : List Flag) (o : Options) (next : Option String) :
    List Char → Except String Taken
  | [] => .ok ⟨o, false⟩
  | c :: rest =>
    let inMessage := Text.quoteSource Text.singleQuote [.char (shownLetter c)] ++ " in -" ++
      String.ofList (c :: rest)
    if testStart.isPrefixOf (c :: rest) then .ok ⟨o, false⟩
    else
      match Flag.ofLetter? known c with
      | none => .error ("unknown shorthand flag: " ++ inMessage)
      | some f =>
        match rest with
        | '=' :: value :: more =>
          takeValue o f (some (String.ofList (value :: more))) none inMessage
        | [] => takeValue o f none next inMessage
        | _ =>
          if f.isSwitch then
            match o.set f "true" with
            | .ok o => takeLetters known o next rest
            | .error e => .error e
          else takeValue o f (some (String.ofList rest)) none inMessage

/-- Reads arguments: the options and the words among them. -/
def readArgs (known : List Flag) (o : Options) : List String → Except String (Options × List String)
  | [] => .ok (o, [])
  | arg :: rest =>
    match arg.toList with
    | '-' :: '-' :: [] => .ok (o, rest)
    | '-' :: '-' :: cs =>
      match takeLong known o cs rest.head? with
      | .error e => .error e
      | .ok taken =>
        match rest with
        | next :: more =>
          if taken.tookNext then readArgs known taken.options more
          else readArgs known taken.options (next :: more)
        | [] => .ok (taken.options, [])
    | '-' :: c :: cs =>
      match takeLetters known o rest.head? (c :: cs) with
      | .error e => .error e
      | .ok taken =>
        match rest with
        | next :: more =>
          if taken.tookNext then readArgs known taken.options more
          else readArgs known taken.options (next :: more)
        | [] => .ok (taken.options, [])
    | _ =>
      match readArgs known o rest with
      | .ok (o, words) => .ok (o, arg :: words)
      | .error e => .error e

end LittleLisp.Command
