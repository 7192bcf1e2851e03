import LittleLisp.Command.Dispatch

/-!
# Words for a command line that is being typed

A shell asks which words can stand at the end of a command line. After a hyphen these are the flags
that were not given yet, and in the place of a command the commands. Where neither can stand, the
shell may offer files.
-/

namespace LittleLisp.Command

/-- A word that can be typed, and what it is about. -/
structure Offer where
  word : String
  about : String
deriving DecidableEq, Repr

/-- What a shell does besides. -/
inductive Advice where
  /-- It offers files. -/
  | files
  | noFiles
deriving DecidableEq, Repr

/-- The number of an advice. -/
def Advice.code : Advice → Nat
  | files => 0
  | noFiles => 4

/-- The name of an advice. -/
def Advice.name : Advice → String
  | files => "ShellCompDirectiveDefault"
  | noFiles => "ShellCompDirectiveNoFileComp"

/-- What a shell is told. -/
structure Offers where
  items : List Offer := []
  advice : Advice := .files
  /-- Why there are no words. -/
  complaint : Option Source := none
deriving Repr

/-- The end of a command line: the flag whose value is being typed, if it is one, the arguments
before, and the text typed. -/
structure Typing where
  flag : Option Flag := none
  before : List String
  typed : String
  complaint : Option Source := none
deriving Repr

/-- The last byte of a text. -/
def lastByte (cs : List Char) : Source :=
  Source.ofBytes ((cs.getLast?.bind fun c => (String.utf8EncodeChar c).getLast?).toList)

/-- The name in an argument that calls a flag: a long one, or the last letter, which is a byte. -/
def calledName (cs : List Char) : Source :=
  match cs with
  | '-' :: '-' :: name => Source.ofString (String.ofList name)
  | _ => lastByte cs

/-- An argument calls a flag and gives it no value. -/
def callsFlag (cs : List Char) : Bool :=
  !cs.contains '=' &&
    match cs with
    | '-' :: '-' :: rest => !rest.isEmpty
    | '-' :: _ :: _ => true
    | _ => false

/-- The flag of a name. A name of one letter is taken for the letter of a flag. -/
def flagCalled? (known : List Flag) (name : Source) : Option Flag :=
  match name with
  | [.char c] => Flag.ofLetter? known c
  | _ => Flag.ofName? known name.toText

/-- What is said about a name that no flag of a command has. -/
def foreignFlag (verb : Verb) (name : Source) : Source :=
  Source.ofString ("Subcommand '" ++ verb.title ++ "' does not support flag '") ++ name ++
    Source.ofString "'"

/-- The end of a command line of a command with the flags `known`: the value of a flag comes after
an equals sign, or after an argument that calls a flag that is no switch. An equals sign with no
name before it belongs to the flag that the argument before calls, even to a switch. -/
def Typing.of (verb : Verb) (known : List Flag) (args : List String) (typed : String) : Typing :=
  let cs := typed.toList
  let plain : Typing := { before := args, typed }
  let equals := cs.head? == some '-'
  if equals && !cs.contains '=' then plain
  else
    let value := if equals then String.ofList ((cs.dropWhile (· ≠ '=')).drop 1) else typed
    let named := if equals then calledName (cs.takeWhile (· ≠ '=')) else []
    let previous := match args.getLast? with
      | some arg => if callsFlag arg.toList then calledName arg.toList else []
      | none => []
    let name := if named.isEmpty then previous else named
    if name.isEmpty then { plain with typed := value }
    else
      match flagCalled? known name with
      | none => { plain with complaint := some (foreignFlag verb name) }
      | some f =>
        if f.isSwitch && !equals then { plain with typed := value }
        else
          { flag := some f, typed := value
            before := if named.isEmpty then args.dropLast else args }

/-- Arguments in brackets. -/
def argsText (args : List String) : String :=
  "[" ++ " ".intercalate args ++ "]"

/-- The words that call a flag. -/
def Flag.calls (f : Flag) : List String :=
  ("--" ++ f.name) :: (f.letter?.map fun c => "-" ++ String.singleton c).toList

/-- A word begins with the text typed. -/
def begins (typed : String) (o : Offer) : Bool :=
  typed.toList.isPrefixOf o.word.toList

namespace Suite

/-- The flags of a command that were not given yet: first those that it has from the top. -/
def flagOffers (s : Suite) (verb : Verb) (given : List Flag) (typed : String) : List Offer :=
  let byName (flags : List Flag) := flags.mergeSort fun a b => decide (a.name ≤ b.name)
  let fromTop := s.inherited verb
  let own := (s.allFlags verb).filter fun f => !fromTop.contains f
  let left := (byName fromTop ++ byName own).filter fun f => !given.contains f
  (left.flatMap fun f => f.calls.map (Offer.mk · (f.about verb.title))).filter (begins typed)

/-- The commands that are shown below a command. -/
def listed (s : Suite) (verb : Verb) : List Verb :=
  inOrder ((s.below verb).filter Verb.isListed)

/-- The commands below a command. -/
def verbOffers (s : Suite) (verb : Verb) (typed : String) : List Offer :=
  ((s.listed verb).map fun v => Offer.mk v.word v.about).filter (begins typed)

/-- What a command itself says about its words: help is about commands, and the commands that write
scripts take none. -/
def wordOffers? (s : Suite) (verb : Verb) (words : List String) (typed : String) :
    Option (List Offer) :=
  match verb with
  | .help =>
    match s.find words with
    | .ok (v, _) => some (s.verbOffers v typed)
    | .error _ => some []
  | .completion | .script _ => some []
  | _ => none

/-- The offers for a command after the flags `given` and some words. Nothing is a flag any more once
the flags have ended. -/
def offersAfter (s : Suite) (verb : Verb) (t : Typing) (given : List Flag) (words : List String)
    (ended : Bool) : Offers :=
  let cs := t.typed.toList
  if t.flag.isNone && cs.head? == some '-' && !cs.contains '=' && !ended then
    { items := s.flagOffers verb given t.typed, advice := .noFiles }
  else
    let stays := given.all fun f => s.shared && s.general.contains f
    let items := if t.flag.isNone && words.isEmpty && stays then s.listed verb else []
    let commands : Offers :=
      if items.isEmpty then {}
      else { items := s.verbOffers verb t.typed, advice := .noFiles }
    match if t.flag.isSome && !ended then none else s.wordOffers? verb words t.typed with
    | some more => { items := commands.items ++ more, advice := .noFiles }
    | none => commands

/-- The offers for a command with arguments before the text typed. -/
def offersFor (s : Suite) (verb : Verb) (args : List String) (typed : String) : Offers :=
  let known := s.allFlags verb
  let t := Typing.of verb known args typed
  match readArgs known {} t.before with
  | .error e =>
    { complaint := some (Source.ofString ("Error while parsing flags from args " ++
        argsText t.before ++ ": " ++ e)) }
  | .ok (o, words) =>
    let ended := match readArgs known {} (t.before ++ ["--"]) with
      | .ok (_, more) => decide (words.length < more.length)
      | .error _ => false
    if t.complaint.isSome && !ended then { complaint := t.complaint }
    else if o.given.any verb.helpFlags.contains then { advice := .noFiles }
    else s.offersAfter verb t o.given words ended

/-- What a shell is told about a command line whose last argument is being typed, and whether it is
told what the words are about. The last command that offers words decides about that. -/
def offers (s : Suite) (described : Bool) (args : List String) : Offers × Bool :=
  let before := args.dropLast
  let typed := args.getLastD ""
  match s.find before with
  | .error _ =>
    ({ complaint := some (Source.ofString ("unable to find a command for arguments: " ++
        argsText before)) }, described)
  | .ok (.offer named, rest) =>
    (s.offersAfter (.offer named) { before := rest, typed } [] rest false, named)
  | .ok (verb, rest) => (s.offersFor verb rest typed, described)

end Suite

namespace Offers

/-- The offers as a shell reads them: a line for each, and the advice. -/
def text (o : Offers) (described : Bool) : String :=
  let line (i : Offer) := (if described then i.word ++ "\t" ++ i.about else i.word) ++ "\n"
  String.join (o.items.map line) ++ ":" ++ toString o.advice.code ++ "\n"

/-- What is said about the offers to someone who reads along. -/
def notes (o : Offers) : Source :=
  (match o.complaint with
    | some complaint =>
      Source.ofString "[Debug] [Error] " ++ complaint ++ Source.ofString "\n"
    | none => []) ++
    Source.ofString ("Completion ended with directive: " ++ o.advice.name ++ "\n")

end Offers

end LittleLisp.Command
