import LittleLisp.Command.Flag
import LittleLisp.Text.Case

/-!
# From arguments to an action

The first word of the command line that is not the value of a flag names a command. The words that
follow are the files that it works on. Words for the main command have to come after two hyphens.
-/

namespace LittleLisp.Command

/-- The shells whose words the program can complete. -/
inductive Shell where
  | bash
  | fish
  | powershell
  | zsh
deriving DecidableEq, Repr

/-- The name of a shell. -/
def Shell.name : Shell → String
  | bash => "bash"
  | fish => "fish"
  | powershell => "powershell"
  | zsh => "zsh"

/-- The commands. The last five are about the program itself. -/
inductive Verb where
  | main
  | check
  | parse
  | help
  | manual
  | completion
  | script (shell : Shell)
  /-- Offers words for a command line that is being typed, maybe with what they are about. -/
  | offer (described : Bool)
deriving DecidableEq, Repr

namespace Verb

/-- The name of the program. -/
def programName : String := "lili"

/-- The words that lead to a command after the name of the program. -/
def trail : Verb → List String
  | main => []
  | check => ["check"]
  | parse => ["parse"]
  | help => ["help"]
  | manual => ["man"]
  | completion => ["completion"]
  | script shell => ["completion", shell.name]
  | offer true => ["__complete"]
  | offer false => ["__completeNoDesc"]

/-- The last word that leads to a command. -/
def word (verb : Verb) : String :=
  verb.trail.getLastD programName

/-- The name that a command has in texts about it. -/
def title : Verb → String
  | offer _ => (offer true).word
  | verb => verb.word

/-- What a command is about. -/
def about : Verb → String
  | main => "Little Lisp to C compiler"
  | check => "Type-check files and print the inferred signatures"
  | parse => "Print the expression tree of a file"
  | help => "Help about any command"
  | manual => "Generates manpages"
  | completion => "Generate the autocompletion script for the specified shell"
  | script shell => "Generate the autocompletion script for " ++ shell.name
  | offer _ => "Request shell completion choices for the specified command-line"

/-- A command that is shown to someone who asks what there is. -/
def isListed : Verb → Bool
  | main | manual | offer _ => false
  | _ => true

/-- A command that is offered to someone who may have meant it. -/
def isOffered (verb : Verb) : Bool :=
  verb.isListed && verb != help

/-- The flags of a command alone. -/
def ownFlags : Verb → List Flag
  | main => [.output, .server, .serverLog]
  | parse => [.sexp]
  | script _ => [.noDescriptions]
  | _ => []

/-- The flags that say something about a command in place of running it. -/
def helpFlags : Verb → List Flag
  | main => [.help, .version]
  | _ => [.help]

end Verb

/-- A command at the top and the commands below it. -/
structure Suite where
  top : Verb
  /-- The flags that the top has besides its own. -/
  general : List Flag
  /-- The commands below the top have the general flags, too. -/
  shared : Bool
deriving Repr

namespace Suite

/-- All commands of the program. -/
def whole : Suite :=
  ⟨.main, Flag.common, true⟩

/-- A command that runs on its own. What it logs is chosen beforehand. -/
def alone (verb : Verb) : Suite :=
  ⟨verb, [.header, .maxRounds], false⟩

/-- The words that lead to a command. -/
def path (s : Suite) (verb : Verb) : List String :=
  s.top.word :: if verb = s.top then [] else verb.trail

/-- The commands about words that are typed. Every top has them. -/
def typingVerbs : List Verb :=
  [.completion, .offer true, .offer false]

/-- The commands that are named by a word after another command. -/
def below (s : Suite) (verb : Verb) : List Verb :=
  if verb = s.top then
    (if verb = .main then [.check, .parse, .help, .manual] else []) ++ typingVerbs
  else if verb = .completion then [.bash, .fish, .powershell, .zsh].map .script
  else []

/-- The flags that a command has from the top. -/
def inherited (s : Suite) (verb : Verb) : List Flag :=
  if s.shared ∧ verb ≠ s.top then s.general else []

/-- The flags of a command, without those that every command has. -/
def flags (s : Suite) (verb : Verb) : List Flag :=
  (if verb = s.top then s.general else s.inherited verb) ++ verb.ownFlags

/-- All flags of a command. -/
def allFlags (s : Suite) (verb : Verb) : List Flag :=
  s.flags verb ++ verb.helpFlags

end Suite

/-- An argument that is a flag whose value is the next argument, as far as can be told before the
command is known. A flag that is not known counts as one. -/
def expectsNext (known : List Flag) (arg : String) : Bool :=
  let cs := arg.toList
  !cs.contains '=' &&
    match cs with
    | '-' :: '-' :: name =>
      match Flag.ofName? known (String.ofList name) with
      | some f => !f.isSwitch
      | none => true
    | ['-', c] =>
      match Flag.ofLetter? known c with
      | some f => !f.isSwitch
      | none => decide (c.toNat < 0x80)
    | _ => false

/-- An argument that is not a flag and not empty. -/
def isWord (arg : String) : Bool :=
  match arg.toList with
  | [] => false
  | c :: _ => c != '-'

/-- The words before the end of the flags. The value of a flag is no word; a flag before the last
argument hides it. -/
def words (known : List Flag) : List String → List String
  | [] => []
  | arg :: rest =>
    if arg = "--" then []
    else if expectsNext known arg then
      match rest with
      | _ :: next :: more => words known (next :: more)
      | _ => []
    else if isWord arg then arg :: words known rest
    else words known rest

/-- The arguments without the first word that is `word`. -/
def withoutWord (known : List Flag) (word : String) : List String → List String
  | [] => []
  | arg :: rest =>
    if arg = "--" then arg :: rest
    else if expectsNext known arg then
      match rest with
      | value :: more => arg :: value :: withoutWord known word more
      | [] => [arg]
    else if arg = word then rest
    else arg :: withoutWord known word rest

/-- One row of the table of edit distances: the distances of the start of a word, extended by `c`,
to all starts of another word. -/
def distanceRow (c : UInt8) (left : Nat) : List Nat → List UInt8 → List Nat
  | diagonal :: above :: row, t :: target =>
    let here := min (min (left + 1) (above + 1)) (if c = t then diagonal else diagonal + 1)
    here :: distanceRow c here (above :: row) target
  | _, _ => []

/-- How many bytes have to change, come or go to make one word from another. -/
def editDistance (source target : List UInt8) : Nat :=
  let start := List.range (target.length + 1)
  let last := source.foldl (fun row c =>
    let first := row.headD 0 + 1
    first :: distanceRow c first row target) start
  last.getLastD 0

/-- Commands in the order of their words. -/
def inOrder (verbs : List Verb) : List Verb :=
  verbs.mergeSort fun a b => decide (a.word ≤ b.word)

/-- The commands that may be meant by a word. -/
def suggested : List String :=
  (inOrder ((Suite.whole.below .main).filter Verb.isOffered)).map Verb.word

/-- The commands that someone may have meant: a few bytes differ, or the word starts one. -/
def suggestions (word : String) : List String :=
  let typed := (Source.ofString (Text.toLower word)).bytes
  suggested.filter fun name =>
    let bytes := (Source.ofString name).bytes
    decide (editDistance typed bytes ≤ 2) || typed.isPrefixOf bytes

namespace Suite

/-- What is said about a word that a command does not take. -/
def unexpectedWord (s : Suite) (verb : Verb) (word : String) : String :=
  "unknown command " ++ Text.quoted word ++ " for " ++ Text.quoted (" ".intercalate (s.path verb))

/-- What is said about a word that names no command. -/
def unknownCommand (s : Suite) (word : String) : String :=
  let meant := match suggestions word with
    | [] => ""
    | names => "\n\nDid you mean this?\n" ++ String.join (names.map fun n => "\t" ++ n ++ "\n")
  s.unexpectedWord s.top word ++ meant

end Suite

/-- What the command line asks for. -/
inductive Action where
  | help
  | version
  /-- Offers words for a command line that is being typed, maybe with what they are about. -/
  | offer (described : Bool) (args : List String)
  | serve (options : Options)
  | compile (options : Options) (paths : List String)
  | check (options : Options) (paths : List String)
  | parse (options : Options) (path : String)
deriving Repr

/-- What is said if a word is missing. -/
def missingWord : String :=
  "requires at least 1 arg(s), only received 0"

namespace Suite

/-- The action of a command with its options and words. The commands about the program show how it
is used; those that write a text of their own take no words. -/
def actionOf (s : Suite) (verb : Verb) (o : Options) (args : List String) : Except String Action :=
  if o.help then .ok .help
  else
    match verb with
    | .main =>
      if o.version then .ok .version
      else if o.server then .ok (.serve o)
      else if args.isEmpty then .ok .help
      else .ok (.compile o args)
    | .check => if args.isEmpty then .error missingWord else .ok (.check o args)
    | .parse =>
      match args with
      | [path] => .ok (.parse o path)
      | _ => .error ("accepts 1 arg(s), received " ++ toString args.length)
    | .help | .completion => .ok .help
    | .manual | .script _ =>
      match args with
      | [] => .ok .help
      | word :: _ => .error (s.unexpectedWord verb word)
    | .offer described => if args.isEmpty then .error missingWord else .ok (.offer described args)

/-- The action of a command with its arguments, on top of options that are set already. All
arguments are words for the command that offers some. -/
def interpretFor (s : Suite) (verb : Verb) (o : Options) (args : List String) :
    Except String Action :=
  match verb with
  | .offer _ => s.actionOf verb o args
  | _ =>
    match readArgs (s.allFlags verb) o args with
    | .error e => .error e
    | .ok (o, words) => s.actionOf verb o words

/-- The command that the first word names after another one, and the arguments without that word. -/
def next? (s : Suite) (verb : Verb) (args : List String) : Option (Verb × List String) :=
  match words (s.flags verb) args with
  | [] => none
  | word :: _ =>
    ((s.below verb).find? (·.word == word)).map fun v => (v, withoutWord (s.flags verb) word args)

/-- The command of a command line and its arguments, or the word that should name a command and does
not. The main command takes no words, unless they come after two hyphens. -/
def find (s : Suite) (args : List String) : Except String (Verb × List String) :=
  match s.next? s.top args with
  | some (verb, rest) => .ok ((s.next? verb rest).getD (verb, rest))
  | none =>
    match s.top, words (s.flags s.top) args with
    | .main, word :: _ => .error word
    | _, _ => .ok (s.top, args)

/-- The action of a command line, on top of options that are set already. -/
def interpret (s : Suite) (o : Options) (args : List String) : Except String Action :=
  match s.find args with
  | .error word => .error (s.unknownCommand word)
  | .ok (verb, rest) => s.interpretFor verb o rest

end Suite

/-- The action of a command line of the program. -/
def interpret (args : List String) : Except String Action :=
  Suite.whole.interpret {} args

end LittleLisp.Command
