import LittleLisp.Source
import LittleLisp.Text.Width

/-!
# Terminal styling

Styled text carries control sequences: an escape that switches a style on, and one that switches
every style off. `strip` takes the control sequences of a terminal out again, byte by byte, and
leaves the text and the plain control characters. `width` counts the columns of a text, to which
control sequences add nothing, and the layout of several lines fills each up to the widest.
-/

namespace LittleLisp.Terminal

/-- The styles of reports and titles. -/
inductive Style where
  /-- The word that announces an error. -/
  | alarm
  /-- The place of an error. -/
  | place
  /-- Line numbers and the bar beside the source. -/
  | gutter
  /-- The line number of the error. -/
  | focus
  /-- The marks under the error. -/
  | mark
  /-- The name of a file above what is said about it. -/
  | title
deriving DecidableEq, Repr

/-- The parameters of the sequence that switches a style on. -/
def Style.code : Style → String
  | alarm => "1;31"
  | place => "2;34"
  | gutter => "2"
  | focus => "1;34"
  | mark => "31"
  | title => "1;38;5;63"

/-- The control sequence with these parameters. -/
def sequence (code : String) : String :=
  String.singleton (Char.ofNat 27) ++ "[" ++ code ++ "m"

/-- Where `strip` is inside or outside of a control sequence. -/
inductive Mode where
  | ground
  /-- After an escape. -/
  | escape
  | escapeMore
  /-- In a sequence of parameters and a final letter. -/
  | csi
  | csiParam
  | csiMore
  /-- In a device command. -/
  | dcs
  | dcsParam
  | dcsMore
  | dcsText
  /-- In a command text that also a bell ends. -/
  | osc
  /-- In a command text that is ignored. -/
  | ignored
  /-- In a character of several bytes, `left` of which are to come. -/
  | longChar (left : Nat)
deriving DecidableEq, Repr

/-- A plain control character, other than the ones that begin or end a sequence. -/
def isControl (n : Nat) : Bool :=
  decide (n ≤ 0x17) || n == 0x19 || (decide (0x1c ≤ n) && decide (n ≤ 0x1f))

/-- A number between two bounds. -/
def within (lo hi n : Nat) : Bool :=
  decide (lo ≤ n) && decide (n ≤ hi)

/-- The bytes that mean the same in every mode that has no use of its own for them: the mode that
follows, and whether the byte is text. -/
def common (n : Nat) : Mode × Bool :=
  if n == 0x18 || n == 0x1a || within 0x80 0x8f n || within 0x91 0x97 n || within 0x99 0x9a n ||
      n == 0x9c then
    (.ground, true)
  else if n == 0x1b then (.escape, false)
  else if n == 0x98 || n == 0x9e || n == 0x9f then (.ignored, false)
  else if n == 0x9b then (.csi, false)
  else if n == 0x90 then (.dcs, false)
  else if n == 0x9d then (.osc, false)
  else if within 0xc2 0xdf n then (.longChar 1, true)
  else if within 0xe0 0xef n then (.longChar 2, true)
  else if within 0xf0 0xf4 n then (.longChar 3, true)
  else (.ground, false)

/-- One byte: the mode that follows, and whether the byte is text. -/
def advance (mode : Mode) (n : Nat) : Mode × Bool :=
  match mode with
  | .longChar left => (if left ≤ 1 then .ground else .longChar (left - 1), true)
  | .ground => if isControl n || within 0x20 0x7f n then (.ground, true) else common n
  | .escape =>
    if isControl n then (.escape, true)
    else if n == 0x7f then (.escape, false)
    else if within 0x20 0x2f n then (.escapeMore, false)
    else if n == 0x58 || n == 0x5e || n == 0x5f then (.ignored, false)
    else if n == 0x50 then (.dcs, false)
    else if n == 0x5b then (.csi, false)
    else if n == 0x5d then (.osc, false)
    else common n
  | .escapeMore =>
    if isControl n then (.escapeMore, true)
    else if within 0x20 0x2f n || n == 0x7f then (.escapeMore, false)
    else common n
  | .csi =>
    if isControl n then (.csi, true)
    else if n == 0x7f then (.csi, false)
    else if within 0x20 0x2f n then (.csiMore, false)
    else if within 0x30 0x3f n then (.csiParam, false)
    else common n
  | .csiParam =>
    if isControl n then (.csiParam, true)
    else if within 0x30 0x3f n || n == 0x7f then (.csiParam, false)
    else if within 0x20 0x2f n then (.csiMore, false)
    else common n
  | .csiMore =>
    if isControl n then (.csiMore, true)
    else if within 0x20 0x2f n || n == 0x7f then (.csiMore, false)
    else common n
  | .dcs =>
    if within 0x08 0x0d n || n == 0x1b || within 0x40 0x7e n then (.dcsText, false)
    else if isControl n || n == 0x7f then (.dcs, false)
    else if within 0x20 0x2f n then (.dcsMore, false)
    else if within 0x30 0x3f n then (.dcsParam, false)
    else common n
  | .dcsParam =>
    if isControl n || within 0x30 0x3f n || n == 0x7f then (.dcsParam, false)
    else if within 0x20 0x2f n then (.dcsMore, false)
    else if within 0x40 0x7e n then (.dcsText, false)
    else common n
  | .dcsMore =>
    if isControl n || within 0x20 0x2f n || n == 0x7f then (.dcsMore, false)
    else if within 0x30 0x7e n then (.dcsText, false)
    else common n
  | .dcsText =>
    if n == 0x1b then (.escape, false)
    else if n == 0x9c || n == 0x18 || n == 0x1a then (.ground, false)
    else (.dcsText, false)
  | .osc =>
    if n == 0x1b then (.escape, false)
    else if n == 0x07 || n == 0x9c || n == 0x18 || n == 0x1a then (.ground, false)
    else (.osc, false)
  | .ignored =>
    if n == 0x1b then (.escape, false)
    else if n == 0x9c || n == 0x18 || n == 0x1a then (.ground, false)
    else if isControl n || within 0x20 0x7f n then (.ignored, false)
    else common n

/-- The bytes of a text from `mode` on, without control sequences. -/
def stripFrom (mode : Mode) : List UInt8 → List UInt8
  | [] => []
  | b :: rest =>
    let (next, keep) := advance mode b.toNat
    if keep then b :: stripFrom next rest else stripFrom next rest

/-- A styled text without its control sequences. -/
def strip (s : Source) : Source :=
  Source.ofBytes (stripFrom .ground s.bytes)

/-- A styled text without its control sequences, as text. -/
def plain (s : String) : String :=
  (strip (Source.ofString s)).toText

/-- A byte that is a visible character of its own outside of control sequences. -/
def isVisible (n : Nat) : Bool :=
  within 0x20 0x7e n

/-- The mode after all bytes of a character. -/
def afterChar (mode : Mode) (c : Char) : Mode :=
  (String.utf8EncodeChar c).foldl (fun m b => (advance m b.toNat).1) mode

/-- The columns of the characters from `mode` on, the first `skip` of which belong to a cluster that
is already counted. A character of one byte counts by itself; one of several bytes begins a cluster,
unless a command text holds it. -/
def widthFrom (mode : Mode) (skip : Nat) : List Char → Nat
  | [] => 0
  | c :: rest =>
    match skip with
    | more + 1 => widthFrom mode more rest
    | 0 =>
      if c.toNat < 0x80 then
        (if mode = .ground ∧ isVisible c.toNat then 1 else 0) + widthFrom (afterChar mode c) 0 rest
      else if mode = .osc ∨ mode = .dcsText then widthFrom (afterChar mode c) 0 rest
      else
        let more := Text.joined (Text.ClusterEnd.start c) rest
        Text.clusterWidth (c :: rest.take more) + widthFrom .ground more rest

/-- The columns that a text takes. -/
def width (s : String) : Nat :=
  widthFrom .ground 0 s.toList

/-- Tabs are shown as four blanks, and a carriage return before a newline is dropped. -/
def untab : List Char → List Char
  | [] => []
  | '\t' :: rest => ' ' :: ' ' :: ' ' :: ' ' :: untab rest
  | '\r' :: '\n' :: rest => '\n' :: untab rest
  | c :: rest => c :: untab rest

/-- The lines of a text as they are laid out, each with the blanks that fill it up to the widest. -/
def layoutLines (s : String) : List (String × String) :=
  let lines := (Source.lines ((untab s.toList).map .char)).map Source.toText
  let widest := (lines.map width).foldl max 0
  lines.map fun line => (line, String.ofList (List.replicate (widest - width line) ' '))

/-- A text in a style. Each line is styled by itself. -/
def paint (style : Style) (s : String) : String :=
  "\n".intercalate ((layoutLines s).map fun (line, fill) =>
    sequence style.code ++ line ++ sequence "" ++ fill)

end LittleLisp.Terminal
