import LittleLisp.Path
import LittleLisp.Text.Letter
import LittleLisp.Text.Quoted
import LittleLisp.Uri.Literal

/-!
# Document addresses

Editors name documents by URI. An address has a scheme and a path, or, where the rest does not start
with a slash, a scheme alone. Bytes of a path may be written as a percent sign and two hexadecimal
digits. Only addresses of files have a path that matters here.
-/

namespace LittleLisp

/-- What is kept of an address: its scheme in lower case and the bytes of its path. -/
structure Uri where
  scheme : String
  path : List UInt8
deriving DecidableEq, Repr

/-- Why a text is no address. -/
inductive Uri.Flaw where
  | empty
  | control
  | noScheme
  | notAbsolute
  /-- A percent sign starts no escape, or one that is not allowed here; the text is what stands
  there. -/
  | badEscape (text : List UInt8)
  | badHost (c : UInt8)
  | badNumber (text : List UInt8)
  | openBracket
  /-- A bracket stands within the name of a host, or there is an address of four numbers between
  brackets. -/
  | strayLiteral
  | badLiteral (text : List UInt8) (flaw : Literal.Flaw)
  | badUser
deriving DecidableEq, Repr

namespace Uri

/-- Bytes as a message shows them. -/
def Flaw.shown (bytes : List UInt8) : String :=
  Text.quoteSource Text.doubleQuote (Source.ofBytes bytes)

/-- What is said about a text that is no address. -/
def Flaw.message : Flaw → String
  | empty => "empty url"
  | control => "net/url: invalid control character in URL"
  | noScheme => "missing protocol scheme"
  | notAbsolute => "invalid URI for request"
  | badEscape text => "invalid URL escape " ++ shown text
  | badHost c => "invalid character " ++ shown [c] ++ " in host name"
  | badNumber text => "invalid port " ++ shown text ++ " after host"
  | openBracket => "missing ']' in host"
  | strayLiteral => "invalid IP-literal"
  | badLiteral text flaw =>
    "invalid host: ParseAddr(" ++ shown text ++ "): " ++ flaw.message ++
      match flaw.place with
      | [] => ""
      | place => " (at " ++ shown place ++ ")"
  | badUser => "net/url: invalid userinfo"

/-- A control character has no place in an address. -/
def isControl (b : UInt8) : Bool :=
  decide (b < 32) || b == 127

/-- A byte of a scheme after its first. -/
def isSchemeByte (b : UInt8) : Bool :=
  isLatin b || isDigit b || isOneOf "+-." b

/-- The scheme of an address and the rest. A colon at the start is not allowed; without a colon
after the bytes of a scheme, or with a first byte that is not a letter, there is no scheme. -/
def splitScheme (bytes : List UInt8) : Except Flaw (List UInt8 × List UInt8) :=
  match bytes with
  | [] => .error .empty
  | b :: _ =>
    if b = byteOf ':' then .error .noScheme
    else
      match bytes.dropWhile isSchemeByte with
      | colon :: rest =>
        if isLatin b ∧ colon = byteOf ':' then .ok (bytes.takeWhile isSchemeByte, rest)
        else .ok ([], bytes)
      | [] => .ok ([], bytes)

/-- The byte of the escape that starts after a percent sign. -/
def escape? : List UInt8 → Option UInt8
  | a :: b :: _ =>
    match hexDigit? a, hexDigit? b with
    | some a, some b => some (a * 16 + b).toUInt8
    | _, _ => none
  | _ => none

/-- The bytes of a text with its escapes resolved. `mayEscape` says which bytes may be escaped, and
`mayStand` which may stand as they are. -/
def unescape (mayEscape mayStand : UInt8 → Bool) (bytes : List UInt8) :
    Except Flaw (List UInt8) :=
  match bytes with
  | [] => .ok []
  | b :: rest =>
    if b = byteOf '%' then
      match escape? rest with
      | none => .error (.badEscape (bytes.take 3))
      | some value =>
        if mayEscape value then (unescape mayEscape mayStand (rest.drop 2)).map (value :: ·)
        else .error (.badEscape (bytes.take 3))
    else if mayStand b then (unescape mayEscape mayStand rest).map (b :: ·)
    else .error (.badHost b)
termination_by bytes.length
decreasing_by
  · simp only [List.length_drop, List.length_cons]; omega
  · simp only [List.length_cons]; omega

/-- The bytes of a path. -/
def unescapePath (bytes : List UInt8) : Except Flaw (List UInt8) :=
  unescape (fun _ => true) (fun _ => true) bytes

/-- A byte that may stand in the name of a host. -/
def isHostByte (b : UInt8) : Bool :=
  decide (128 ≤ b) || isLatin b || isDigit b || isOneOf "-_.~!$&'()*+,;=:[]<>\"" b

/-- Only bytes outside of ASCII and the percent sign are escaped in the name of a host. -/
def isHostEscape (b : UInt8) : Bool :=
  decide (128 ≤ b) || b == byteOf '%'

/-- What stands from the last `mark` of a text on, if there is one. -/
def fromLast? (mark : Char) (bytes : List UInt8) : Option (List UInt8) :=
  if bytes.contains (byteOf mark) then
    some (byteOf mark :: (bytes.reverse.takeWhile (· ≠ byteOf mark)).reverse)
  else none

/-- The number after a host and a colon; both may be missing. -/
def checkNumber (tail : List UInt8) : Except Flaw Unit :=
  match tail with
  | [] => .ok ()
  | colon :: digits =>
    if colon = byteOf ':' ∧ digits.all isDigit then .ok () else .error (.badNumber tail)

/-- A byte that may be escaped in the name of a zone: one that may stand there, a blank or a percent
sign. -/
def isZoneEscape (b : UInt8) : Bool :=
  (decide (b < 128) && isHostByte b) || b == 32 || b == byteOf '%'

/-- What stands before the first escaped percent sign, and the rest. -/
def splitZone : List UInt8 → List UInt8 × List UInt8
  | [] => ([], [])
  | b :: rest =>
    if (b :: rest).take 3 = [byteOf '%', byteOf '2', byteOf '5'] then ([], b :: rest)
    else
      let (before, zone) := splitZone rest
      (b :: before, zone)

/-- A numeric address between brackets. -/
def checkLiteral (bytes : List UInt8) : Except Flaw Unit :=
  let (host, zone) := splitZone bytes
  match unescape isHostEscape isHostByte host with
  | .error e => .error e
  | .ok host =>
    match unescape isZoneEscape isHostByte zone with
    | .error e => .error e
    | .ok zone =>
      match Literal.read (host ++ zone) with
      | .error flaw => .error (.badLiteral (host ++ zone) flaw)
      | .ok .four => .error .strayLiteral
      | .ok .six => .ok ()

/-- A host with its number. -/
def checkHost (bytes : List UInt8) : Except Flaw Unit :=
  match bytes with
  | [] => .ok ()
  | first :: rest =>
    if rest.contains (byteOf '[') then .error .strayLiteral
    else if first = byteOf '[' then
      match fromLast? ']' rest with
      | none => .error .openBracket
      | some tail =>
        match checkNumber (tail.drop 1) with
        | .error e => .error e
        | .ok () => checkLiteral (rest.take (rest.length - tail.length))
    else
      match checkNumber ((fromLast? ':' bytes).getD []) with
      | .error e => .error e
      | .ok () => (unescape isHostEscape isHostByte bytes).map fun _ => ()

/-- A byte of a user's name or password. -/
def isUserByte (b : UInt8) : Bool :=
  isLatin b || isDigit b || isOneOf "-._:~!$&'()*+,;=%@" b

/-- A user's name, and maybe a password after the first colon; each has its own escapes. -/
def checkUser (bytes : List UInt8) : Except Flaw Unit :=
  if bytes.all isUserByte then
    match unescapePath (bytes.takeWhile (· ≠ byteOf ':')) with
    | .error e => .error e
    | .ok _ => (unescapePath ((bytes.dropWhile (· ≠ byteOf ':')).drop 1)).map fun _ => ()
  else .error .badUser

/-- The part of an address that names a user and a host. -/
def checkAuthority (bytes : List UInt8) : Except Flaw Unit :=
  match fromLast? '@' bytes with
  | none => checkHost bytes
  | some tail =>
    match checkHost (tail.drop 1) with
    | .error e => .error e
    | .ok () => checkUser (bytes.take (bytes.length - tail.length))

/-- The path that follows a scheme, without the query. -/
def pathOf (scheme rest : List UInt8) : Except Flaw (List UInt8) :=
  let slash := byteOf '/'
  if rest.head? ≠ some slash then if scheme.isEmpty then .error .notAbsolute else .ok []
  else if ¬scheme.isEmpty ∧ rest.take 2 = [slash, slash] then
    let more := rest.drop 2
    match checkAuthority (more.takeWhile (· ≠ slash)) with
    | .error e => .error e
    | .ok () => unescapePath (more.dropWhile (· ≠ slash))
  else unescapePath rest

/-- The address of a text. -/
def parse (text : String) : Except Flaw Uri :=
  let bytes := (Source.ofString text).bytes
  if bytes.any isControl then .error .control
  else if bytes = [byteOf '*'] then .ok ⟨"", bytes⟩
  else
    match splitScheme bytes with
    | .error e => .error e
    | .ok (scheme, rest) =>
      (pathOf scheme (rest.takeWhile (· ≠ byteOf '?'))).map fun path =>
        ⟨String.ofList (scheme.map fun b => (Char.ofNat b.toNat).toLower), path⟩

/-- The scheme of files. -/
def fileScheme : String := "file"

/-- A path that starts with a drive letter and a colon after its slash. -/
def hasDrive : List UInt8 → Bool
  | slash :: letter :: colon :: _ :: _ =>
    slash == byteOf '/' && Text.isLetter (Char.ofNat letter.toNat) && colon == byteOf ':'
  | _ => false

/-- A glyph in the text of a path. A byte that belongs to no character becomes NUL: no file has a
name with it, so such a path leads to no file. -/
def pathChar : Glyph → Char
  | .char c => c
  | .stray _ => Char.ofNat 0

/-- The path of a file address; a drive letter comes without the slash before it. -/
def filePath (u : Uri) : String :=
  let bytes := if hasDrive u.path then u.path.drop 1 else u.path
  String.ofList ((Source.ofBytes bytes).map pathChar)

end Uri

end LittleLisp
