import LittleLisp.Text.Quoted
import LittleLisp.Tree

/-!
# Outlines of trees

A tree can be shown with everything that is known about it: one field on a line, blocks indented by
four blanks, and the values of fields that follow each other in one column. What lies too deep is
not shown.
-/

namespace LittleLisp

/-- A value to be laid out. -/
inductive Outline where
  | leaf (text : String)
  /-- Named fields in braces after a title. -/
  | record (title : String) (fields : List (String × Outline))
  /-- Values in braces. -/
  | items (elements : List Outline)

namespace Outline

/-- A field that has been laid out: its label and the lines of its value. -/
abbrev Field := String × List String

/-- A value on several lines is the last one of its column. -/
def Field.endsColumn (f : Field) : Bool :=
  decide (1 < f.2.length)

/-- For each field, the widest label from it to the end of its column. -/
def widthsAhead : List Field → List (Field × Nat)
  | [] => []
  | f :: rest =>
    let ahead := widthsAhead rest
    let own := f.1.length
    match ahead with
    | (_, width) :: _ => (f, if f.endsColumn then own else max own width) :: ahead
    | [] => [(f, own)]

/-- The lines of fields; `column` is the width of the labels of a column that has begun. -/
def fieldLines (column : Option Nat) : List (Field × Nat) → List String
  | [] => []
  | ((label, value), ahead) :: rest =>
    let width := column.getD ahead
    let start := label ++ String.ofList (List.replicate (width + 1 - label.length) ' ')
    let lines := match value with
      | [] => [start]
      | first :: more => (start ++ first) :: more
    let next := if decide (1 < value.length) then none else some width
    lines ++ fieldLines next rest

/-- Lines with a comma after the last one. -/
def withComma : List String → List String
  | [] => []
  | [line] => [line ++ ","]
  | line :: rest => line :: withComma rest

/-- Lines moved to the right. -/
def indent (lines : List String) : List String :=
  lines.map ("    " ++ ·)

mutual

/-- The lines of a value. -/
def lines : Outline → List String
  | leaf text => [text]
  | record title fields =>
    (title ++ "\x7b") :: indent (fieldLines none (widthsAhead (layFields fields))) ++ ["\x7d"]
  | items elements => "\x7b" :: indent (layItems elements) ++ ["\x7d"]

/-- Lays out the values of fields. -/
def layFields : List (String × Outline) → List Field
  | [] => []
  | (name, value) :: rest => (name ++ ":", withComma value.lines) :: layFields rest

/-- Lays out values one below the other. -/
def layItems : List Outline → List String
  | [] => []
  | value :: rest => withComma value.lines ++ layItems rest

end

end Outline

namespace Node

/-- The deepest level that is shown. A tree in a list lies two levels below the list's owner: the
place in the list is a level of its own. One in a field lies one level below. -/
def outlineDepth : Nat := 10

/-- The mark of what lies too deep. -/
def depthMark : String := "!%v(DEPTH EXCEEDED)"

/-- What stands for a value that lies too deep. -/
def tooDeep : Outline :=
  .leaf ("&" ++ depthMark)

/-- The end of a form at a depth. -/
def stopOutline (depth : Nat) : Option Position → Outline
  | none => .leaf "(*lili.SourcePosition)(nil)"
  | some p =>
    if outlineDepth < depth then tooDeep
    else .leaf ("&lili.SourcePosition\x7bLine:" ++ toString p.line ++ ", Column:" ++
      toString p.col ++ "\x7d")

/-- A location at a depth. -/
def locationOutline (depth : Nat) (l : Location) : Outline :=
  if outlineDepth < depth then tooDeep
  else .record "&lili.SourceLocation"
    [("Filename", .leaf (Text.quoted l.file)), ("Line", .leaf (toString l.line)),
     ("Column", .leaf (toString l.col)), ("Length", .leaf (toString l.len)),
     ("End", stopOutline (depth + 1) l.stop)]

/-- A list of values, or `nil` if there are none. -/
def listOutline : List Outline → Outline
  | [] => .leaf "nil"
  | elements => .items elements

/-- A kind of tree with its own field and its location. -/
def fieldOutline (depth : Nat) (title label : String) (value : Outline) (l : Location) : Outline :=
  if outlineDepth < depth then tooDeep
  else .record title [(label, value), ("Loc", locationOutline (depth + 1) l)]

mutual

/-- A tree at a depth. -/
def outline (depth : Nat) : Node → Outline
  | int value l => fieldOutline depth "&lili.IntConst" "Value" (.leaf (toString value)) l
  | char value l => fieldOutline depth "&lili.CharConst" "Value" (.leaf (toString value.toNat)) l
  | str value l => fieldOutline depth "&lili.StringConst" "Value" (.leaf (Text.quoted value)) l
  | ident name l => fieldOutline depth "&lili.Ident" "Name" (.leaf (Text.quoted name)) l
  | call members l =>
    fieldOutline depth "&lili.Call" "Members" (listOutline (outlines (depth + 1) members)) l
  | cond clauses l =>
    fieldOutline depth "&lili.Cond" "Clauses" (listOutline (clauseOutlines (depth + 1) clauses)) l

/-- Trees in a list whose places are at a depth. Where the places lie too deep, nothing is said
about the trees in them. -/
def outlines (depth : Nat) : List Node → List Outline
  | [] => []
  | n :: rest =>
    (if outlineDepth < depth then .leaf depthMark else outline (depth + 1) n) :: outlines depth rest

/-- Clauses with trees at a depth. -/
def clauseOutlines (depth : Nat) : List (Node × Node) → List Outline
  | [] => []
  | (condition, result) :: rest =>
    .record "" [("Condition", outline depth condition), ("Result", outline depth result)] ::
      clauseOutlines depth rest

end

/-- Everything that is known about a tree, as text. -/
def dump (n : Node) : String :=
  "\n".intercalate (n.outline 1).lines

end Node

end LittleLisp
