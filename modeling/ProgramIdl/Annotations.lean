import ProgramIdl.Annotations.Attribute
import ProgramIdl.Literal.Quoted
import ProgramIdl.Text.Lines

/-!
# Annotations of an item

The comments and attributes that stand in front of an item, a field or a variant, as texts in source
order.  Its documentation is spelled by `///` comments, by `/** */` comments or by `doc` attributes;
its attributes are found by the last segment of their path.
-/

set_option autoImplicit false

namespace ProgramIdl

open ProgramIdl.Text

/-- The texts of the comments and attributes in front of an item. -/
abbrev Annotations := List String

namespace Annotations

/-- The attributes, in order. -/
def attributes (annotations : Annotations) : List Attribute :=
  annotations.filterMap Attribute.parse?

/-- The first attribute whose path ends in a name. -/
def find? (annotations : Annotations) (name : String) : Option Attribute :=
  annotations.attributes.find? fun attr => attr.name = name

/-- Whether some `derive` attribute lists a name. -/
def derives (annotations : Annotations) (name : String) : Bool :=
  annotations.attributes.any fun attr => attr.name = "derive" && attr.hasFlag name

/-- The text of one line of a documentation block: blanks and one leading star are not part of it. -/
def blockLine (line : List Char) : List Char :=
  match trim line with
  | '*' :: rest => trim rest
  | line => line

/-- The lines of a documentation block, without the empty ones at either end. -/
def blockLines (body : List Char) : List (List Char) :=
  let lines := (((lines body).map blockLine).dropWhile List.isEmpty).reverse
  (lines.dropWhile List.isEmpty).reverse

/-- The lines of a documentation text; the empty text is one empty line. -/
def textLines (text : List Char) : List (List Char) :=
  match lines text with
  | [] => [[]]
  | lines => lines.map trim

/-- The documentation lines that one comment or attribute spells. -/
def docLines (note : String) : List String :=
  let text := trim note.toList
  match text with
  | '/' :: '/' :: '/' :: rest =>
      if rest.head? = some '/' then [] else [.ofList (trim rest)]
  | '/' :: '*' :: '*' :: rest =>
      if rest.head? = some '*' || rest = ['/'] then []
      else (blockLines ((text.take (text.length - 2)).drop 3)).map .ofList
  | '#' :: _ =>
      match Attribute.parse? note with
      | some attr =>
          if attr.name = "doc" then
            match attr.value.bind Literal.string? with
            | some literal => (textLines literal.toList).map .ofList
            | none => []
          else []
      | none => []
  | _ => []

/-- The documentation lines, in order. -/
def docs (annotations : Annotations) : List String :=
  annotations.flatMap docLines

end Annotations

end ProgramIdl
