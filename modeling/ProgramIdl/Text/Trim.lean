import ProgramIdl.Text.Blank

/-!
# Trimming and cutting texts

Texts are taken apart as lists of characters.  This module holds the cuts that the readers share:
blanks off the ends, references off the front, the text on either side of a mark.
-/

set_option autoImplicit false

namespace ProgramIdl.Text

/-- The text without leading blanks. -/
def trimStart (text : List Char) : List Char :=
  text.dropWhile isBlank

/-- The text without trailing blanks. -/
def trimEnd (text : List Char) : List Char :=
  (text.reverse.dropWhile isBlank).reverse

/-- The text without blanks at either end. -/
def trim (text : List Char) : List Char :=
  trimEnd (trimStart text)

/-- The text without leading references: blanks, `&` signs, and the blanks that follow them. -/
def dereference (text : List Char) : List Char :=
  trim ((trim text).dropWhile (· == '&'))

/-- The text before and after the first occurrence of a mark, if there is one. -/
def cutAt (mark : Char) : List Char → Option (List Char × List Char)
  | [] => none
  | c :: rest =>
      if c = mark then some ([], rest)
      else (cutAt mark rest).map fun (before, after) => (c :: before, after)

/-- Whether a text occurs inside another. -/
def occursIn (part : List Char) : List Char → Bool
  | [] => part.isEmpty
  | c :: rest => part.isPrefixOf (c :: rest) || occursIn part rest

/-- Whether nothing is left of a text, save perhaps one closing line break. -/
def isFinished : List Char → Bool
  | [] => true
  | ['\n'] => true
  | _ => false

end ProgramIdl.Text
