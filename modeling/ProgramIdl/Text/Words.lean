/-!
# Words of a name

Names are written in snake case, kebab case, or with capitals at the start of words.  A word is a
run of ASCII letters or a run of ASCII digits; a capital opens a word of its own after a small
letter, and after another capital when a small letter follows it, so that `HTTPServer` has the
words `HTTP` and `Server`.
-/

set_option autoImplicit false

namespace ProgramIdl.Text

/-- Whether a character and the first of the text behind it stand in the same word. -/
def joins (c : Char) : List Char → Bool
  | [] => false
  | next :: later =>
      if c.isDigit then next.isDigit
      else if c.isLower then next.isLower
      else if c.isUpper then
        next.isLower ||
          (next.isUpper &&
            match later with
            | [] => true
            | following :: _ => !following.isLower)
      else false

/-- The words of a name, in order. -/
def nameWords : List Char → List (List Char)
  | [] => []
  | c :: rest =>
      if !c.isAlphanum then nameWords rest
      else
        match joins c rest, nameWords rest with
        | true, word :: more => (c :: word) :: more
        | _, words => [c] :: words

/-- A word with a capital first letter and small letters behind it. -/
def capitalize : List Char → List Char
  | [] => []
  | c :: rest => c.toUpper :: rest.map Char.toLower

/-- A name in snake case: its words in small letters, joined by underscores. -/
def snakeCase (name : String) : String :=
  .ofList (['_'].intercalate ((nameWords name.toList).map (·.map Char.toLower)))

/-- A name in Pascal case: its words capitalized, side by side. -/
def pascalCase (name : String) : String :=
  .ofList ((nameWords name.toList).map capitalize).flatten

end ProgramIdl.Text
