import TexTree.Text.Ranges

/-!
# White space

The characters with the Unicode property White_Space, and the removal of such
characters from both ends of a text.
-/

namespace TexTree.Text

/-- The white space characters. -/
def blankRanges : Ranges :=
  [(9, 13), (32, 32), (133, 133), (160, 160), (5760, 5760), (8192, 8202), (8232, 8233),
    (8239, 8239), (8287, 8287), (12288, 12288)]

/-- Whether the character is white space. -/
def isBlank (character : Char) : Bool :=
  blankRanges.contains character

/-- Remove the white space at both ends. -/
def trimList (characters : List Char) : List Char :=
  ((characters.dropWhile isBlank).reverse.dropWhile isBlank).reverse

/-- Remove the white space at both ends of a text. -/
def trim (text : String) : String :=
  String.ofList (trimList text.toList)

end TexTree.Text
