/-!
# Case folding

Words that are compared without regard to case are compared by their simple
case foldings.  Besides the capitals, two characters outside ASCII fold to an
ASCII letter: the long s and the Kelvin sign.
-/

namespace OData.Text

/-- The simple case folding of a character that folds to an ASCII letter.  All
other characters stay as they are. -/
def foldCase (c : Char) : Char :=
  if c = '\u017F' then 's'
  else if c = '\u212A' then 'k'
  else c.toLower

/-- Whether a text is a lowercase ASCII word up to case folding. -/
def foldsTo (word : String) (text : List Char) : Bool :=
  text.map foldCase == word.toList

/-- Whether a text is a lowercase word up to the case of ASCII letters. -/
def equalsIgnoringAsciiCase (word : String) (text : List Char) : Bool :=
  text.map Char.toLower == word.toList

end OData.Text
