/-!
# Keywords

Keywords are written in ASCII lower case.  A text is compared with one in two
ways that differ outside ASCII.  Lower-casing turns a single character beyond
ASCII into an ASCII letter, the Kelvin sign into `k`.  Case folding, which
patterns use, also turns the long s into `s`.
-/

namespace SearchPhrase.Text

/--
The lower-case form of a character, where that is an ASCII character.

Every character beyond ASCII other than the Kelvin sign has a lower-case form
outside ASCII, so this decides which texts have a given ASCII lower-case form.
-/
def lowerCase (character : Char) : Char :=
  if character == '\u212a' then 'k' else character.toLower

/-- The case folding of a character, where that is an ASCII character. -/
def foldCase (character : Char) : Char :=
  if character == '\u017f' then 's' else lowerCase character

/-- Whether the lower-case form of a text is a keyword. -/
def lowersTo (text : List Char) (keyword : String) : Bool :=
  text.map lowerCase == keyword.toList

/-- Whether a text is a keyword in any case, under case folding. -/
def foldsTo (text : List Char) (keyword : String) : Bool :=
  text.map foldCase == keyword.toList

/-- Whether a text is a keyword with its ASCII letters in either case. -/
def equalsIgnoringCase (text : List Char) (keyword : String) : Bool :=
  text.map Char.toLower == keyword.toList

end SearchPhrase.Text
