/-!
# Replacing parts of a text

A query string is normalised by replacing fixed texts and by writing each run
of blanks as one plus sign.  Both work from left to right and never look again
at what they have written.
-/

namespace SearchPhrase.Text

/--
Replace the occurrences of a pattern, of which the first `skipped` characters
belong to an occurrence that is already replaced.
-/
def replaceAfter
    (pattern replacement : List Char) : Nat → List Char → List Char
  | _, [] => []
  | skipped + 1, _ :: rest => replaceAfter pattern replacement skipped rest
  | 0, character :: rest =>
      if pattern.isPrefixOf (character :: rest) then
        replacement ++ replaceAfter pattern replacement
          (pattern.length - 1) rest
      else character :: replaceAfter pattern replacement 0 rest

/--
Replace every occurrence of a nonempty pattern, from left to right and without
overlap.
-/
def replaceAll (pattern replacement : String) (text : List Char) : List Char :=
  replaceAfter pattern.toList replacement.toList 0 text

end SearchPhrase.Text
