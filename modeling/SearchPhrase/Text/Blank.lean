/-!
# Blank characters

Blanks separate the words of a search phrase, surround values and stand inside
dates.  A character is blank when it has the Unicode property White_Space.
This module gives that class and the three ways in which blanks are removed:
at the start of a text, at both ends, and between words.
-/

namespace SearchPhrase.Text

/-- Whether a character has the Unicode property White_Space. -/
def isBlank (character : Char) : Bool :=
  let code := character.toNat
  (0x09 ≤ code && code ≤ 0x0D) || code == 0x20 || code == 0x85 ||
    code == 0xA0 || code == 0x1680 || (0x2000 ≤ code && code ≤ 0x200A) ||
    code == 0x2028 || code == 0x2029 || code == 0x202F || code == 0x205F ||
    code == 0x3000

/-- The text from its first character that is not blank. -/
def trimStart (text : List Char) : List Char :=
  text.dropWhile isBlank

/-- A text without the blanks at its ends. -/
def trim (text : List Char) : List Char :=
  (trimStart (trimStart text).reverse).reverse

/-- Put a word in front of a list of words, unless it is empty. -/
def consWord (word : List Char) (words : List (List Char)) : List (List Char) :=
  if word.isEmpty then words else word :: words

/--
Cut a text at its blanks into the part before the first blank, which may be
empty, and the words after it.
-/
def leadingWord : List Char → List Char × List (List Char)
  | [] => ([], [])
  | character :: rest =>
      let (word, words) := leadingWord rest
      if isBlank character then ([], consWord word words)
      else (character :: word, words)

/-- The maximal runs of characters that are not blank, in order. -/
def words (text : List Char) : List (List Char) :=
  consWord (leadingWord text).1 (leadingWord text).2

@[simp]
theorem words_nil : words [] = [] := rfl

theorem leadingWord_append_blank
    (left : List Char) {blank : Char} (isBlank_blank : isBlank blank = true)
    (right : List Char) :
    leadingWord (left ++ blank :: right) =
      ((leadingWord left).1, (leadingWord left).2 ++ words right) := by
  induction left with
  | nil => simp [leadingWord, isBlank_blank, words]
  | cons character rest ih =>
      simp only [List.cons_append, leadingWord, ih]
      split
      · simp only [consWord]
        split <;> simp
      · rfl

/-- A blank ends the words before it and starts none. -/
theorem words_append_blank
    (left : List Char) {blank : Char} (isBlank_blank : isBlank blank = true)
    (right : List Char) :
    words (left ++ blank :: right) = words left ++ words right := by
  rw [words, leadingWord_append_blank left isBlank_blank right]
  simp only [words, consWord]
  split <;> simp

end SearchPhrase.Text
