import SearchPhrase.Json

/-!
# Lexemes of a JSON text

A JSON text is cut into marks, scalars and string literals.  The scanner reads
one character at a time.  Numbers and the words `null`, `true` and `false` are
collected up to the next blank, mark or quote and are then checked as a whole.
-/

namespace SearchPhrase.Json

/--
A part of a JSON text: a bracket, brace, comma or colon, a scalar or a string.
-/
inductive Lexeme where
  | mark (character : Char)
  | scalar (value : Json)
  | text (content : Option String)
deriving Repr

namespace Lexeme

/-- Whether a character may stand between lexemes. -/
def isSpace (character : Char) : Bool :=
  character == ' ' || character == '\t' || character == '\n' ||
    character == '\r'

/-- Whether a character is a lexeme of its own. -/
def isMark (character : Char) : Bool :=
  ['[', ']', '\x7b', '\x7d', ',', ':'].contains character

/-! ## Numbers -/

/--
Whether a text is an exponent without its `e`: an optional sign, then digits.
-/
def isExponent (text : List Char) : Bool :=
  match text with
  | sign :: digits =>
      if sign == '+' || sign == '-' then
        !digits.isEmpty && digits.all Char.isDigit
      else text.all Char.isDigit
  | [] => false

/--
Whether a text is what may follow the whole part of a number and its fraction.
-/
def isExponentPart : List Char → Bool
  | [] => true
  | letter :: rest => (letter == 'e' || letter == 'E') && isExponent rest

/-- Whether a text is what may follow the whole part of a number. -/
def isFractionalPart : List Char → Bool
  | '.' :: rest =>
      !(rest.takeWhile Char.isDigit).isEmpty &&
        isExponentPart (rest.dropWhile Char.isDigit)
  | rest => isExponentPart rest

/--
Whether digits may be the whole part of a number: only zero starts with a zero.
-/
def isWholePart (digits : List Char) : Bool :=
  match digits with
  | [] => false
  | [_] => true
  | first :: _ => first != '0'

/-- The number of a literal without its minus sign. -/
def unsigned? (negative : Bool) (text : List Char) : Option Json :=
  let whole := text.takeWhile Char.isDigit
  let rest := text.dropWhile Char.isDigit
  let magnitude := Nat.ofDigitChars 10 whole 0
  let literal := String.ofList (if negative then '-' :: text else text)
  if !isWholePart whole || !isFractionalPart rest then none
  else if !rest.isEmpty || (negative && magnitude == 0) then
    some (.decimal literal)
  else some (.integer (if negative then -magnitude else magnitude))

/-- The scalar that a collected text writes. -/
def scalar? (text : List Char) : Option Json :=
  if text == "null".toList then some .null
  else if text == "true".toList then some (.bool true)
  else if text == "false".toList then some (.bool false)
  else
    match text with
    | '-' :: rest => unsigned? true rest
    | _ => unsigned? false text

/-! ## Strings -/

/--
A part of a string literal: a character, or a 16-bit unit that was escaped.
-/
inductive Piece where
  | character (character : Char)
  | unit (code : Nat)
deriving Repr

/-- The text of a list of pieces, if every surrogate is half of a pair. -/
def textOf? : List Piece → Option (List Char)
  | [] => some []
  | .character character :: rest => (textOf? rest).map (character :: ·)
  | [.unit code] =>
      if 0xD800 ≤ code && code < 0xE000 then none else some [Char.ofNat code]
  | .unit high :: .unit low :: rest =>
      if 0xD800 ≤ high && high < 0xDC00 then
        if 0xDC00 ≤ low && low < 0xE000 then
          (textOf? rest).map
            (Char.ofNat
              (0x10000 + (high - 0xD800) * 0x400 + (low - 0xDC00)) :: ·)
        else none
      else if 0xDC00 ≤ high && high < 0xE000 then none
      else (textOf? (.unit low :: rest)).map (Char.ofNat high :: ·)
  | .unit code :: .character character :: rest =>
      if 0xD800 ≤ code && code < 0xE000 then none
      else (textOf? rest).map fun text => Char.ofNat code :: character :: text

/-- The character of a one-letter escape. -/
def escaped? (letter : Char) : Option Char :=
  match letter with
  | '"' => some '"'
  | '\\' => some '\\'
  | '/' => some '/'
  | 'b' => some '\x08'
  | 'f' => some '\x0c'
  | 'n' => some '\n'
  | 'r' => some '\r'
  | 't' => some '\t'
  | _ => none

/-- The value of a hexadecimal digit in either case. -/
def hexValue? (digit : Char) : Option Nat :=
  if digit.isDigit then some (digit.toNat - 0x30)
  else if 'a' ≤ digit && digit ≤ 'f' then some (digit.toNat - 0x61 + 10)
  else if 'A' ≤ digit && digit ≤ 'F' then some (digit.toNat - 0x41 + 10)
  else none

/-! ## Scanning -/

/-- How much of an escape has been read. -/
inductive Escape where
  | none
  | started
  | unit (digits : Nat) (code : Nat)
deriving Repr

/-- What has been read of the lexeme in progress, with the latest part first. -/
inductive Progress where
  | idle
  | collected (latest : List Char)
  | string (latest : List Piece) (escape : Escape)
deriving Repr

/-- Read a character outside a collected text and outside a string. -/
def Progress.begin (character : Char) : List Lexeme × Progress :=
  if isSpace character then ([], .idle)
  else if isMark character then ([.mark character], .idle)
  else if character == '"' then ([], .string [] .none)
  else ([], .collected [character])

/-- Read a character of a string literal. -/
def Progress.stepString (latest : List Piece) (character : Char) :
    Escape → Option (List Lexeme × Progress)
  | .none =>
      if character == '"' then
        some ([.text ((textOf? latest.reverse).map String.ofList)], .idle)
      else if character == '\\' then some ([], .string latest .started)
      else if character.toNat < 0x20 then none
      else some ([], .string (.character character :: latest) .none)
  | .started =>
      if character == 'u' then some ([], .string latest (.unit 0 0))
      else
        (escaped? character).map fun meaning =>
          ([], .string (.character meaning :: latest) .none)
  | .unit digits code =>
      (hexValue? character).map fun value =>
        if digits == 3 then
          ([], .string (.unit (16 * code + value) :: latest) .none)
        else ([], .string latest (.unit (digits + 1) (16 * code + value)))

/-- Read one character: the lexemes it completes and the new progress. -/
def Progress.step (character : Char) :
    Progress → Option (List Lexeme × Progress)
  | .idle => some (Progress.begin character)
  | .collected latest =>
      if isSpace character || isMark character || character == '"' then
        (scalar? latest.reverse).map fun value =>
          let (lexemes, progress) := Progress.begin character
          (.scalar value :: lexemes, progress)
      else some ([], .collected (character :: latest))
  | .string latest escape => Progress.stepString latest character escape

/-- The lexemes that the end of the text completes; a string must be closed. -/
def Progress.finish : Progress → Option (List Lexeme)
  | .idle => some []
  | .collected latest =>
      (scalar? latest.reverse).map fun value => [.scalar value]
  | .string _ _ => none

/-- The lexemes of the rest of a text. -/
def scan (progress : Progress) : List Char → Option (List Lexeme)
  | [] => progress.finish
  | character :: rest =>
      match progress.step character with
      | none => none
      | some (lexemes, next) => (scan next rest).map (lexemes ++ ·)

end Lexeme

end SearchPhrase.Json
