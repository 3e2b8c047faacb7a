import SearchPhrase.Text.Blank
import SearchPhrase.Comparison
import SearchPhrase.Connective
import SearchPhrase.PhraseError

/-!
# Tokens of a search phrase

A search phrase is cut into values, comparison operators, connectives and
parentheses.  Each token knows the bytes of the phrase that it was cut from:
offsets count the bytes of the UTF-8 form of the phrase.

The scanner reads one character at a time.  Between two characters it is in one
of four states, and a character either extends the token in progress or ends it
and starts afresh.  The only phrases that cannot be cut are those that leave a
quoted value open.
-/

namespace SearchPhrase

/-- What a token stands for. -/
inductive Token.Kind where
  | value (text : String)
  | comparison (operator : Comparison)
  | connective (connective : Connective)
  | opening
  | closing
deriving DecidableEq, Repr

/-- A token with the byte offsets of its first character and of the next one. -/
structure Token where
  kind : Token.Kind
  start : Nat
  stop : Nat
deriving DecidableEq, Repr

namespace Token

/--
Whether a character may start an operator or connective written as a symbol.
-/
def isSymbol (character : Char) : Bool :=
  ['&', '|', '!', '=', '<', '>', '~'].contains character

/-- Whether a character opens, and closes, a quoted value. -/
def isQuote (character : Char) : Bool :=
  character == '"' || character == '\''

/-- Whether a character ends a bare word. -/
def isDelimiter (character : Char) : Bool :=
  Text.isBlank character || character == '(' || character == ')' ||
    isQuote character || isSymbol character

/--
What a bare word stands for: a connective in any case, or itself as a value.
-/
def Kind.ofWord (word : List Char) : Kind :=
  if Text.lowersTo word "and" then .connective .and
  else if Text.lowersTo word "or" then .connective .or
  else if Text.lowersTo word "not" then .connective .not
  else .value (String.ofList word)

/-- What two adjacent symbols stand for together, if they form one token. -/
def Kind.ofPair? (first second : Char) : Option Kind :=
  if first == '&' && second == '&' then some (.connective .and)
  else if first == '|' && second == '|' then some (.connective .or)
  else (Comparison.ofToken? (String.ofList [first, second])).map .comparison

/-- What a symbol stands for on its own. -/
def Kind.ofSymbol (symbol : Char) : Kind :=
  if symbol == '&' then .connective .and
  else if symbol == '|' then .connective .or
  else if symbol == '!' then .connective .not
  else if symbol == '<' then .comparison .less
  else if symbol == '>' then .comparison .greater
  else if symbol == '~' then .comparison .like
  else .comparison .equal

/--
What the scanner has read of the token in progress.

A word and the content of a quoted value are held with the latest character
first.  A quoted value remembers its quote and whether the latest character was
a backslash, which takes the next character as it is.
-/
inductive Progress where
  | idle
  | word (start : Nat) (latest : List Char)
  | symbol (start : Nat) (first : Char)
  | quoted (start : Nat) (quote : Char) (latest : List Char) (escaped : Bool)
deriving DecidableEq, Repr

/--
Read a character outside any token: the tokens it completes and what it starts.
-/
def Progress.begin (offset : Nat) (character : Char) : List Token × Progress :=
  if Text.isBlank character then ([], .idle)
  else if character == '(' then
    ([⟨.opening, offset, offset + character.utf8Size⟩], .idle)
  else if character == ')' then
    ([⟨.closing, offset, offset + character.utf8Size⟩], .idle)
  else if isQuote character then ([], .quoted offset character [] false)
  else if isSymbol character then ([], .symbol offset character)
  else ([], .word offset [character])

/--
Read a character at an offset: the tokens that it completes and the progress
after it.
-/
def Progress.step (offset : Nat) (character : Char) :
    Progress → List Token × Progress
  | .idle => Progress.begin offset character
  | .word start latest =>
      if isDelimiter character then
        let (tokens, progress) := Progress.begin offset character
        (⟨.ofWord latest.reverse, start, offset⟩ :: tokens, progress)
      else ([], .word start (character :: latest))
  | .symbol start first =>
      match Kind.ofPair? first character with
      | some kind => ([⟨kind, start, offset + character.utf8Size⟩], .idle)
      | none =>
          let (tokens, progress) := Progress.begin offset character
          (⟨.ofSymbol first, start, offset⟩ :: tokens, progress)
  | .quoted start quote latest escaped =>
      if escaped then ([], .quoted start quote (character :: latest) false)
      else if character == '\\' then ([], .quoted start quote latest true)
      else if character == quote then
        ([⟨.value (String.ofList latest.reverse), start,
            offset + character.utf8Size⟩], .idle)
      else ([], .quoted start quote (character :: latest) false)

/-- End the phrase: the token in progress, unless its quote is left open. -/
def Progress.finish (offset : Nat) : Progress → Except PhraseError (List Token)
  | .idle => .ok []
  | .word start latest => .ok [⟨.ofWord latest.reverse, start, offset⟩]
  | .symbol start first => .ok [⟨.ofSymbol first, start, offset⟩]
  | .quoted start _ _ _ => .error ⟨.openQuote, start⟩

/-- The tokens of the rest of a phrase that starts at a given offset. -/
def scan (progress : Progress) (offset : Nat) :
    List Char → Except PhraseError (List Token)
  | [] => progress.finish offset
  | character :: rest =>
      let (tokens, next) := progress.step offset character
      match scan next (offset + character.utf8Size) rest with
      | .ok later => .ok (tokens ++ later)
      | .error error => .error error

/-- The tokens of a phrase. -/
def ofPhrase (phrase : String) : Except PhraseError (List Token) :=
  scan .idle 0 phrase.toList

end Token

end SearchPhrase
