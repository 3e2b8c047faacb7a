/-!
# Errors in search phrases

A phrase that cannot be read is reported by a cause and by the byte offset at
which reading stopped.
-/

namespace SearchPhrase

/-- Why a search phrase cannot be read. -/
inductive PhraseError.Cause where
  | openQuote
  | unexpectedToken
  | trailingToken
  | missingValue
  | missingClosing
  | unexpectedEnd
deriving DecidableEq, Repr

/-- A cause with the byte offset of the token, or of the end, that shows it. -/
structure PhraseError where
  cause : PhraseError.Cause
  position : Nat
deriving DecidableEq, Repr

namespace PhraseError

/-- What an error says is wrong with a phrase. -/
def Cause.message : Cause → String
  | .openQuote => "unterminated string"
  | .unexpectedToken => "unexpected token"
  | .trailingToken => "unexpected token after expression"
  | .missingValue => "expected value after operator"
  | .missingClosing => "expected closing parenthesis"
  | .unexpectedEnd => "unexpected end of input"

/-- An error as it is reported, with the byte offset at which it occurs. -/
def message (error : PhraseError) : String :=
  "parse error at position " ++ Nat.repr error.position ++ ": " ++
    error.cause.message

end PhraseError

end SearchPhrase
