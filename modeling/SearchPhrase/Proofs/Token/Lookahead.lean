import SearchPhrase.Proofs.Token.Quotes

/-!
# Cutting off one token after the other

The scanner takes one character at a time and knows where a token ends only when
the next character is there.  A reader that may look ahead can cut off whole
tokens instead: blanks are skipped, and the first other character says what kind
of token starts there.  Such a reader has two ways to fail.  A quote may stay
open, and a symbol may write no operator, on its own or with the character after
it.

The second failure does not occur.  Every character that starts an operator
writes one alone, and every other character that is left starts a word, so that
the reader gets on and agrees with the scanner on every text.
-/

namespace SearchPhrase.Token

/-! ## Texts of tokens -/

/-- The ways in which tokens are written. -/
inductive Spells : List Char → Kind → Prop where
  | opening : Spells ['('] .opening
  | closing : Spells [')'] .closing
  | and : Spells ['&'] (.connective .and)
  | doubledAnd : Spells ['&', '&'] (.connective .and)
  | or : Spells ['|'] (.connective .or)
  | doubledOr : Spells ['|', '|'] (.connective .or)
  | not : Spells ['!'] (.connective .not)
  | operator {text : List Char} {operator : Comparison}
      (written : Comparison.ofToken? (String.ofList text) = some operator) :
      Spells text (.comparison operator)
  | quoted {quote : Char} {written value : List Char}
      (isQuote : isQuote quote = true) (content : Content quote written value) :
      Spells (quote :: written ++ [quote]) (.value (String.ofList value))
  | word {text : List Char} (nonempty : text ≠ [])
      (undivided : ∀ character ∈ text, isDelimiter character = false) :
      Spells text (.ofWord text)

theorem Spells.ne_nil {text : List Char} {kind : Kind}
    (spells : Spells text kind) :
    text ≠ [] := by
  have unwritten : Comparison.ofToken? (String.ofList []) = none := by decide
  rintro rfl
  cases spells with
  | operator written =>
      rw [unwritten] at written
      cases written
  | word nonempty _ => exact nonempty rfl

/-! ## Reading ahead -/

/-- Why no token can be cut off. -/
inductive ReadFault where
  | openQuote
  | unexpectedCharacter (character : Char)
deriving DecidableEq, Repr

/--
A fault with the byte offset of the character at which no token can be cut off.
-/
structure ReadError where
  fault : ReadFault
  position : Nat
deriving DecidableEq, Repr

/--
A token at the front of a text: what it stands for, its own text and the text
after it.
-/
structure Lexeme where
  kind : Kind
  text : List Char
  rest : List Char
deriving DecidableEq, Repr

namespace Lexeme

/-- A connective that may be written by its symbol twice. -/
def ofConnective (symbol : Char) (connective : Connective) (rest : List Char) :
    Lexeme :=
  if rest.head? = some symbol then
    ⟨.connective connective, [symbol, symbol], rest.tail⟩
  else ⟨.connective connective, [symbol], rest⟩

/-- What a symbol writes on its own: a denial or an operator. -/
def ofSymbol (symbol : Char) (rest : List Char) : Except ReadFault Lexeme :=
  if symbol = '!' then .ok ⟨.connective .not, [symbol], rest⟩
  else
    match Comparison.ofToken? (String.ofList [symbol]) with
    | some operator => .ok ⟨.comparison operator, [symbol], rest⟩
    | none => .error (.unexpectedCharacter symbol)

/--
What a symbol writes, together with the next character if the two form an
operator.
-/
def ofOperator (symbol : Char) : List Char → Except ReadFault Lexeme
  | [] => ofSymbol symbol []
  | next :: rest =>
      match Comparison.ofToken? (String.ofList [symbol, next]) with
      | some operator => .ok ⟨.comparison operator, [symbol, next], rest⟩
      | none => ofSymbol symbol (next :: rest)

/-- A quoted value, up to the quote that closes it. -/
def ofQuoted (quote : Char) (rest : List Char) : Except ReadFault Lexeme :=
  match closing? quote rest with
  | some closing =>
      .ok ⟨.value (String.ofList closing.value),
        quote :: closing.written ++ [quote], closing.rest⟩
  | none => .error .openQuote

/-- The characters up to the next one that ends a word. -/
def ofWord (text : List Char) : Lexeme :=
  let word := text.takeWhile fun character => !isDelimiter character
  ⟨.ofWord word, word, text.dropWhile fun character => !isDelimiter character⟩

/-- The token that starts with a character that is not blank. -/
def read (first : Char) (rest : List Char) : Except ReadFault Lexeme :=
  if first = '(' then .ok ⟨.opening, [first], rest⟩
  else if first = ')' then .ok ⟨.closing, [first], rest⟩
  else if isQuote first then ofQuoted first rest
  else if first = '&' then .ok (ofConnective first .and rest)
  else if first = '|' then .ok (ofConnective first .or rest)
  else if isSymbol first then ofOperator first rest
  else .ok (ofWord (first :: rest))

/-- What the reader does with a character that is not blank, case by case. -/
inductive Reads (first : Char) (rest : List Char) :
    Except ReadFault Lexeme → Prop where
  | opening (same : first = '(') :
      Reads first rest (.ok ⟨.opening, [first], rest⟩)
  | closing (same : first = ')') :
      Reads first rest (.ok ⟨.closing, [first], rest⟩)
  | quoted (isQuote : isQuote first = true) :
      Reads first rest (ofQuoted first rest)
  | and (same : first = '&') :
      Reads first rest (.ok (ofConnective first .and rest))
  | or (same : first = '|') :
      Reads first rest (.ok (ofConnective first .or rest))
  | operator (starts : first ∈ ['!', '=', '<', '>', '~']) :
      Reads first rest (ofOperator first rest)
  | word (undivided : isDelimiter first = false) :
      Reads first rest (.ok (ofWord (first :: rest)))

/-- A character that is not blank and starts no other token may start a word. -/
theorem reads_read {first : Char} (notBlank : Text.isBlank first = false)
    (rest : List Char) :
    Reads first rest (read first rest) := by
  unfold read
  split_ifs with isOpening isClosing isQuote isAnd isOr isSymbol
  · exact .opening isOpening
  · exact .closing isClosing
  · exact .quoted isQuote
  · exact .and isAnd
  · exact .or isOr
  · exact .operator (by simpa [Token.isSymbol, isAnd, isOr] using isSymbol)
  · exact .word
      (by simp [isDelimiter, notBlank, isOpening, isClosing, isQuote, isSymbol])

/-! ## Getting on -/

/-- A token is cut off: it is written by its text, which the rest follows. -/
def CutFrom (source : List Char) (lexeme : Lexeme) : Prop :=
  Spells lexeme.text lexeme.kind ∧ lexeme.text ++ lexeme.rest = source

theorem cutFrom_ofConnective
    {symbol : Char} {connective : Connective}
    (single : Spells [symbol] (.connective connective))
    (doubled : Spells [symbol, symbol] (.connective connective))
    (rest : List Char) :
    CutFrom (symbol :: rest) (ofConnective symbol connective rest) := by
  unfold ofConnective
  split
  · next repeated =>
      obtain ⟨others, rfl⟩ := List.head?_eq_some_iff.mp repeated
      exact ⟨doubled, rfl⟩
  · exact ⟨single, rfl⟩

theorem cutFrom_of_ofSymbol
    {symbol : Char} {rest : List Char} {lexeme : Lexeme}
    (cut : ofSymbol symbol rest = .ok lexeme) :
    CutFrom (symbol :: rest) lexeme := by
  unfold ofSymbol at cut
  split at cut
  · next same =>
      cases cut
      rw [same]
      exact ⟨.not, rfl⟩
  · split at cut
    · next operator written =>
        cases cut
        exact ⟨.operator written, rfl⟩
    · cases cut

theorem cutFrom_of_ofOperator
    {symbol : Char} {rest : List Char} {lexeme : Lexeme}
    (cut : ofOperator symbol rest = .ok lexeme) :
    CutFrom (symbol :: rest) lexeme := by
  cases rest with
  | nil => exact cutFrom_of_ofSymbol cut
  | cons next others =>
      rw [ofOperator] at cut
      split at cut
      · next operator written =>
          cases cut
          exact ⟨.operator written, rfl⟩
      · exact cutFrom_of_ofSymbol cut

theorem cutFrom_of_ofQuoted
    {quote : Char} {rest : List Char} {lexeme : Lexeme}
    (isQuote : isQuote quote = true)
    (cut : ofQuoted quote rest = .ok lexeme) :
    CutFrom (quote :: rest) lexeme := by
  unfold ofQuoted at cut
  split at cut
  · next closing found =>
      cases cut
      obtain ⟨content, rfl⟩ := content_of_closing? found
      exact ⟨.quoted isQuote content, by simp⟩
  · cases cut

theorem cutFrom_ofWord {first : Char} (undivided : isDelimiter first = false)
    (rest : List Char) :
    CutFrom (first :: rest) (ofWord (first :: rest)) := by
  refine ⟨.word ?_ fun character member => ?_, List.takeWhile_append_dropWhile⟩
  · simp [ofWord, undivided]
  · simpa using (List.all_eq_true.mp List.all_takeWhile) character member

/-- The reader gets on with each token that it cuts off. -/
theorem cutFrom_of_read
    {first : Char} {rest : List Char} {lexeme : Lexeme}
    (notBlank : Text.isBlank first = false)
    (cut : read first rest = .ok lexeme) :
    CutFrom (first :: rest) lexeme := by
  have reads := reads_read notBlank rest
  rw [cut] at reads
  generalize outcome :
    (Except.ok lexeme : Except ReadFault Lexeme) = result at reads
  cases reads with
  | opening same =>
      cases outcome
      exact ⟨same ▸ .opening, rfl⟩
  | closing same =>
      cases outcome
      exact ⟨same ▸ .closing, rfl⟩
  | quoted isQuote => exact cutFrom_of_ofQuoted isQuote outcome.symm
  | and same =>
      cases outcome
      subst same
      exact cutFrom_ofConnective .and .doubledAnd rest
  | or same =>
      cases outcome
      subst same
      exact cutFrom_ofConnective .or .doubledOr rest
  | operator _ => exact cutFrom_of_ofOperator outcome.symm
  | word undivided =>
      cases outcome
      exact cutFrom_ofWord undivided rest

theorem CutFrom.length_rest_lt
    {source : List Char} {lexeme : Lexeme} (cut : CutFrom source lexeme) :
    lexeme.rest.length < source.length := by
  have nonempty := List.length_pos_iff.mpr cut.1.ne_nil
  rw [← cut.2, List.length_append]
  omega

end Lexeme

/-- Cut a text that starts at a given offset, one token after the other. -/
def readTokens (offset : Nat) : List Char → Except ReadError (List Token)
  | [] => .ok []
  | first :: rest =>
      if blank : Text.isBlank first = true then
        readTokens (offset + first.utf8Size) rest
      else
        match cut : Lexeme.read first rest with
        | .error fault => .error ⟨fault, offset⟩
        | .ok lexeme =>
            have shorter : lexeme.rest.length < (first :: rest).length :=
              (Lexeme.cutFrom_of_read (by simpa using blank) cut).length_rest_lt
            (readTokens (offset + String.utf8Len lexeme.text) lexeme.rest).map
              fun later =>
                ⟨lexeme.kind, offset,
                  offset + String.utf8Len lexeme.text⟩ :: later
termination_by text => text.length
decreasing_by
  · exact Nat.lt_succ_self rest.length
  · exact shorter

/-! ## Agreement with the scanner -/

section Agreement

variable {progress : Progress} {start offset : Nat}

/-- A character that completes a token and is then read on its own. -/
theorem scan_of_ending
    {token : Token} {character : Char}
    (stepped : progress.step offset character =
      (token :: (Progress.begin offset character).1,
        (Progress.begin offset character).2))
    (rest : List Char) :
    scan progress offset (character :: rest) =
      (scan .idle offset (character :: rest)).map fun later =>
        [token] ++ later := by
  rw [scan_cons_eq_map, scan_cons_eq_map, stepped, map_append_map_append]
  rfl

theorem scan_symbol_of_pair
    {first second : Char} {kind : Kind}
    (pair : Kind.ofPair? first second = some kind) (rest : List Char) :
    scan (.symbol start first) offset (second :: rest) =
      (scan .idle (offset + second.utf8Size) rest).map fun later =>
        [⟨kind, start, offset + second.utf8Size⟩] ++ later := by
  simp only [scan_cons_eq_map, Progress.step, pair]

theorem scan_symbol_of_alone
    {first : Char} {rest : List Char}
    (alone : ∀ second ∈ rest.head?, Kind.ofPair? first second = none) :
    scan (.symbol start first) offset rest =
      (scan .idle offset rest).map fun later =>
        [⟨.ofSymbol first, start, offset⟩] ++ later := by
  cases rest with
  | nil => rfl
  | cons second others =>
      have single : Kind.ofPair? first second = none := alone second rfl
      exact scan_of_ending (by simp only [Progress.step, single]) others

theorem ofWord_cons
    {character : Char} (undivided : isDelimiter character = false)
    (rest : List Char) :
    Lexeme.ofWord (character :: rest) =
      ⟨.ofWord (character :: (Lexeme.ofWord rest).text),
        character :: (Lexeme.ofWord rest).text, (Lexeme.ofWord rest).rest⟩ := by
  simp [Lexeme.ofWord, undivided]

/-- The scanner reads a word up to the next character that ends one. -/
theorem scan_word_eq (latest text : List Char) :
    scan (.word start latest) offset text =
      (scan .idle (offset + String.utf8Len (Lexeme.ofWord text).text)
        (Lexeme.ofWord text).rest).map fun later =>
          [⟨.ofWord (latest.reverse ++ (Lexeme.ofWord text).text), start,
            offset + String.utf8Len (Lexeme.ofWord text).text⟩] ++ later := by
  induction text generalizing offset latest with
  | nil =>
      rw [Lexeme.ofWord, List.takeWhile_nil, List.append_nil]
      rfl
  | cons character rest ih =>
      cases ends : isDelimiter character with
      | true =>
          have nothing : Lexeme.ofWord (character :: rest) =
              ⟨.ofWord [], [], character :: rest⟩ := by
            simp [Lexeme.ofWord, ends]
          rw [scan_of_ending (by rw [Progress.step, if_pos ends]), nothing,
            List.append_nil]
          rfl
      | false =>
          have stepped : (Progress.word start latest).step offset character =
              ([], .word start (character :: latest)) := by
            simp [Progress.step, ends]
          rw [scan_cons_of_continuing stepped, ih, ofWord_cons ends,
            add_utf8Len_cons, List.reverse_cons, List.append_assoc,
            List.singleton_append]

end Agreement

/-- The scanner cuts a token off a text and goes on after it. -/
def ScansAs (offset : Nat) (source : List Char) (lexeme : Lexeme) : Prop :=
  scan .idle offset source =
    (scan .idle (offset + String.utf8Len lexeme.text) lexeme.rest).map
      fun later =>
      [⟨lexeme.kind, offset, offset + String.utf8Len lexeme.text⟩] ++ later

section Symbols

variable {first : Char} {offset : Nat}

theorem begin_of_isSymbol (isSymbol : isSymbol first = true) :
    Progress.begin offset first = ([], .symbol offset first) := by
  rcases isSymbol_iff.mp isSymbol with
    rfl | rfl | rfl | rfl | rfl | rfl | rfl <;> rfl

theorem scansAs_of_pair
    (isSymbol : isSymbol first = true) {second : Char} {kind : Kind}
    (pair : Kind.ofPair? first second = some kind) (rest : List Char) :
    ScansAs offset (first :: second :: rest) ⟨kind, [first, second], rest⟩ := by
  have stepped : Progress.idle.step offset first = ([], .symbol offset first) :=
    begin_of_isSymbol isSymbol
  rw [ScansAs, scan_cons_of_continuing stepped, scan_symbol_of_pair pair,
    add_utf8Len_cons, add_utf8Len_cons]
  rfl

theorem scansAs_of_alone
    (isSymbol : isSymbol first = true) {rest : List Char}
    (alone : ∀ second ∈ rest.head?, Kind.ofPair? first second = none) :
    ScansAs offset (first :: rest) ⟨.ofSymbol first, [first], rest⟩ := by
  have stepped : Progress.idle.step offset first = ([], .symbol offset first) :=
    begin_of_isSymbol isSymbol
  rw [ScansAs, scan_cons_of_continuing stepped, scan_symbol_of_alone alone,
    add_utf8Len_cons]
  rfl

/-- A connective goes together only with the same symbol. -/
theorem ofPair?_of_connective
    (connects : first = '&' ∨ first = '|') {second : Char}
    (other : second ≠ first) :
    Kind.ofPair? first second = none := by
  have unwritten :
      Comparison.ofToken? (String.ofList [first, second]) = none := by
    rw [Option.eq_none_iff_forall_ne_some]
    intro operator written
    have member := pair_of_ofToken?_eq_some written
    rcases connects with rfl | rfl <;> simp at member
  rw [Kind.ofPair?, unwritten]
  rcases connects with rfl | rfl <;> simp [other]

theorem scansAs_ofConnective
    {connective : Connective} (connects : first = '&' ∨ first = '|')
    (single : Kind.ofSymbol first = .connective connective)
    (doubled : Kind.ofPair? first first = some (.connective connective))
    (rest : List Char) :
    ScansAs offset (first :: rest) (.ofConnective first connective rest) := by
  have isSymbol : isSymbol first = true := by
    rcases connects with rfl | rfl <;> rfl
  unfold Lexeme.ofConnective
  split
  · next repeated =>
      obtain ⟨others, rfl⟩ := List.head?_eq_some_iff.mp repeated
      exact scansAs_of_pair isSymbol doubled others
  · next different =>
      rw [← single]
      refine scansAs_of_alone isSymbol fun second member =>
        ofPair?_of_connective connects ?_
      rintro rfl
      exact different member

/-- Every symbol that may start an operator writes a token on its own. -/
theorem ofSymbol_of_operator
    (starts : first ∈ ['!', '=', '<', '>', '~']) (rest : List Char) :
    Lexeme.ofSymbol first rest = .ok ⟨.ofSymbol first, [first], rest⟩ := by
  simp only [List.mem_cons, List.not_mem_nil, or_false] at starts
  rcases starts with rfl | rfl | rfl | rfl | rfl <;> rfl

theorem ofPair?_of_operator
    (starts : first ∈ ['!', '=', '<', '>', '~']) (second : Char) :
    Kind.ofPair? first second =
      (Comparison.ofToken? (String.ofList [first, second])).map
        .comparison := by
  simp only [List.mem_cons, List.not_mem_nil, or_false] at starts
  rcases starts with rfl | rfl | rfl | rfl | rfl <;> rfl

/--
Where an operator may start, the reader finds a token, and the scanner the same
one.
-/
theorem exists_ofOperator
    (starts : first ∈ ['!', '=', '<', '>', '~']) (rest : List Char) :
    ∃ lexeme, Lexeme.ofOperator first rest = .ok lexeme ∧
      ScansAs offset (first :: rest) lexeme := by
  have isSymbol : isSymbol first = true := by
    simp only [List.mem_cons, List.not_mem_nil, or_false] at starts
    rcases starts with rfl | rfl | rfl | rfl | rfl <;> rfl
  cases rest with
  | nil =>
      exact ⟨_, ofSymbol_of_operator starts [], scansAs_of_alone isSymbol nofun⟩
  | cons second others =>
      have pair := ofPair?_of_operator starts second
      cases written : Comparison.ofToken? (String.ofList [first, second]) with
      | some operator =>
          rw [written] at pair
          exact ⟨_, by rw [Lexeme.ofOperator, written],
            scansAs_of_pair isSymbol pair others⟩
      | none =>
          rw [written] at pair
          refine ⟨_, ?_, scansAs_of_alone isSymbol ?_⟩
          · rw [Lexeme.ofOperator, written]
            exact ofSymbol_of_operator starts _
          · rintro next ⟨⟩
            exact pair

end Symbols

theorem scansAs_ofWord
    {first : Char} {offset : Nat} (undivided : isDelimiter first = false)
    (rest : List Char) :
    ScansAs offset (first :: rest) (.ofWord (first :: rest)) := by
  have stepped :
      Progress.idle.step offset first = ([], .word offset [first]) := by
    simp only [isDelimiter, Bool.or_eq_false_iff] at undivided
    simp [Progress.step, Progress.begin, undivided]
  rw [ScansAs, scan_cons_of_continuing stepped, scan_word_eq,
    ofWord_cons undivided, add_utf8Len_cons]
  rfl

/--
What the scanner does at a character that is not blank, in terms of the reader.
-/
theorem scan_of_reads
    {first : Char} {rest : List Char} {outcome : Except ReadFault Lexeme}
    (reads : Lexeme.Reads first rest outcome) (offset : Nat) :
    (∃ lexeme, outcome = .ok lexeme ∧ ScansAs offset (first :: rest) lexeme) ∨
      outcome = .error .openQuote ∧
        scan .idle offset (first :: rest) = .error ⟨.openQuote, offset⟩ := by
  cases reads with
  | opening same =>
      subst same
      exact Or.inl ⟨_, rfl, scan_cons_eq_map .idle offset '(' rest⟩
  | closing same =>
      subst same
      exact Or.inl ⟨_, rfl, scan_cons_eq_map .idle offset ')' rest⟩
  | quoted isQuote =>
      have notBackslash := ne_backslash_of_isQuote isQuote
      have stepped :
          Progress.idle.step offset first =
            ([], .quoted offset first [] false) :=
        begin_of_isQuote isQuote offset
      cases found : closing? first rest with
      | none =>
          refine Or.inr ⟨by rw [Lexeme.ofQuoted, found], ?_⟩
          rw [scan_cons_of_continuing stepped, scan_quoted_of_unclosed found]
      | some closing =>
          refine Or.inl ⟨_, by rw [Lexeme.ofQuoted, found], ?_⟩
          obtain ⟨content, rfl⟩ := content_of_closing? found
          rw [ScansAs, scan_cons_of_continuing stepped,
            scan_quoted_of_content notBackslash content, List.cons_append,
            add_utf8Len_cons]
          rfl
  | and same =>
      subst same
      exact Or.inl ⟨_, rfl, scansAs_ofConnective (Or.inl rfl) rfl rfl rest⟩
  | or same =>
      subst same
      exact Or.inl ⟨_, rfl, scansAs_ofConnective (Or.inr rfl) rfl rfl rest⟩
  | operator starts => exact Or.inl (exists_ofOperator starts rest)
  | word undivided => exact Or.inl ⟨_, rfl, scansAs_ofWord undivided rest⟩

/--
The reader and the scanner agree on every text.  In particular the reader never
meets a symbol that writes nothing.
-/
theorem readTokens_eq_scan (offset : Nat) (text : List Char) :
    readTokens offset text =
      (scan .idle offset text).mapError fun error =>
        ⟨.openQuote, error.position⟩ := by
  fun_induction readTokens offset text with
  | case1 => rfl
  | case2 offset first rest blank ih =>
      rw [ih, scan_idle_of_isBlank blank]
  | case3 offset first rest notBlank fault cut =>
      have reads := Lexeme.reads_read (by simpa using notBlank) rest
      rcases scan_of_reads reads offset with
        ⟨lexeme, read, -⟩ | ⟨failed, scanned⟩
      · rw [read] at cut
        cases cut
      · rw [failed] at cut
        cases cut
        rw [scanned]
        rfl
  | case4 offset first rest notBlank lexeme cut shorter ih =>
      have reads := Lexeme.reads_read (by simpa using notBlank) rest
      rcases scan_of_reads reads offset with
        ⟨other, read, scanned⟩ | ⟨failed, -⟩
      · obtain rfl : lexeme = other := Except.ok.inj (cut.symm.trans read)
        rw [ih, scanned]
        cases scan .idle (offset + String.utf8Len lexeme.text) lexeme.rest <;>
          rfl
      · rw [failed] at cut
        cases cut

end SearchPhrase.Token
