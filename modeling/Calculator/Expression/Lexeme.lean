import Calculator.Decimal.Numeral
import Calculator.Error
import Calculator.Operation.Basic
import Calculator.Text.Blank

/-!
# Lexemes

A text is cut into lexemes from left to right: numerals, names, marks and
brackets, each as long as possible, with any blanks between them.  A name is
a run of lower-case letters, and `log` takes the character after it along if
that is `_` or `2`.  The name of a function of one argument has to be
followed by an opening bracket.

The cut stops at the first fault, and reports it with its position in the
whole text.
-/

namespace Calculator

/-- A sign of one character between operands, before or after one. -/
inductive Mark where
  | plus
  | minus
  | star
  | slash
  | percent
  | caret
  | exclamation
  deriving DecidableEq, Repr

namespace Mark

/-- The character of a mark. -/
def toChar : Mark → Char
  | plus => '+'
  | minus => '-'
  | star => '*'
  | slash => '/'
  | percent => '%'
  | caret => '^'
  | exclamation => '!'

/-- The mark that a character is. -/
def ofChar? : Char → Option Mark
  | '+' => some plus
  | '-' => some minus
  | '*' => some star
  | '/' => some slash
  | '%' => some percent
  | '^' => some caret
  | '!' => some exclamation
  | _ => none

@[simp]
theorem ofChar?_toChar (mark : Mark) :
    ofChar? mark.toChar = some mark := by
  cases mark <;> rfl

theorem toChar_of_ofChar? {character : Char} {mark : Mark}
    (found : ofChar? character = some mark) :
    mark.toChar = character := by
  unfold ofChar? at found
  split at found <;> cases found <;> rfl

end Mark

/-- A piece of an expression's text. -/
inductive Lexeme where
  /-- A numeral, as it is written. -/
  | numeral (written : Numeral)
  /-- The name of a constant or a function. -/
  | name (operation : Operation)
  /-- A mark. -/
  | mark (sign : Mark)
  | openBracket
  | closeBracket
  deriving DecidableEq, Repr

namespace Lexeme

/-- The characters of a lexeme. -/
def spelling : Lexeme → List Char
  | .numeral written => written.spelling
  | .name operation => operation.name.toList
  | .mark sign => [sign.toChar]
  | .openBracket => ['(']
  | .closeBracket => [')']

/-- Takes the longest name from the head of a text. -/
def scanName (text : List Char) : List Char × List Char :=
  match text.takeWhile Char.isLower, text.dropWhile Char.isLower with
  | letters, [] => (letters, [])
  | letters, next :: rest =>
      if letters = ['l', 'o', 'g'] ∧ (next = '_' ∨ next = '2') then
        (letters ++ [next], rest)
      else
        (letters, next :: rest)

/-- Reads a numeral at the head of a text that starts at the given position.
The longest numeral is cut off first, and its spelling is then read as a
number. -/
def readNumeral (index : Nat) (text : List Char) :
    Except CalculationError (Lexeme × List Char) :=
  match Numeral.scan text with
  | .error fault => .error (.malformedNumeral index fault.reason)
  | .ok (written, rest) =>
      match Numeral.read? written.spelling with
      | none => .error (.malformedNumeral index "not a number")
      | some number =>
          if number.inRange then
            .ok (.numeral written, rest)
          else
            .error (.numeralOutOfRange (String.ofList written.spelling))

/-- Reads a name at the head of a text that starts at the given position. -/
def readName (index : Nat) (text : List Char) :
    Except CalculationError (Lexeme × List Char) :=
  let name := (scanName text).1
  let rest := (scanName text).2
  match Operation.lookup (String.ofList name) with
  | none => .error (.unrecognizedName (String.ofList name) index)
  | some (.unary operation) =>
      if (rest.dropWhile Text.isBlank).head? = some '(' then
        .ok (.name (.unary operation), rest)
      else
        .error
          (.missingBracket (String.ofList name)
            (index + name.length + (rest.takeWhile Text.isBlank).length))
  | some operation => .ok (.name operation, rest)

/-- Reads the lexeme that starts with the given character at the given
position, and leaves the rest of the text. -/
def read (index : Nat) (first : Char) (text : List Char) :
    Except CalculationError (Lexeme × List Char) :=
  if Numeral.startsWith first then
    readNumeral index (first :: text)
  else if first.isLower then
    readName index (first :: text)
  else if first = '(' then
    .ok (.openBracket, text)
  else if first = ')' then
    .ok (.closeBracket, text)
  else
    match Mark.ofChar? first with
    | some sign => .ok (.mark sign, text)
    | none => .error (.unrecognizedCharacter first index)

/-- Scanning a name loses nothing. -/
@[simp]
theorem scanName_append (text : List Char) :
    (scanName text).1 ++ (scanName text).2 = text := by
  have whole :=
    List.takeWhile_append_dropWhile (p := Char.isLower) (l := text)
  unfold scanName
  split
  · next letters lettersEq restEq =>
      rw [restEq] at whole
      exact whole
  · next letters next rest lettersEq restEq =>
      rw [restEq] at whole
      split <;> simpa using whole

theorem spelling_append_of_readNumeral {index : Nat}
    {text rest : List Char} {lexeme : Lexeme}
    (isRead : readNumeral index text = .ok (lexeme, rest)) :
    lexeme.spelling ++ rest = text := by
  unfold readNumeral at isRead
  split at isRead
  · cases isRead
  · next written remaining scanned =>
      split at isRead
      · cases isRead
      · split at isRead
        · cases isRead
          exact Numeral.spelling_append_of_scan scanned
        · cases isRead

/-- A name that is read is the name of an operation, and stands at the head
of the text. -/
theorem eq_name_of_readName {index : Nat} {text rest : List Char}
    {lexeme : Lexeme}
    (isRead : readName index text = .ok (lexeme, rest)) :
    ∃ operation,
      lexeme = .name operation ∧
        operation.name.toList = (scanName text).1 ∧
          rest = (scanName text).2 := by
  unfold readName at isRead
  dsimp only at isRead
  split at isRead
  · cases isRead
  · next operation found =>
      split at isRead
      · cases isRead
        refine ⟨_, rfl, ?_, rfl⟩
        rw [Operation.name_of_lookup found, String.toList_ofList]
      · cases isRead
  · next operation _ found =>
      cases isRead
      refine ⟨_, rfl, ?_, rfl⟩
      rw [Operation.name_of_lookup found, String.toList_ofList]

/-- Reading loses nothing: the spelling of the lexeme, followed by the rest,
is the text. -/
theorem spelling_append_of_read {index : Nat} {first : Char}
    {text rest : List Char} {lexeme : Lexeme}
    (isRead : read index first text = .ok (lexeme, rest)) :
    lexeme.spelling ++ rest = first :: text := by
  unfold read at isRead
  split at isRead
  · exact spelling_append_of_readNumeral isRead
  · split at isRead
    · obtain ⟨operation, rfl, named, rfl⟩ := eq_name_of_readName isRead
      simp only [spelling, named]
      exact scanName_append _
    · split at isRead
      · next opening =>
          cases isRead
          simp [spelling, opening]
      · split at isRead
        · next closing =>
            cases isRead
            simp [spelling, closing]
        · split at isRead
          · next sign found =>
              cases isRead
              simp [spelling, Mark.toChar_of_ofChar? found]
          · cases isRead

/-- A numeral is read where one can begin. -/
theorem scan_of_read_numeral {index : Nat} {first : Char}
    {text rest : List Char} {written : Numeral}
    (isRead : read index first text = .ok (.numeral written, rest)) :
    Numeral.startsWith first = true ∧
      Numeral.scan (first :: text) = .ok (written, rest) := by
  unfold read at isRead
  split at isRead
  · next starts =>
      unfold readNumeral at isRead
      split at isRead
      · cases isRead
      · next scanned =>
          split at isRead
          · cases isRead
          · split at isRead
            · cases isRead
              exact ⟨starts, scanned⟩
            · cases isRead
  · split at isRead
    · obtain ⟨operation, same, -⟩ := eq_name_of_readName isRead
      cases same
    · split at isRead
      · cases isRead
      · split at isRead
        · cases isRead
        · split at isRead <;> cases isRead

/-- Every lexeme that is read has a spelling. -/
theorem spelling_ne_nil_of_read {index : Nat} {first : Char}
    {text rest : List Char} {lexeme : Lexeme}
    (isRead : read index first text = .ok (lexeme, rest)) :
    lexeme.spelling ≠ [] := by
  cases lexeme with
  | numeral written =>
      obtain ⟨starts, scanned⟩ := scan_of_read_numeral isRead
      exact Numeral.spelling_ne_nil_of_scan starts scanned
  | name operation => exact operation.name_toList_ne_nil
  | mark sign => simp [spelling]
  | openBracket => simp [spelling]
  | closeBracket => simp [spelling]

/-- Reading takes at least one character. -/
theorem length_rest_lt_of_read {index : Nat} {first : Char}
    {text rest : List Char} {lexeme : Lexeme}
    (isRead : read index first text = .ok (lexeme, rest)) :
    rest.length < (first :: text).length := by
  have positive :=
    List.length_pos_iff.mpr (spelling_ne_nil_of_read isRead)
  rw [← spelling_append_of_read isRead, List.length_append]
  omega

/-- The lexemes of a text that starts at the given position. -/
def scanFrom (index : Nat) (text : List Char) :
    Except CalculationError (List Lexeme) :=
  match text with
  | [] => .ok []
  | first :: rest =>
      if Text.isBlank first then
        scanFrom (index + 1) rest
      else
        match _isRead : read index first rest with
        | .error failure => .error failure
        | .ok (lexeme, remaining) =>
            (scanFrom (index + lexeme.spelling.length) remaining).map
              (lexeme :: ·)
termination_by text.length
decreasing_by
  · simp
  · exact length_rest_lt_of_read (by assumption)

/-- The lexemes of a text. -/
def scan (text : List Char) : Except CalculationError (List Lexeme) :=
  scanFrom 0 text

end Lexeme

end Calculator
