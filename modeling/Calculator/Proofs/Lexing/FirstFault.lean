import Calculator.Proofs.Lexing.Exchange
import Calculator.Proofs.Lexing.Fault
import Calculator.Proofs.Lexing.Number

/-!
# The first faulty lexeme

Where a text is not cut into lexemes, its first part is, and a lexeme with a
fault stands after it.  The fault is told by the error, with the position at
which it is seen: at the start of the lexeme, or, for a function without its
bracket, where the bracket should stand.

The lexemes before the fault do not depend on it.  They are those of the first
part by itself, because neither a numeral nor a name runs into a faulty lexeme
and because no faulty lexeme is the bracket of a function.  So no fault is
reported that another one precedes.
-/

namespace Calculator

/-- The character stands by itself and is part of no lexeme: nothing starts
with it. -/
structure StartsNothing (character : Char) : Prop where
  notBlank : Text.isBlank character = false
  noNumeral : Numeral.startsWith character = false
  noName : character.isLower = false
  noBracket : character ≠ '(' ∧ character ≠ ')'
  noMark : Mark.ofChar? character = none

/-- The lexeme at the head of a text has a fault, which the error tells; the
text starts at the given position. -/
inductive Faulty (index : Nat) : List Char → CalculationError → Prop
  /-- Nothing starts with the character. -/
  | character {character : Char} {rest : List Char}
      (nothing : StartsNothing character) :
      Faulty index (character :: rest)
        (.unrecognizedCharacter character index)
  /-- A complete name is the name of nothing. -/
  | name {name rest : List Char} (complete : NameBefore name rest)
      (unknown : Operation.lookup (String.ofList name) = none) :
      Faulty index (name ++ rest)
        (.unrecognizedName (String.ofList name) index)
  /-- A function of one argument is not followed by its bracket. -/
  | bracket {function : UnaryOperation} {blanks rest : List Char}
      (complete : NameBefore function.name.toList (blanks ++ rest))
      (blank : Blank blanks) (stops : Stops Text.isBlank rest)
      (missing : rest.head? ≠ some '(') :
      Faulty index (function.name.toList ++ (blanks ++ rest))
        (.missingBracket function.name
          (index + function.name.toList.length + blanks.length))
  /-- A literal breaks off. -/
  | numeral {first : Char} {rest : List Char} {fault : NumeralFault}
      (starts : Numeral.startsWith first = true)
      (broken : Numeral.BreaksOff fault (first :: rest)) :
      Faulty index (first :: rest) (.malformedNumeral index fault.reason)
  /-- A literal denotes a number that is too large for a float. -/
  | range {numeral : Numeral} {rest : List Char}
      (literal : numeral.Literal) (ends : numeral.EndsBefore rest)
      (large : 2 ^ 1024 - 2 ^ 970 ≤ numeral.toRat) :
      Faulty index (numeral.spelling ++ rest)
        (.numeralOutOfRange (String.ofList numeral.spelling))

namespace Lexeme

variable {index : Nat} {first character : Char} {text rest : List Char}
  {failure : CalculationError}

/-! ## Reading a faulty lexeme -/

theorem faulty_of_readNumeral (starts : Numeral.startsWith first = true)
    (failed : readNumeral index (first :: text) = .error failure) :
    Faulty index (first :: text) failure := by
  rw [readNumeral_eq index starts] at failed
  split at failed
  · next fault scanned =>
      cases failed
      exact .numeral starts (Numeral.breaksOff_of_scan starts scanned)
  · next written remaining scanned =>
      split at failed
      · cases failed
      · next outside =>
          cases failed
          obtain ⟨literal, ends⟩ := Numeral.literal_of_scan starts scanned
          rw [← Numeral.spelling_append_of_scan scanned]
          apply Faulty.range literal ends
          exact not_lt.mp (mt written.inRange_iff.mpr outside)

theorem faulty_of_readName (lower : first.isLower = true)
    (failed : readName index (first :: text) = .error failure) :
    Faulty index (first :: text) failure := by
  have complete := nameBefore_scanName text lower
  have whole := scanName_append (first :: text)
  unfold readName at failed
  dsimp only at failed
  generalize (scanName (first :: text)).1 = name at *
  generalize (scanName (first :: text)).2 = rest at *
  rw [← whole]
  split at failed
  · next unknown =>
      cases failed
      exact .name complete unknown
  · next function found =>
      split at failed
      · cases failed
      · next shut =>
          cases failed
          have named : function.name = String.ofList name :=
            Operation.name_of_lookup found
          have letters : name = function.name.toList := by
            rw [named, String.toList_ofList]
          have split := List.takeWhile_append_dropWhile
            (p := Text.isBlank) (l := rest)
          rw [← named, letters, ← split]
          rw [letters, ← split] at complete
          have blank : Blank (rest.takeWhile Text.isBlank) :=
            fun c member => List.mem_takeWhile_imp member
          have missing : Faulty index _ _ :=
            .bracket complete blank (stops_dropWhile Text.isBlank rest) shut
          simpa using missing
  · cases failed

/-- Where no lexeme is read, the one at the head of the text is faulty. -/
theorem faulty_of_read (notBlank : Text.isBlank first = false)
    (failed : read index first text = .error failure) :
    Faulty index (first :: text) failure := by
  unfold read at failed
  split at failed
  · next starts => exact faulty_of_readNumeral starts failed
  · next noNumeral =>
      split at failed
      · next lower => exact faulty_of_readName lower failed
      · next noName =>
          split at failed
          · cases failed
          · next notOpening =>
              split at failed
              · cases failed
              · next notClosing =>
                  split at failed
                  · cases failed
                  · next noMark =>
                      cases failed
                      exact .character ⟨notBlank, by simpa using noNumeral,
                        by simpa using noName, ⟨notOpening, notClosing⟩,
                        noMark⟩

/-! ## No lexeme is read where one is faulty -/

/-- The text starts neither with a blank nor with the bracket of a function,
and no lexeme is read at its head. -/
def FailsOn (index : Nat) (text : List Char) (failure : CalculationError) :
    Prop :=
  ∃ head others,
    text = head :: others ∧ Text.isBlank head = false ∧ head ≠ '(' ∧
      read index head others = .error failure

theorem failsOn_of_startsNothing (index : Nat) (rest : List Char)
    (nothing : StartsNothing character) :
    FailsOn index (character :: rest)
      (.unrecognizedCharacter character index) := by
  refine ⟨character, rest, rfl, nothing.notBlank, nothing.noBracket.1, ?_⟩
  rw [read, if_neg (by simp [nothing.noNumeral]),
    if_neg (by simp [nothing.noName]), if_neg nothing.noBracket.1,
    if_neg nothing.noBracket.2, nothing.noMark]

/-- A complete name is read as a name. -/
theorem failsOn_of_readName {name : List Char}
    (complete : NameBefore name rest)
    (failed : readName index (name ++ rest) = .error failure) :
    FailsOn index (name ++ rest) failure := by
  obtain ⟨head, found, lower⟩ := exists_head_of_nameBefore complete
  obtain ⟨letters, rfl⟩ := List.head?_eq_some_iff.mp found
  refine ⟨head, letters ++ rest, rfl, not_isBlank_of_isLower lower, ?_, ?_⟩
  · rintro rfl
    cases lower
  · have notNumeral := not_startsWith_of_isLower lower
    rw [read, if_neg (by simp [notNumeral]), if_pos lower]
    exact failed

theorem readName_of_unknown {name : List Char}
    (complete : NameBefore name rest)
    (unknown : Operation.lookup (String.ofList name) = none) :
    readName index (name ++ rest) =
      .error (.unrecognizedName (String.ofList name) index) := by
  rw [readName, scanName_append_of_nameBefore complete]
  dsimp only
  rw [unknown]

theorem readName_of_missing {function : UnaryOperation}
    {blanks : List Char}
    (complete : NameBefore function.name.toList (blanks ++ rest))
    (blank : Blank blanks) (stops : Stops Text.isBlank rest)
    (missing : rest.head? ≠ some '(') :
    readName index (function.name.toList ++ (blanks ++ rest)) =
      .error (.missingBracket function.name
        (index + function.name.toList.length + blanks.length)) := by
  have found : Operation.lookup function.name = some (.unary function) :=
    Operation.lookup_name (.unary function)
  rw [readName, scanName_append_of_nameBefore complete]
  dsimp only
  rw [String.ofList_toList, found]
  dsimp only
  rw [dropWhile_append_of_stops blank stops, if_neg missing,
    takeWhile_append_of_stops blank stops]

/-- Where a numeral can begin, one is read. -/
theorem failsOn_of_readNumeral
    (head : ∃ first, text.head? = some first ∧
      Numeral.startsWith first = true)
    (failed : readNumeral index text = .error failure) :
    FailsOn index text failure := by
  obtain ⟨first, found, starts⟩ := head
  obtain ⟨others, rfl⟩ := List.head?_eq_some_iff.mp found
  refine ⟨first, others, rfl, not_isBlank_of_startsWith starts, ?_, ?_⟩
  · rintro rfl
    cases starts
  · rw [read, if_pos starts]
    exact failed

theorem readNumeral_of_large {numeral : Numeral}
    (literal : numeral.Literal) (ends : numeral.EndsBefore rest)
    (large : 2 ^ 1024 - 2 ^ 970 ≤ numeral.toRat) :
    readNumeral index (numeral.spelling ++ rest) =
      .error (.numeralOutOfRange (String.ofList numeral.spelling)) := by
  obtain ⟨head, found, starts⟩ := literal.exists_head
  obtain ⟨others, shape⟩ := List.head?_eq_some_iff.mp found
  have scanned := Numeral.scan_spelling_append literal ends
  rw [shape, List.cons_append] at scanned ⊢
  rw [← shape]
  exact (readNumeral_of_scan starts index scanned).1 large

/-- Reading a faulty lexeme reports its fault. -/
theorem failsOn_of_faulty
    (faulty : Faulty index text failure) : FailsOn index text failure := by
  cases faulty with
  | character nothing => exact failsOn_of_startsNothing index _ nothing
  | name complete unknown =>
      apply failsOn_of_readName complete
      exact readName_of_unknown complete unknown
  | bracket complete blank stops missing =>
      apply failsOn_of_readName complete
      exact readName_of_missing complete blank stops missing
  | @numeral first rest fault starts broken =>
      apply failsOn_of_readNumeral ⟨first, rfl, starts⟩
      rw [readNumeral_eq index starts, broken.scan_eq_error]
  | @range numeral rest literal ends large =>
      obtain ⟨head, found, starts⟩ := literal.exists_head
      apply failsOn_of_readNumeral
      · refine ⟨head, ?_, starts⟩
        rw [List.head?_append, found, Option.some_or]
      · exact readNumeral_of_large literal ends large

end Lexeme

/-! ## A cut of the first part of a text -/

namespace Cut

/-- The lexemes with the given blanks after them can be cut off a text that
goes on with the given rest. -/
def CutOff (trailing rest : List Char) : List Piece → Prop
  | [] => Blank trailing
  | piece :: pieces =>
      Blank piece.gap ∧
        piece.lexeme.StandsBefore (text ⟨pieces, trailing⟩ ++ rest) ∧
          CutOff trailing rest pieces

/-- The cut is that of the first part of a text that goes on with the given
rest: every lexeme may stand before all that follows it. -/
def LexicalBefore (rest : List Char) (cut : Cut) : Prop :=
  CutOff cut.trailing rest cut.pieces

variable {cut : Cut} {rest other : List Char} {index : Nat}

theorem lexicalBefore_nil_iff : cut.LexicalBefore [] ↔ cut.Lexical := by
  obtain ⟨pieces, trailing⟩ := cut
  induction pieces with
  | nil => exact lexical_nil_iff.symm
  | cons piece pieces ih =>
      rw [lexical_cons_iff, ← ih, LexicalBefore, CutOff, List.append_nil]
      rfl

/-- What follows the cut may be exchanged for a text that looks the same from
the left. -/
theorem LexicalBefore.exchange (lexical : cut.LexicalBefore rest)
    (head : other.head? = rest.head? ∨ Stops goesOn other)
    (opens : Opens rest → Opens other) : cut.LexicalBefore other := by
  obtain ⟨pieces, trailing⟩ := cut
  induction pieces with
  | nil => exact lexical
  | cons piece pieces ih =>
      obtain ⟨gap, stands, others⟩ := lexical
      refine ⟨gap, stands.exchange ?_ ?_, ih others⟩
      · cases text ⟨pieces, trailing⟩ with
        | nil => exact head
        | cons first characters => exact Or.inl rfl
      · exact fun opened => opened.append_of_imp opens

/-- The lexemes of the first part are found first. -/
theorem LexicalBefore.scanFrom_append (lexical : cut.LexicalBefore rest)
    (index : Nat) :
    Lexeme.scanFrom index (cut.text ++ rest) =
      (Lexeme.scanFrom (index + cut.text.length) rest).map
        (cut.lexemes ++ ·) := by
  obtain ⟨pieces, trailing⟩ := cut
  induction pieces generalizing index with
  | nil =>
      have blank : Blank trailing := lexical
      rw [text_nil, scanFrom_blank_append index blank, lexemes_nil]
      cases Lexeme.scanFrom (index + trailing.length) rest <;> rfl
  | cons piece pieces ih =>
      obtain ⟨gap, stands, others⟩ := lexical
      obtain ⟨first, characters, shape, notBlank⟩ :=
        Lexeme.exists_head_of_standsBefore stands
      have spelled :
          piece.lexeme.spelling ++ (text ⟨pieces, trailing⟩ ++ rest) =
            first :: (characters ++ (text ⟨pieces, trailing⟩ ++ rest)) := by
        rw [shape, List.cons_append]
      have isRead := Lexeme.read_of_standsBefore
        (index + piece.gap.length) spelled stands
      rw [text_cons, List.append_assoc, scanFrom_blank_append index gap,
        List.append_assoc, spelled, scanFrom_of_read notBlank isRead,
        ih _ others]
      simp only [List.length_append, Nat.add_assoc, lexemes_cons]
      cases Lexeme.scanFrom _ rest <;> rfl

/-- A faulty lexeme is where the scan ends. -/
theorem scanFrom_of_faulty {failure : CalculationError}
    (faulty : Faulty index rest failure) :
    Lexeme.scanFrom index rest = .error failure := by
  obtain ⟨head, others, rfl, notBlank, -, failed⟩ :=
    Lexeme.failsOn_of_faulty faulty
  rw [Lexeme.scanFrom, if_neg (by simp [notBlank])]
  split
  · next found =>
      rw [failed] at found
      cases found
      rfl
  · next found =>
      rw [failed] at found
      cases found

theorem exists_faulty_of_scanFrom {text : List Char}
    {failure : CalculationError}
    (failed : Lexeme.scanFrom index text = .error failure) :
    ∃ cut : Cut, ∃ rest,
      text = cut.text ++ rest ∧ cut.LexicalBefore rest ∧
        Faulty (index + cut.text.length) rest failure := by
  induction index, text using Lexeme.scanFrom.induct with
  | case1 index =>
      rw [Lexeme.scanFrom] at failed
      cases failed
  | case2 index first characters blank ih =>
      rw [Lexeme.scanFrom, if_pos blank] at failed
      obtain ⟨⟨pieces, trailing⟩, rest, rfl, lexical, faulty⟩ := ih failed
      cases pieces with
      | nil =>
          refine ⟨⟨[], first :: trailing⟩, rest, rfl,
            List.forall_mem_cons.mpr ⟨blank, lexical⟩, ?_⟩
          convert faulty using 1
          simp only [text_nil, List.length_cons]
          omega
      | cons piece pieces =>
          obtain ⟨gap, others⟩ := lexical
          refine
            ⟨⟨⟨first :: piece.gap, piece.lexeme⟩ :: pieces, trailing⟩, rest,
              by simp, ⟨List.forall_mem_cons.mpr ⟨blank, gap⟩, others⟩, ?_⟩
          convert faulty using 1
          simp only [text_cons, List.length_append, List.length_cons]
          omega
  | case3 index first characters notBlank fault found =>
      have notBlank : Text.isBlank first = false := by
        simpa using notBlank
      refine ⟨⟨[], []⟩, first :: characters, rfl, by simp [Blank,
        LexicalBefore, CutOff], ?_⟩
      have faulty := Lexeme.faulty_of_read notBlank found
      have same := scanFrom_of_faulty faulty
      rw [failed] at same
      cases same
      exact faulty
  | case4 index first characters notBlank lexeme remaining isRead ih =>
      have notBlank : Text.isBlank first = false := by
        simpa using notBlank
      rw [scanFrom_of_read notBlank isRead, Outcome.map_eq_error_iff]
        at failed
      obtain ⟨⟨pieces, trailing⟩, rest, rfl, lexical, faulty⟩ := ih failed
      obtain ⟨spelled, stands⟩ := Lexeme.read_eq_ok_iff.mp isRead
      refine ⟨⟨⟨[], lexeme⟩ :: pieces, trailing⟩, rest, ?_,
        ⟨by simp [Blank], stands, lexical⟩, ?_⟩
      · rw [text_cons, List.nil_append, List.append_assoc, spelled]
      · convert faulty using 1
        simp only [text_cons, List.nil_append, List.length_append]
        omega

end Cut

/-! ## The first fault -/

/-- After a first part that is cut into lexemes, a lexeme is faulty. -/
def FirstFault (chars : List Char) (failure : CalculationError) : Prop :=
  ∃ cut : Cut, ∃ rest,
    chars = cut.text ++ rest ∧ cut.LexicalBefore rest ∧
      Faulty cut.text.length rest failure

/-- Up to a position the text is cut into lexemes, by itself as in the whole,
and nothing in it is at fault. -/
structure ReadUpTo (chars : List Char) (start : Nat) : Prop where
  inside : start ≤ chars.length
  cut : ∃ cut : Cut,
    cut.text = chars.take start ∧ cut.Lexical ∧
      cut.LexicalBefore (chars.drop start)
  noFault : ∀ failure, LexemeFault failure →
    tokenize (String.ofList (chars.take start)) ≠ .error failure

/-- A lexeme with a fault is the only reason for an error that tells one. -/
theorem tokenize_eq_error_iff_of_lexemeFault {text : String}
    {failure : CalculationError} (fault : LexemeFault failure) :
    tokenize text = .error failure ↔
      Lexeme.scan text.toList = .error failure := by
  rw [tokenize, Outcome.bind_eq_error_iff]
  constructor
  · rintro (failed | ⟨lexemes, -, refused⟩)
    · exact failed
    · rcases checkBrackets_eq_error_iff.mp refused with
        ⟨-, rfl⟩ | ⟨-, rfl⟩ | ⟨-, rfl⟩ <;>
        cases fault
  · exact Or.inl

theorem lexemeFault_of_malformedNumeral {text : String} {index : Nat}
    {reason : String}
    (failed : tokenize text = .error (.malformedNumeral index reason)) :
    LexemeFault (.malformedNumeral index reason) := by
  rw [tokenize, Outcome.bind_eq_error_iff] at failed
  rcases failed with faulty | ⟨lexemes, -, refused⟩
  · exact Lexeme.lexemeFault_of_scan faulty
  · rcases checkBrackets_eq_error_iff.mp refused with
      ⟨-, ⟨⟩⟩ | ⟨-, ⟨⟩⟩ | ⟨-, ⟨⟩⟩

theorem Lexeme.scan_eq_error_iff {chars : List Char}
    {failure : CalculationError} :
    scan chars = .error failure ↔ FirstFault chars failure := by
  constructor
  · intro failed
    obtain ⟨cut, rest, split, lexical, faulty⟩ :=
      Cut.exists_faulty_of_scanFrom failed
    rw [Nat.zero_add] at faulty
    exact ⟨cut, rest, split, lexical, faulty⟩
  · rintro ⟨cut, rest, rfl, lexical, faulty⟩
    rw [scan, lexical.scanFrom_append, Nat.zero_add,
      Cut.scanFrom_of_faulty faulty]
    rfl

/-- A faulty lexeme is not the bracket of a function. -/
theorem Faulty.not_opens {index : Nat} {rest : List Char}
    {failure : CalculationError} (faulty : Faulty index rest failure) :
    ¬ Opens rest := by
  obtain ⟨head, others, rfl, notBlank, notBracket, -⟩ :=
    Lexeme.failsOn_of_faulty faulty
  rw [opens_cons_iff notBlank]
  exact notBracket

theorem readUpTo_of_faulty {cut : Cut} {index : Nat} {rest : List Char}
    {failure : CalculationError} (lexical : cut.LexicalBefore rest)
    (faulty : Faulty index rest failure) :
    ReadUpTo (cut.text ++ rest) cut.text.length := by
  have alone : cut.Lexical :=
    Cut.lexicalBefore_nil_iff.mp (lexical.exchange (Or.inr (stops_nil _))
      fun opens => absurd opens faulty.not_opens)
  refine ⟨by simp, ⟨cut, ?_, alone, ?_⟩, ?_⟩
  · rw [List.take_left]
  · rw [List.drop_left]
    exact lexical
  · intro other fault failed
    rw [tokenize_eq_error_iff_of_lexemeFault fault, String.toList_ofList,
      List.take_left, Lexeme.scan, alone.scanFrom_text] at failed
    cases failed

/-- A character that starts nothing starts no lexeme. -/
theorem StartsNothing.ne_head {character : Char}
    (nothing : StartsNothing character) {lexeme : Lexeme}
    {rest : List Char} (stands : lexeme.StandsBefore rest) :
    lexeme.spelling.head? ≠ some character := by
  intro head
  obtain ⟨others, shape⟩ := List.head?_eq_some_iff.mp head
  have spelled :
      lexeme.spelling ++ rest = character :: (others ++ rest) := by
    rw [shape, List.cons_append]
  have isRead := Lexeme.read_of_standsBefore 0 spelled stands
  have faulty : Faulty 0 (character :: (others ++ rest)) _ :=
    .character nothing
  obtain ⟨head, characters, same, -, -, failed⟩ :=
    Lexeme.failsOn_of_faulty faulty
  obtain ⟨rfl, rfl⟩ := List.cons.inj same
  rw [isRead] at failed
  cases failed

/-- The numeral has the form `digits? ('.' digits)? ('e' sign? digits)?`; it
may be empty. -/
structure Numeral.Shaped (numeral : Numeral) : Prop where
  whole : ∀ c ∈ numeral.whole, c.isDigit = true
  fraction : ∀ digits ∈ numeral.fraction,
    digits ≠ [] ∧ ∀ c ∈ digits, c.isDigit = true
  exponent : ∀ exponent ∈ numeral.exponent,
    exponent.digits ≠ [] ∧ ∀ c ∈ exponent.digits, c.isDigit = true

/-- What has the form of a literal and stands at a digit or a point is a
literal. -/
theorem Numeral.Shaped.literal {numeral : Numeral} {first : Char}
    {rest text : List Char} (shaped : numeral.Shaped)
    (ends : numeral.EndsBefore rest)
    (spelled : numeral.spelling ++ rest = first :: text)
    (starts : Numeral.startsWith first = true) : numeral.Literal := by
  refine ⟨shaped.whole, shaped.fraction, shaped.exponent, ?_⟩
  by_contra bare
  rw [not_or, not_not, not_not] at bare
  obtain ⟨whole, fraction, exponent⟩ := numeral
  obtain ⟨rfl, rfl⟩ := bare
  cases exponent with
  | none =>
      obtain rfl : rest = first :: text := spelled
      have noDigit := stops_cons.mp ends.digit
      have noPoint := stops_cons.mp (ends.point rfl)
      rw [Numeral.startsWith, noDigit, noPoint] at starts
      cases starts
  | some written =>
      obtain ⟨rfl, -⟩ := List.cons.inj spelled
      cases starts

namespace FirstFault

variable {chars : List Char} {character : Char} {name reason : String}
  {index : Nat}

theorem of_unrecognizedCharacter
    (first : FirstFault chars (.unrecognizedCharacter character index)) :
    chars[index]? = some character ∧ StartsNothing character ∧
      (∀ other, FirstFault (chars.take (index + 1) ++ other)
        (.unrecognizedCharacter character index)) ∧
      ReadUpTo chars index := by
  obtain ⟨cut, rest, rfl, lexical, faulty⟩ := first
  have upTo := readUpTo_of_faulty lexical faulty
  cases faulty with
  | @character _ rest nothing =>
      refine ⟨by simp, nothing, fun other => ?_, upTo⟩
      have kept : (cut.text ++ character :: rest).take
          (cut.text.length + 1) ++ other =
            cut.text ++ character :: other := by
        simp [List.take_append]
      rw [kept]
      refine ⟨cut, character :: other, rfl, lexical.exchange (Or.inl rfl) ?_,
        .character nothing⟩
      rw [opens_cons_iff nothing.notBlank, opens_cons_iff nothing.notBlank]
      exact id

theorem of_unrecognizedName
    (first : FirstFault chars (.unrecognizedName name index)) :
    (∃ rest, chars.drop index = name.toList ++ rest ∧
      NameBefore name.toList rest) ∧
      Operation.lookup name = none ∧ ReadUpTo chars index := by
  obtain ⟨cut, rest, rfl, lexical, faulty⟩ := first
  have upTo := readUpTo_of_faulty lexical faulty
  cases faulty with
  | @name letters rest complete unknown =>
      rw [String.toList_ofList]
      exact ⟨⟨rest, List.drop_left, complete⟩, unknown, upTo⟩

theorem of_missingBracket
    (first : FirstFault chars (.missingBracket name index)) :
    ∃ function start blanks,
      Operation.lookup name = some (.unary function) ∧
        chars.drop start =
          name.toList ++ (blanks ++ chars.drop index) ∧
        NameBefore name.toList (blanks ++ chars.drop index) ∧
        Blank blanks ∧
        index = start + name.toList.length + blanks.length ∧
        (index = chars.length ∨
          ∃ next, chars[index]? = some next ∧ next ≠ '(' ∧
            Text.isBlank next = false) ∧
        ReadUpTo chars start := by
  obtain ⟨cut, rest, rfl, lexical, faulty⟩ := first
  have upTo := readUpTo_of_faulty lexical faulty
  cases faulty with
  | @bracket function blanks rest complete blank stops missing =>
      have left : (cut.text ++ (function.name.toList ++ (blanks ++ rest))).drop
          (cut.text.length + function.name.toList.length +
            blanks.length) = rest := by
        rw [← List.append_assoc, ← List.append_assoc,
          ← List.length_append, ← List.length_append, List.drop_left]
      rw [left]
      refine ⟨function, cut.text.length, blanks,
        Operation.lookup_name (.unary function), List.drop_left, complete,
        blank, rfl, ?_, upTo⟩
      cases rest with
      | nil =>
          left
          simp only [List.append_nil, List.length_append]
          omega
      | cons next rest =>
          right
          refine ⟨next, ?_, by simpa using missing, stops_cons.mp stops⟩
          rw [← List.head?_drop, left]
          rfl

theorem of_malformedNumeral
    (first : FirstFault chars (.malformedNumeral index reason)) :
    (∃ head, chars[index]? = some head ∧
      Numeral.startsWith head = true) ∧
      (∀ (numeral : Numeral) (rest : List Char), numeral.Shaped →
        numeral.EndsBefore rest →
          chars.drop index ≠ numeral.spelling ++ rest) ∧
      ReadUpTo chars index := by
  obtain ⟨cut, rest, rfl, lexical, faulty⟩ := first
  have upTo := readUpTo_of_faulty lexical faulty
  cases faulty with
  | @numeral head rest fault starts broken =>
      refine ⟨⟨head, by simp, starts⟩, ?_, upTo⟩
      intro numeral other shaped ends same
      rw [List.drop_left] at same
      have literal := shaped.literal ends same.symm starts
      have failed := broken.scan_eq_error
      rw [same, Numeral.scan_spelling_append literal ends] at failed
      cases failed

theorem of_numeralOutOfRange
    (first : FirstFault chars (.numeralOutOfRange name)) :
    ∃ numeral : Numeral, ∃ start rest,
      numeral.Literal ∧ numeral.EndsBefore rest ∧
        chars.drop start = numeral.spelling ++ rest ∧
        name = String.ofList numeral.spelling ∧
        2 ^ 1024 - 2 ^ 970 ≤ numeral.toRat ∧ ReadUpTo chars start := by
  obtain ⟨cut, rest, rfl, lexical, faulty⟩ := first
  have upTo := readUpTo_of_faulty lexical faulty
  cases faulty with
  | @range numeral rest literal ends large =>
      exact ⟨numeral, cut.text.length, rest, literal, ends, List.drop_left,
        rfl, large, upTo⟩

end FirstFault

/-- An error that tells the fault of a lexeme is reported exactly where the
lexemes of a first part are followed by one with that fault.  Each of the
errors names what is written there and points at it, and up to there the text
has no fault.  What follows a character that starts nothing does not
matter, and where a numeral is malformed stands no literal that ends. -/
theorem tokenize_eq_error_firstFault (text : String) :
    let chars := text.toList
    (∀ failure, LexemeFault failure →
      (tokenize text = .error failure ↔ FirstFault chars failure)) ∧
      (∀ character index,
        tokenize text = .error (.unrecognizedCharacter character index) →
          chars[index]? = some character ∧
            Text.isBlank character = false ∧
            (∀ (lexeme : Lexeme) (rest : List Char),
              lexeme.StandsBefore rest →
                lexeme.spelling.head? ≠ some character) ∧
            (∀ other,
              tokenize (String.ofList (chars.take (index + 1) ++ other)) =
                .error (.unrecognizedCharacter character index)) ∧
            ReadUpTo chars index) ∧
      (∀ name index,
        tokenize text = .error (.unrecognizedName name index) →
          (∃ rest, chars.drop index = name.toList ++ rest ∧
            NameBefore name.toList rest) ∧
            Operation.lookup name = none ∧ ReadUpTo chars index) ∧
      (∀ name index,
        tokenize text = .error (.missingBracket name index) →
          ∃ function start blanks,
            Operation.lookup name = some (.unary function) ∧
              chars.drop start =
                name.toList ++ (blanks ++ chars.drop index) ∧
              NameBefore name.toList (blanks ++ chars.drop index) ∧
              Blank blanks ∧
              index = start + name.toList.length + blanks.length ∧
              (index = chars.length ∨
                ∃ next, chars[index]? = some next ∧ next ≠ '(' ∧
                  Text.isBlank next = false) ∧
              ReadUpTo chars start) ∧
      (∀ index reason,
        tokenize text = .error (.malformedNumeral index reason) →
          (∃ head, chars[index]? = some head ∧
            Numeral.startsWith head = true) ∧
            (∀ (numeral : Numeral) (rest : List Char), numeral.Shaped →
              numeral.EndsBefore rest →
                chars.drop index ≠ numeral.spelling ++ rest) ∧
            ReadUpTo chars index) ∧
      (∀ spelling,
        tokenize text = .error (.numeralOutOfRange spelling) →
          ∃ numeral : Numeral, ∃ start rest,
            numeral.Literal ∧ numeral.EndsBefore rest ∧
              chars.drop start = numeral.spelling ++ rest ∧
              spelling = String.ofList numeral.spelling ∧
              2 ^ 1024 - 2 ^ 970 ≤ numeral.toRat ∧
              ReadUpTo chars start) := by
  intro chars
  have decided : ∀ {other : String} {failure : CalculationError},
      LexemeFault failure →
        (tokenize other = .error failure ↔
          FirstFault other.toList failure) := fun fault =>
    (tokenize_eq_error_iff_of_lexemeFault fault).trans
      Lexeme.scan_eq_error_iff
  refine ⟨fun failure => decided, ?_, ?_, ?_, ?_, ?_⟩
  · intro character index failed
    have fault := LexemeFault.character character index
    obtain ⟨here, nothing, whatever, upTo⟩ :=
      ((decided fault).mp failed).of_unrecognizedCharacter
    refine ⟨here, nothing.notBlank, fun lexeme rest => nothing.ne_head,
      fun other => ?_, upTo⟩
    rw [decided fault, String.toList_ofList]
    exact whatever other
  · intro name index failed
    exact ((decided (.name name index)).mp failed).of_unrecognizedName
  · intro name index failed
    exact ((decided (.bracket name index)).mp failed).of_missingBracket
  · intro index reason failed
    have fault := lexemeFault_of_malformedNumeral failed
    exact ((decided fault).mp failed).of_malformedNumeral
  · intro spelling failed
    exact ((decided (.range spelling)).mp failed).of_numeralOutOfRange

end Calculator
