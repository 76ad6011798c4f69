import Calculator.Expression.Lexeme
import Calculator.Proofs.Lexing.Literal

/-!
# Where a lexeme may stand

Whether a lexeme can be cut off a text depends on the lexeme and on the text
that follows it, and on nothing else: a literal has to end there, a name must
not go on, and a function of one argument needs its bracket.

The main result says that reading a text finds a lexeme exactly when the text
is the lexeme's spelling followed by a text before which the lexeme may
stand.
-/

namespace Calculator

/-- The text is blank. -/
def Blank (text : List Char) : Prop :=
  ∀ character ∈ text, Text.isBlank character = true

/-- The characters that `log` takes along. -/
def extendsLog (character : Char) : Bool :=
  character == '_' || character == '2'

/-- A name and a text after which the name is complete. -/
inductive NameBefore : List Char → List Char → Prop
  /-- A run of lower-case letters that does not go on; after `log` no
  character stands that would belong to the name. -/
  | letters {name rest : List Char} (nonempty : name ≠ [])
      (lower : ∀ c ∈ name, c.isLower = true)
      (maximal : Stops Char.isLower rest)
      (plain : name = ['l', 'o', 'g'] → Stops extendsLog rest) :
      NameBefore name rest
  /-- The letters `log` with the character after them. -/
  | extended {mark : Char} {rest : List Char}
      (extending : extendsLog mark = true) :
      NameBefore ['l', 'o', 'g', mark] rest

namespace Lexeme

/-- The lexeme may stand before the given text. -/
def StandsBefore (rest : List Char) : Lexeme → Prop
  | .numeral written =>
      written.Literal ∧ written.Finite ∧ written.EndsBefore rest
  | .name operation =>
      NameBefore operation.name.toList rest ∧
        (operation.arity = 1 →
          ∃ blanks after, Blank blanks ∧ rest = blanks ++ '(' :: after)
  | .mark _ => True
  | .openBracket => True
  | .closeBracket => True

/-! ## Classes of characters -/

theorem isDigit_iff {character : Char} :
    character.isDigit = true ↔
      48 ≤ character.toNat ∧ character.toNat ≤ 57 := by
  simp [Char.isDigit, UInt32.le_iff_toNat_le, ← Char.toNat_val]

theorem isLower_iff {character : Char} :
    character.isLower = true ↔
      97 ≤ character.toNat ∧ character.toNat ≤ 122 := by
  simp [Char.isLower.eq_def, UInt32.le_iff_toNat_le, ← Char.toNat_val]

/-- Between the space and the last ASCII character nothing is blank. -/
theorem not_isBlank_of_toNat {character : Char}
    (above : 32 < character.toNat) (below : character.toNat < 127) :
    Text.isBlank character = false := by
  rw [Bool.eq_false_iff]
  intro blank
  obtain ⟨run, member, low, high⟩ := Text.isBlank_iff.mp blank
  simp only [Text.blankRuns, List.mem_cons, List.not_mem_nil, or_false]
    at member
  rcases member with rfl | rfl | rfl | rfl | rfl | rfl | rfl | rfl | rfl |
    rfl <;>
    simp only at low high <;> omega

theorem not_isBlank_of_startsWith {character : Char}
    (starts : Numeral.startsWith character = true) :
    Text.isBlank character = false := by
  simp only [Numeral.startsWith, Bool.or_eq_true, beq_iff_eq] at starts
  rcases starts with digit | rfl
  · have bounds := isDigit_iff.mp digit
    exact not_isBlank_of_toNat (by omega) (by omega)
  · rfl

theorem not_isBlank_of_isLower {character : Char}
    (lower : character.isLower = true) :
    Text.isBlank character = false := by
  have bounds := isLower_iff.mp lower
  exact not_isBlank_of_toNat (by omega) (by omega)

theorem not_startsWith_of_isLower {character : Char}
    (lower : character.isLower = true) :
    Numeral.startsWith character = false := by
  have bounds := isLower_iff.mp lower
  rw [Bool.eq_false_iff]
  intro starts
  simp only [Numeral.startsWith, Bool.or_eq_true, beq_iff_eq] at starts
  rcases starts with digit | rfl
  · have others := isDigit_iff.mp digit
    omega
  · simp at lower

/-! ## Names -/

theorem nameBefore_scanName {first : Char} (text : List Char)
    (lower : first.isLower = true) :
    NameBefore (scanName (first :: text)).1
      (scanName (first :: text)).2 := by
  have nonempty : (first :: text).takeWhile Char.isLower ≠ [] := by
    simp [lower]
  have stops := stops_dropWhile Char.isLower (first :: text)
  have inside : ∀ c ∈ (first :: text).takeWhile Char.isLower,
      c.isLower = true :=
    fun c member => List.mem_takeWhile_imp member
  cases restEq : (first :: text).dropWhile Char.isLower with
  | nil =>
      simp only [scanName, restEq]
      exact .letters nonempty inside (stops_nil _) fun _ => stops_nil _
  | cons next rest =>
      rw [restEq] at stops
      simp only [scanName, restEq]
      split
      · next isLog =>
          rw [isLog.1]
          exact .extended (by simpa [extendsLog] using isLog.2)
      · next notLog =>
          refine .letters nonempty inside stops ?_
          intro isLog
          have notMark : ¬(next = '_' ∨ next = '2') :=
            fun mark => notLog ⟨isLog, mark⟩
          simpa [extendsLog] using notMark

theorem scanName_append_of_nameBefore {name rest : List Char}
    (complete : NameBefore name rest) :
    scanName (name ++ rest) = (name, rest) := by
  cases complete with
  | letters nonempty lower maximal plain =>
      have taken := takeWhile_append_of_stops lower maximal
      have left := dropWhile_append_of_stops lower maximal
      cases rest with
      | nil => simp only [scanName, taken, left]
      | cons next rest =>
          have notLog :
              ¬(name = ['l', 'o', 'g'] ∧ (next = '_' ∨ next = '2')) := by
            rintro ⟨isLog, mark⟩
            have stops := plain isLog
            rw [stops_cons, Bool.eq_false_iff] at stops
            exact stops (by simpa [extendsLog] using mark)
          simp only [scanName, taken, left, notLog, if_false]
  | @extended mark rest extending =>
      have notLower : mark.isLower = false := by
        simp only [extendsLog, Bool.or_eq_true, beq_iff_eq] at extending
        rcases extending with rfl | rfl <;> rfl
      have taken :
          ('l' :: 'o' :: 'g' :: mark :: rest).takeWhile Char.isLower =
            ['l', 'o', 'g'] := by
        simp [notLower]
      have left :
          ('l' :: 'o' :: 'g' :: mark :: rest).dropWhile Char.isLower =
            mark :: rest := by
        simp [notLower]
      have isMark : mark = '_' ∨ mark = '2' := by
        simpa [extendsLog] using extending
      simp [scanName, taken, left, isMark]

/-- A complete name starts with a lower-case letter. -/
theorem exists_head_of_nameBefore {name rest : List Char}
    (complete : NameBefore name rest) :
    ∃ first, name.head? = some first ∧ first.isLower = true := by
  cases complete with
  | letters nonempty lower maximal plain =>
      obtain ⟨first, others, rfl⟩ := List.exists_cons_of_ne_nil nonempty
      exact ⟨first, rfl, lower first (by simp)⟩
  | extended extending => exact ⟨'l', rfl, rfl⟩

/-! ## Reading a lexeme -/

/-- The bracket of a function may stand after blanks. -/
theorem head?_dropWhile_isBlank_eq_openBracket_iff {text : List Char} :
    (text.dropWhile Text.isBlank).head? = some '(' ↔
      ∃ blanks after, Blank blanks ∧ text = blanks ++ '(' :: after := by
  constructor
  · intro found
    obtain ⟨after, left⟩ := List.head?_eq_some_iff.mp found
    refine ⟨text.takeWhile Text.isBlank, after,
      fun c member => List.mem_takeWhile_imp member, ?_⟩
    rw [← left, List.takeWhile_append_dropWhile]
  · rintro ⟨blanks, after, blank, rfl⟩
    rw [dropWhile_append_of_stops blank (by simp; rfl)]
    rfl

/-- Where a numeral can begin, what is scanned is also read: the range of its
number alone decides. -/
theorem readNumeral_eq (index : Nat) {first : Char} {text : List Char}
    (starts : Numeral.startsWith first = true) :
    readNumeral index (first :: text) =
      match Numeral.scan (first :: text) with
      | .error fault => .error (.malformedNumeral index fault.reason)
      | .ok (written, rest) =>
          if written.inRange then
            .ok (.numeral written, rest)
          else
            .error
              (.numeralOutOfRange (String.ofList written.spelling)) := by
  rw [readNumeral]
  cases scanned : Numeral.scan (first :: text) with
  | error fault => rfl
  | ok result =>
      obtain ⟨written, rest⟩ := result
      have literal := (Numeral.literal_of_scan starts scanned).1
      dsimp only
      rw [Numeral.read?_spelling literal]

theorem standsBefore_of_readNumeral {index : Nat} {first : Char}
    {text rest : List Char} {lexeme : Lexeme}
    (starts : Numeral.startsWith first = true)
    (isRead : readNumeral index (first :: text) = .ok (lexeme, rest)) :
    lexeme.StandsBefore rest := by
  rw [readNumeral_eq index starts] at isRead
  split at isRead
  · cases isRead
  · next written remaining scanned =>
      split at isRead
      · next inRange =>
          cases isRead
          obtain ⟨literal, ends⟩ := Numeral.literal_of_scan starts scanned
          exact
            ⟨literal, (Numeral.inRange_iff_finite _).mp inRange, ends⟩
      · cases isRead

theorem standsBefore_of_readName {index : Nat} {first : Char}
    {text rest : List Char} {lexeme : Lexeme}
    (lower : first.isLower = true)
    (isRead : readName index (first :: text) = .ok (lexeme, rest)) :
    lexeme.StandsBefore rest := by
  have complete := nameBefore_scanName text lower
  obtain ⟨operation, rfl, named, rfl⟩ := eq_name_of_readName isRead
  rw [← named] at complete
  refine ⟨complete, fun single => ?_⟩
  unfold readName at isRead
  dsimp only at isRead
  split at isRead
  · cases isRead
  · split at isRead
    · next bracket =>
        exact head?_dropWhile_isBlank_eq_openBracket_iff.mp bracket
    · cases isRead
  · next notUnary _ =>
      cases isRead
      rcases operation with value | operation | operation
      · cases single
      · exact absurd rfl (notUnary operation)
      · cases single

/-- A lexeme that is read may stand before the text that it leaves. -/
theorem standsBefore_of_read {index : Nat} {first : Char}
    {text rest : List Char} {lexeme : Lexeme}
    (isRead : read index first text = .ok (lexeme, rest)) :
    lexeme.StandsBefore rest := by
  unfold read at isRead
  split at isRead
  · next starts => exact standsBefore_of_readNumeral starts isRead
  · split at isRead
    · next lower => exact standsBefore_of_readName lower isRead
    · split at isRead
      · cases isRead
        trivial
      · split at isRead
        · cases isRead
          trivial
        · split at isRead
          · cases isRead
            trivial
          · cases isRead

/-- A lexeme before which a text may stand is not read as anything else. -/
theorem read_of_standsBefore (index : Nat) {first : Char}
    {text rest : List Char} {lexeme : Lexeme}
    (spelled : lexeme.spelling ++ rest = first :: text)
    (stands : lexeme.StandsBefore rest) :
    read index first text = .ok (lexeme, rest) := by
  cases lexeme with
  | numeral written =>
      obtain ⟨literal, finite, ends⟩ := stands
      obtain ⟨head, found, starts⟩ := literal.exists_head
      obtain ⟨others, shape⟩ := List.head?_eq_some_iff.mp found
      rw [spelling, shape, List.cons_append] at spelled
      obtain ⟨rfl, rfl⟩ := List.cons.inj spelled
      have scanned := Numeral.scan_spelling_append literal ends
      rw [shape, List.cons_append] at scanned
      rw [read, if_pos starts, readNumeral_eq index starts, scanned]
      exact if_pos ((Numeral.inRange_iff_finite _).mpr finite)
  | name operation =>
      obtain ⟨complete, bracket⟩ := stands
      obtain ⟨head, found, lower⟩ :=
        exists_head_of_nameBefore complete
      obtain ⟨others, shape⟩ := List.head?_eq_some_iff.mp found
      have scanned := scanName_append_of_nameBefore complete
      rw [spelling] at spelled
      rw [spelled] at scanned
      rw [shape, List.cons_append] at spelled
      obtain ⟨rfl, rfl⟩ := List.cons.inj spelled
      have notNumeral := not_startsWith_of_isLower lower
      rw [read, if_neg (by simp [notNumeral]), if_pos lower, readName,
        scanned]
      dsimp only
      rw [String.ofList_toList, Operation.lookup_name]
      rcases operation with value | operation | operation
      · rfl
      · have found :=
          head?_dropWhile_isBlank_eq_openBracket_iff.mpr (bracket rfl)
        exact if_pos found
      · rfl
  | mark sign =>
      obtain ⟨rfl, rfl⟩ := List.cons.inj spelled
      cases sign <;> rfl
  | openBracket =>
      obtain ⟨rfl, rfl⟩ := List.cons.inj spelled
      rfl
  | closeBracket =>
      obtain ⟨rfl, rfl⟩ := List.cons.inj spelled
      rfl

/-- Reading finds a lexeme exactly where it is spelled before a text before
which it may stand. -/
theorem read_eq_ok_iff {index : Nat} {first : Char}
    {text rest : List Char} {lexeme : Lexeme} :
    read index first text = .ok (lexeme, rest) ↔
      lexeme.spelling ++ rest = first :: text ∧
        lexeme.StandsBefore rest := by
  constructor
  · intro isRead
    exact ⟨spelling_append_of_read isRead, standsBefore_of_read isRead⟩
  · rintro ⟨spelled, stands⟩
    exact read_of_standsBefore index spelled stands

/-- No lexeme starts with a blank. -/
theorem exists_head_of_standsBefore {lexeme : Lexeme} {rest : List Char}
    (stands : lexeme.StandsBefore rest) :
    ∃ first others,
      lexeme.spelling = first :: others ∧ Text.isBlank first = false := by
  cases lexeme with
  | numeral written =>
      obtain ⟨first, found, starts⟩ := stands.1.exists_head
      obtain ⟨others, shape⟩ := List.head?_eq_some_iff.mp found
      exact ⟨first, others, shape, not_isBlank_of_startsWith starts⟩
  | name operation =>
      obtain ⟨first, found, lower⟩ :=
        exists_head_of_nameBefore stands.1
      obtain ⟨others, shape⟩ := List.head?_eq_some_iff.mp found
      exact ⟨first, others, shape, not_isBlank_of_isLower lower⟩
  | mark sign =>
      refine ⟨sign.toChar, [], rfl, ?_⟩
      cases sign <;> rfl
  | openBracket => exact ⟨'(', [], rfl, rfl⟩
  | closeBracket => exact ⟨')', [], rfl, rfl⟩

end Lexeme

end Calculator
