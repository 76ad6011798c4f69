/-!
# Blank characters

A character is *blank* when it has the Unicode property White_Space.  The
property has twenty-five members, in ten runs of consecutive code points.

Blanks separate the lexemes of an expression, and they are trimmed from both
ends of a setting and of a line of input.
-/

namespace Calculator.Text

/-- The first and the last code point of each run of white space. -/
def blankRuns : List (Nat × Nat) :=
  [(0x9, 0xD), (0x20, 0x20), (0x85, 0x85), (0xA0, 0xA0),
    (0x1680, 0x1680), (0x2000, 0x200A), (0x2028, 0x2029),
    (0x202F, 0x202F), (0x205F, 0x205F), (0x3000, 0x3000)]

/-- Whether a character has the Unicode property White_Space. -/
def isBlank (character : Char) : Bool :=
  blankRuns.any fun run =>
    run.1 ≤ character.toNat && character.toNat ≤ run.2

theorem isBlank_iff {character : Char} :
    isBlank character = true ↔
      ∃ run ∈ blankRuns,
        run.1 ≤ character.toNat ∧ character.toNat ≤ run.2 := by
  simp [isBlank]

/-- The white space of the core library is blank. -/
theorem isBlank_of_isWhitespace {character : Char}
    (whitespace : character.isWhitespace = true) :
    isBlank character = true := by
  simp only [Char.isWhitespace, Bool.or_eq_true, decide_eq_true_eq]
    at whitespace
  rcases whitespace with ((rfl | rfl) | rfl) | rfl <;> decide

/-- A text without the blanks at its two ends. -/
def trim (text : List Char) : List Char :=
  ((text.dropWhile isBlank).reverse.dropWhile isBlank).reverse

@[simp]
theorem trim_nil : trim [] = [] := rfl

/-- A leading blank does not matter to the trimmed text. -/
@[simp]
theorem trim_cons_of_isBlank {character : Char} (text : List Char)
    (blank : isBlank character = true) :
    trim (character :: text) = trim text := by
  simp [trim, blank]

end Calculator.Text
