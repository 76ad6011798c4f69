import Calculator.Text.Blank

/-!
# Lines of input

A line ends with a line feed, which does not belong to it; characters after
the last line feed form a line of their own.  A carriage return before the
line feed is blank, so trimming a line removes it: `\r\n` and `\n` end a line
alike.
-/

namespace Calculator.Text

/-- The lines of a text, without their line feeds. -/
def lines : List Char → List (List Char)
  | [] => []
  | character :: text =>
      if character = '\n' then
        [] :: lines text
      else
        match lines text with
        | [] => [[character]]
        | line :: others => (character :: line) :: others

@[simp]
theorem lines_nil : lines [] = [] := rfl

@[simp]
theorem lines_lineFeed_cons (text : List Char) :
    lines ('\n' :: text) = [] :: lines text := rfl

/-- A text that ends with a line feed does not run into what follows it. -/
theorem lines_append (first second : List Char) :
    lines (first ++ '\n' :: second) =
      lines (first ++ ['\n']) ++ lines second := by
  induction first with
  | nil => rfl
  | cons character text ih =>
      by_cases feed : character = '\n'
      · simp [feed, ih]
      · simp only [List.cons_append, lines, feed, if_false, ih]
        have nonempty : lines (text ++ ['\n']) ≠ [] := by
          cases text with
          | nil => simp [lines]
          | cons next rest =>
              simp only [List.cons_append, lines]
              split
              · simp
              · split <;> simp
        cases found : lines (text ++ ['\n']) with
        | nil => exact absurd found nonempty
        | cons line others => rfl

end Calculator.Text
