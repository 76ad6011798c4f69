import Calculator.Proofs.Lexing.Cut

/-!
# Lexemes that can stand together

Where numerals and names of constants are followed by marks or brackets only,
and every function of one argument by its bracket, the lexemes of a row can
stand together with any blanks between them, or with none.
-/

namespace Calculator

/-- The characters with which a numeral or a name could go on. -/
def goesOn (character : Char) : Bool :=
  Numeral.startsWith character || character.isLower || character == '_'

/-- A mark or a bracket. -/
def Lexeme.isSign : Lexeme → Bool
  | .numeral _ | .name _ => false
  | .mark _ | .openBracket | .closeBracket => true

/-- The lexeme can be followed at once by the given one.  Numerals and names
of constants are followed by a sign. -/
def Lexeme.Joins (next : Option Lexeme) : Lexeme → Prop
  | .numeral written =>
      written.Literal ∧ written.Finite ∧ ∀ other ∈ next, other.isSign = true
  | .name (.constant _) => ∀ other ∈ next, other.isSign = true
  | .name (.unary function) =>
      function.name ∈ Operation.functionNames ∧ next = some .openBracket
  | .name (.binary operation) => operation = .logarithm
  | .mark _ => True
  | .openBracket => True
  | .closeBracket => True

/-- Every lexeme can be followed by the next one. -/
def Joined : List Lexeme → Prop
  | [] => True
  | lexeme :: rest => lexeme.Joins rest.head? ∧ Joined rest

theorem Stops.mono {class_ wider : Char → Bool} {text : List Char}
    (stops : Stops wider text)
    (included : ∀ c, class_ c = true → wider c = true) :
    Stops class_ text := by
  intro character first
  have outside := stops character first
  rw [Bool.eq_false_iff] at outside ⊢
  exact fun inside => outside (included character inside)

theorem goesOn_of_isDigit {character : Char}
    (digit : character.isDigit = true) : goesOn character = true := by
  simp [goesOn, Numeral.startsWith, digit]

theorem goesOn_of_eq_point {character : Char}
    (point : (character == '.') = true) : goesOn character = true := by
  simp [goesOn, Numeral.startsWith, point]

theorem goesOn_of_isLower {character : Char}
    (lower : character.isLower = true) : goesOn character = true := by
  simp [goesOn, lower]

theorem goesOn_of_eq_letter {character : Char}
    (letter : (character == 'e') = true) : goesOn character = true := by
  rw [beq_iff_eq] at letter
  subst letter
  rfl

theorem goesOn_of_extendsLog {character : Char}
    (extending : extendsLog character = true) :
    goesOn character = true := by
  simp only [extendsLog, Bool.or_eq_true, beq_iff_eq] at extending
  rcases extending with rfl | rfl
  · rfl
  · rfl

theorem not_goesOn_of_isBlank {character : Char}
    (blank : Text.isBlank character = true) :
    goesOn character = false := by
  rw [Bool.eq_false_iff]
  intro goes
  simp only [goesOn, Bool.or_eq_true, beq_iff_eq] at goes
  rcases goes with (starts | lower) | rfl
  · rw [Lexeme.not_isBlank_of_startsWith starts] at blank
    cases blank
  · rw [Lexeme.not_isBlank_of_isLower lower] at blank
    cases blank
  · cases blank

/-- A numeral ends where nothing goes on. -/
theorem Numeral.EndsBefore.of_stops {numeral : Numeral} {rest : List Char}
    (stops : Stops goesOn rest) : numeral.EndsBefore rest where
  digit := stops.mono fun _ => goesOn_of_isDigit
  point _ := stops.mono fun _ => goesOn_of_eq_point
  letter _ := stops.mono fun _ => goesOn_of_eq_letter

theorem stops_goesOn_spelling {lexeme : Lexeme}
    (sign : lexeme.isSign = true) (rest : List Char) :
    Stops goesOn (lexeme.spelling ++ rest) := by
  cases lexeme with
  | numeral written => cases sign
  | name operation => cases sign
  | mark mark => cases mark <;> exact stops_cons.mpr rfl
  | openBracket => exact stops_cons.mpr rfl
  | closeBracket => exact stops_cons.mpr rfl

/-- Before a sign or the end, no numeral and no name goes on. -/
theorem Cut.Spaced.stops_goesOn {cut : Cut} (spaced : cut.Spaced)
    (sign : ∀ other ∈ cut.lexemes.head?, other.isSign = true) :
    Stops goesOn cut.text := by
  have afterGap : ∀ {gap rest : List Char}, Blank gap →
      Stops goesOn rest → Stops goesOn (gap ++ rest) := by
    intro gap rest blank stops
    cases gap with
    | nil => exact stops
    | cons first others =>
        exact stops_cons.mpr (not_goesOn_of_isBlank (blank first (by simp)))
  obtain ⟨pieces, trailing⟩ := cut
  cases pieces with
  | nil =>
      have stops := afterGap spaced.trailing (stops_nil goesOn)
      rwa [List.append_nil] at stops
  | cons piece pieces =>
      rw [Cut.text_cons]
      exact afterGap (spaced.gaps piece (by simp))
        (stops_goesOn_spelling (sign piece.lexeme rfl) _)

theorem NameBefore.of_stops {name rest : List Char}
    (nonempty : name ≠ []) (lower : name.all Char.isLower = true)
    (stops : Stops goesOn rest) :
    NameBefore name rest :=
  .letters nonempty (List.all_eq_true.mp lower)
    (stops.mono fun _ => goesOn_of_isLower)
    fun _ => stops.mono fun _ => goesOn_of_extendsLog

theorem nameBefore_constant (named : Constant) {rest : List Char}
    (stops : Stops goesOn rest) :
    NameBefore named.name.toList rest := by
  cases named with
  | e => exact .of_stops (by decide) (by decide) stops
  | pi => exact .of_stops (by decide) (by decide) stops
  | phi => exact .of_stops (by decide) (by decide) stops

theorem nameBefore_function {function : UnaryOperation}
    (listed : function.name ∈ Operation.functionNames)
    {rest : List Char} (stops : Stops goesOn rest) :
    NameBefore function.name.toList rest := by
  cases function with
  | log2 => exact .extended rfl
  | factorial => exact absurd listed (by decide)
  | _ => exact .of_stops (by decide) (by decide) stops

/-- A lexeme that joins the next one may stand before the text that begins
with it. -/
theorem Lexeme.Joins.standsBefore {lexeme : Lexeme} {cut : Cut}
    (joins : lexeme.Joins cut.lexemes.head?) (spaced : cut.Spaced) :
    lexeme.StandsBefore cut.text := by
  cases lexeme with
  | numeral written =>
      obtain ⟨literal, finite, sign⟩ := joins
      exact ⟨literal, finite, .of_stops (spaced.stops_goesOn sign)⟩
  | name operation =>
      cases operation with
      | constant named =>
          refine ⟨nameBefore_constant named (spaced.stops_goesOn joins), ?_⟩
          intro single
          cases single
      | unary function =>
          obtain ⟨listed, opens⟩ := joins
          have sign : ∀ other ∈ cut.lexemes.head?,
              other.isSign = true := by
            intro other first
            rw [opens] at first
            obtain rfl := Option.some.inj first
            rfl
          refine ⟨nameBefore_function listed (spaced.stops_goesOn sign), ?_⟩
          intro single
          obtain ⟨pieces, trailing⟩ := cut
          cases pieces with
          | nil => cases opens
          | cons piece pieces =>
              have bracket : piece.lexeme = .openBracket :=
                Option.some.inj opens
              refine ⟨piece.gap, Cut.text ⟨pieces, trailing⟩,
                spaced.gaps piece (by simp), ?_⟩
              rw [Cut.text_cons, bracket]
              rfl
      | binary operation =>
          obtain rfl : operation = .logarithm := joins
          refine ⟨.extended rfl, ?_⟩
          intro single
          cases single
  | mark sign => trivial
  | openBracket => trivial
  | closeBracket => trivial

/-- A spaced cut into joined lexemes is lexical. -/
theorem Joined.lexical {cut : Cut} (joined : Joined cut.lexemes)
    (spaced : cut.Spaced) :
    cut.Lexical := by
  obtain ⟨pieces, trailing⟩ := cut
  induction pieces with
  | nil => exact Cut.lexical_nil_iff.mpr spaced.trailing
  | cons piece pieces ih =>
      have joins : piece.lexeme.Joins
          (Cut.lexemes ⟨pieces, trailing⟩).head? := joined.1
      have rest : Cut.Spaced ⟨pieces, trailing⟩ := by
        refine ⟨?_, spaced.trailing⟩
        intro other member
        exact spaced.gaps other (List.mem_cons_of_mem _ member)
      exact Cut.lexical_cons_iff.mpr
        ⟨spaced.gaps piece (by simp), joins.standsBefore rest,
          ih joined.2 rest⟩

end Calculator
