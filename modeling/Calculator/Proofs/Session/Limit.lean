import Calculator.Proofs.Lexing.Lexeme
import Calculator.Proofs.Session.Log
import Mathlib.Data.List.Basic
import Mathlib.Data.List.Induction
import Mathlib.Data.Nat.Digits.Defs
import Mathlib.Tactic.NormNum

/-!
# The limit of a history, as it is set

A limit is set by a text: decimal digits, with a plus sign or without one, and
with any blanks around them.  The text is read for the number that the digits
stand for, however many of them are zeros in front, and the number counts as a
limit from one up to the largest number of 64 bits.  No other text sets a
limit, and the prompt has no part in it.

A session that starts with such a setting refuses a value exactly when its
history holds as many entries as the text says.
-/

namespace Calculator

namespace Text

/-! ## Trimmed texts -/

/-- Trimming takes blanks away, and nothing else. -/
theorem exists_blanks_around_trim (text : List Char) :
    ∃ before after,
      Blank before ∧ Blank after ∧ text = before ++ (trim text ++ after) := by
  have front := List.takeWhile_append_dropWhile
    (p := isBlank) (l := text)
  have back := List.takeWhile_append_dropWhile
    (p := isBlank) (l := (text.dropWhile isBlank).reverse)
  refine ⟨text.takeWhile isBlank,
    ((text.dropWhile isBlank).reverse.takeWhile isBlank).reverse, ?_, ?_, ?_⟩
  · intro character member
    exact List.mem_takeWhile_imp member
  · intro character member
    exact List.mem_takeWhile_imp (List.mem_reverse.mp member)
  · rw [trim, ← List.reverse_append, back, List.reverse_reverse, front]

/-- What stands between blanks, and neither starts nor ends with one, is the
trimmed text. -/
theorem trim_between {before core after : List Char}
    (blankBefore : Blank before) (blankAfter : Blank after)
    (starts : Stops isBlank core) (ends : Stops isBlank core.reverse)
    (something : core ≠ []) :
    trim (before ++ (core ++ after)) = core := by
  have startsAfter : Stops isBlank (core ++ after) := by
    obtain ⟨first, others, rfl⟩ := List.exists_cons_of_ne_nil something
    exact starts
  have blankReverse : ∀ c ∈ after.reverse, isBlank c = true := by
    intro character member
    exact blankAfter character (List.mem_reverse.mp member)
  rw [trim, dropWhile_append_of_stops blankBefore startsAfter,
    List.reverse_append, dropWhile_append_of_stops blankReverse ends,
    List.reverse_reverse]

end Text

/-! ## Digits -/

/-- The number that a row of digits stands for: the last digit counts the
ones, the one before it the tens, and so on. -/
def positionalValue (digits : List Char) : Nat :=
  Nat.ofDigits 10 (digits.map fun digit => digit.toNat - '0'.toNat).reverse

theorem positionalValue_append_singleton (digits : List Char)
    (digit : Char) :
    positionalValue (digits ++ [digit]) =
      (digit.toNat - '0'.toNat) + 10 * positionalValue digits := by
  simp [positionalValue, Nat.ofDigits_cons]

/-- Digits are read by their positions. -/
theorem ofDigits_eq_positionalValue (digits : List Char) :
    Decimal.ofDigits digits = positionalValue digits := by
  induction digits using List.reverseRecOn with
  | nil => rfl
  | append_singleton digits digit ih =>
      rw [positionalValue_append_singleton, ← ih, Decimal.ofDigits,
        Nat.ofDigitChars_append]
      simp [Nat.ofDigitChars, Decimal.ofDigits]
      omega

theorem not_isBlank_of_isDigit {character : Char}
    (digit : character.isDigit = true) :
    Text.isBlank character = false :=
  Lexeme.not_isBlank_of_startsWith (by simp [Numeral.startsWith, digit])

namespace Settings

/-- The text spells the number: blanks, an optional plus sign, at least one
digit, and blanks. -/
inductive SpellsCount (number : Nat) : List Char → Prop
  | between {before sign digits after : List Char}
      (blankBefore : Blank before) (blankAfter : Blank after)
      (signed : sign = [] ∨ sign = ['+']) (something : digits ≠ [])
      (inside : ∀ c ∈ digits, c.isDigit = true)
      (value : positionalValue digits = number) :
      SpellsCount number (before ++ (sign ++ digits ++ after))

/-- The text sets the limit: it spells the number, which is at least one and
fits into 64 bits. -/
structure SetsLimit (text : String) (limit : Nat) : Prop where
  spelled : SpellsCount limit text.toList
  positive : 1 ≤ limit
  fits : limit ≤ 2 ^ 64 - 1

/-! ## Reading a limit -/

/-- Without a plus sign at the head the text is itself; otherwise the sign
stands before the rest. -/
theorem exists_sign_append_withoutPlus (text : List Char) :
    ∃ sign, (sign = [] ∨ sign = ['+']) ∧ sign ++ withoutPlus text = text := by
  unfold withoutPlus
  split
  · exact ⟨['+'], .inr rfl, rfl⟩
  · exact ⟨[], .inl rfl, rfl⟩

theorem withoutPlus_append {sign digits : List Char}
    (signed : sign = [] ∨ sign = ['+'])
    (inside : ∀ c ∈ digits, c.isDigit = true) :
    withoutPlus (sign ++ digits) = digits := by
  rcases signed with rfl | rfl
  · unfold withoutPlus
    split
    · next text plus =>
        have head : digits = '+' :: text := plus
        have digit := inside '+' (head ▸ List.mem_cons_self)
        cases digit
    · rfl
  · rfl

/-- A sign and digits are what remains of them between blanks. -/
theorem trim_signed {before sign digits after : List Char}
    (blankBefore : Blank before) (blankAfter : Blank after)
    (signed : sign = [] ∨ sign = ['+']) (something : digits ≠ [])
    (inside : ∀ c ∈ digits, c.isDigit = true) :
    Text.trim (before ++ (sign ++ digits ++ after)) = sign ++ digits := by
  have starts : Stops Text.isBlank (sign ++ digits) := by
    rcases signed with rfl | rfl
    · obtain ⟨first, others, rfl⟩ := List.exists_cons_of_ne_nil something
      exact stops_cons.mpr (not_isBlank_of_isDigit (inside first (by simp)))
    · exact stops_cons.mpr rfl
  have ends : Stops Text.isBlank (sign ++ digits).reverse := by
    obtain ⟨others, last, rfl⟩ :=
      (List.eq_nil_or_concat' digits).resolve_left something
    rw [← List.append_assoc, List.reverse_concat, stops_cons]
    exact not_isBlank_of_isDigit (inside last (by simp))
  exact Text.trim_between blankBefore blankAfter starts ends
    (by simp [something])

/-- What is trimmed and freed from its sign tells whether a number is
spelled. -/
theorem spellsCount_iff {text : List Char} {number : Nat} :
    SpellsCount number text ↔
      withoutPlus (Text.trim text) ≠ [] ∧
        (∀ c ∈ withoutPlus (Text.trim text), c.isDigit = true) ∧
          Decimal.ofDigits (withoutPlus (Text.trim text)) = number := by
  constructor
  · rintro ⟨blankBefore, blankAfter, signed, something, inside, value⟩
    rw [trim_signed blankBefore blankAfter signed something inside,
      withoutPlus_append signed inside, ofDigits_eq_positionalValue]
    exact ⟨something, inside, value⟩
  · rintro ⟨something, inside, value⟩
    obtain ⟨before, after, blankBefore, blankAfter, whole⟩ :=
      Text.exists_blanks_around_trim text
    obtain ⟨sign, signed, core⟩ :=
      exists_sign_append_withoutPlus (Text.trim text)
    rw [ofDigits_eq_positionalValue] at value
    have spelled := SpellsCount.between blankBefore blankAfter signed
      something inside value
    rwa [core, ← whole] at spelled

/-- A limit is read exactly where the text sets it. -/
theorem limitOf?_eq_some_iff {text : String} {limit : Nat} :
    limitOf? text = some limit ↔ SetsLimit text limit := by
  have size : 2 ^ 64 - 1 + 1 = 2 ^ 64 := by norm_num
  simp only [limitOf?, List.all_eq_true]
  constructor
  · intro read
    split at read
    · next accepted =>
        obtain ⟨something, inside, positive, fits⟩ := accepted
        obtain rfl := Option.some.inj read
        exact ⟨spellsCount_iff.mpr ⟨something, inside, rfl⟩, positive,
          Nat.le_sub_one_of_lt fits⟩
    · cases read
  · rintro ⟨spelled, positive, fits⟩
    obtain ⟨something, inside, rfl⟩ := spellsCount_iff.mp spelled
    exact if_pos ⟨something, inside, positive, by omega⟩

example : limitOf? "18446744073709551616" = none := by decide

end Settings

/-! ## Keeping a limit -/

namespace Session

/-- The session keeps to the limit: it refuses the values that find as many
entries as the limit says, and no others. -/
structure RefusesBeyond (library : Elementary) (limit : Nat)
    (session : Session) : Prop where
  bounded : session.history.size ≤ limit
  /-- A text without a value is answered by its error. -/
  failed : ∀ text failure, calculate library text = .error failure →
    (session.obey library (.evaluate text)).1 = .outcome (.error failure)
  refused : ∀ text value, calculate library text = .ok value →
    ((session.obey library (.evaluate text)).1 =
        .outcome (.error (.historyFull limit)) ↔
      session.history.size = limit)
  accepted : ∀ text value, calculate library text = .ok value →
    ((session.obey library (.evaluate text)).1 = .outcome (.ok value) ↔
      session.history.size < limit)

/-- A session that keeps a log under a limit keeps to the limit. -/
theorem refusesBeyond_of_log {library : Elementary} {limit : Nat}
    {events : List Event} {session : Session}
    (log : LogOf library (some limit) events session) :
    session.RefusesBeyond library limit := by
  have bounded := log.bounded limit rfl
  have answers := session.answersByLog library
  have full : session.history.size = limit → ∀ text value,
      calculate library text = .ok value →
        (session.obey library (.evaluate text)).1 =
          .outcome (.error (.historyFull limit)) := by
    intro reached text value calculated
    exact answers.refused text value limit calculated log.sameLimit
      (Nat.le_of_eq reached.symm)
  have room : session.history.size < limit → ∀ text value,
      calculate library text = .ok value →
        (session.obey library (.evaluate text)).1 = .outcome (.ok value) := by
    intro below text value calculated
    apply answers.accepted text value calculated
    rintro ⟨other, limited, reached⟩
    obtain rfl := Option.some.inj (log.sameLimit.symm.trans limited)
    omega
  refine ⟨bounded, answers.failed, ?_, ?_⟩
  · intro text value calculated
    constructor
    · intro refused
      by_contra notFull
      have accepted := room (by omega) text value calculated
      rw [refused] at accepted
      cases accepted
    · intro reached
      exact full reached text value calculated
  · intro text value calculated
    constructor
    · intro accepted
      by_contra notBelow
      have refused := full (by omega) text value calculated
      rw [accepted] at refused
      cases refused
    · intro below
      exact room below text value calculated

end Session

/-- The limit of the history is read exactly: there is one just where the text
of the environment sets it, whatever the prompt is, and the prompt is the text
of the environment unless there is none in it, whatever the limit is.  A
session with such a limit, after any commands, refuses the values beyond it
and no others. -/
theorem Settings.ofEnvironment_exact (limit prompt : Option String) :
    (∀ most, (ofEnvironment limit prompt).historyLimit = some most ↔
      ∃ text, limit = some text ∧ SetsLimit text most) ∧
    ((ofEnvironment limit prompt).historyLimit = none ↔
      ∀ text most, limit = some text → ¬ SetsLimit text most) ∧
    (∀ text, prompt = some text → text ≠ "" →
      (ofEnvironment limit prompt).prompt = text) ∧
    (prompt = none ∨ prompt = some "" →
      (ofEnvironment limit prompt).prompt = "Insert expression: ") ∧
    (∀ other, (ofEnvironment limit other).historyLimit =
      (ofEnvironment limit prompt).historyLimit) ∧
    (∀ other, (ofEnvironment other prompt).prompt =
      (ofEnvironment limit prompt).prompt) ∧
    ∀ text most, limit = some text → SetsLimit text most →
      ∀ library commands, Session.RefusesBeyond library most
        ((Session.start (ofEnvironment limit prompt)).after library
          commands) := by
  have read : ∀ most, (ofEnvironment limit prompt).historyLimit = some most ↔
      ∃ text, limit = some text ∧ SetsLimit text most := by
    intro most
    simp only [historyLimit_ofEnvironment, Option.bind_eq_some_iff,
      limitOf?_eq_some_iff]
  refine ⟨read, ?_, ?_, ?_, fun _ => rfl, fun _ => rfl, ?_⟩
  · rw [Option.eq_none_iff_forall_ne_some]
    constructor
    · intro absent text most given sets
      exact absent most ((read most).mpr ⟨text, given, sets⟩)
    · intro absent most found
      obtain ⟨text, given, sets⟩ := (read most).mp found
      exact absent text most given sets
  · rintro text rfl something
    simp [ofEnvironment, Option.filter, something]
  · rintro (rfl | rfl) <;> rfl
  · intro text most given sets library commands
    have log := (LogOf.start library (ofEnvironment limit prompt)).after
      commands
    rw [(read most).mpr ⟨text, given, sets⟩] at log
    exact Session.refusesBeyond_of_log log

/-- Zeros in front, a plus sign and blanks around it do not change the
limit. -/
theorem Settings.ofEnvironment_exact_padded :
    SetsLimit "\t+007 " 7 ∧
      (ofEnvironment (some "\t+007 ") none).historyLimit = some 7 := by
  have sets : SetsLimit "\t+007 " 7 :=
    limitOf?_eq_some_iff.mp (by decide)
  obtain ⟨read, -⟩ := ofEnvironment_exact (some "\t+007 ") none
  exact ⟨sets, (read 7).mpr ⟨_, rfl, sets⟩⟩

end Calculator
