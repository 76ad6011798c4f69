import Calculator.Proofs.Session.Conversation
import Mathlib.Logic.Relation

/-!
# The output is causal and does not depend on the layout of lines

What the menu shows for whole lines is the beginning of what it shows for
these lines and more, and all of it after the choice to quit.

A text can be laid out in other ways: its line feeds may follow carriage
returns, blanks may stand at the ends of its lines, and its last line may end
with or without a line feed.  None of this changes its trimmed lines, and the
output depends on nothing else.
-/

namespace Calculator

namespace Text

/-- A text is complete when no line is left open at its end. -/
def Complete (text : List Char) : Prop :=
  text = [] ∨ text.getLast? = some '\n'

instance (text : List Char) : Decidable (Complete text) :=
  inferInstanceAs (Decidable (_ ∨ _))

/-- One step between two layouts of the same lines. -/
inductive Relaid : List Char → List Char → Prop
  /-- A carriage return before a line feed. -/
  | carriageReturn {before after : List Char} :
      Relaid (before ++ '\n' :: after) (before ++ '\r' :: '\n' :: after)
  /-- A blank at the start of a line. -/
  | blankAtStart {before after : List Char} {character : Char}
      (blank : isBlank character = true) (notFeed : character ≠ '\n')
      (startsLine : Complete before) (existing : after ≠ []) :
      Relaid (before ++ after) (before ++ character :: after)
  /-- A blank at the end of a line that has a line feed. -/
  | blankAtFeed {before after : List Char} {character : Char}
      (blank : isBlank character = true) (notFeed : character ≠ '\n') :
      Relaid (before ++ '\n' :: after)
        (before ++ character :: '\n' :: after)
  /-- A blank at the end of a last line that has no line feed. -/
  | blankAtEnd {text : List Char} {character : Char}
      (blank : isBlank character = true) (notFeed : character ≠ '\n')
      (isOpen : ¬ Complete text) :
      Relaid text (text ++ [character])
  /-- A line feed for a last line that has none. -/
  | finalFeed {text : List Char} (isOpen : ¬ Complete text) :
      Relaid text (text ++ ['\n'])

/-! ## Lines of a text in parts -/

theorem Complete.eq_nil_or_append {text : List Char}
    (complete : Complete text) :
    text = [] ∨ ∃ before, text = before ++ ['\n'] := by
  rcases complete with rfl | endsLine
  · exact .inl rfl
  · exact .inr (List.getLast?_eq_some_iff.mp endsLine)

/-- A complete text does not run into what follows it. -/
theorem lines_append_of_complete {before : List Char}
    (complete : Complete before) (after : List Char) :
    lines (before ++ after) = lines before ++ lines after := by
  rcases complete.eq_nil_or_append with rfl | ⟨front, rfl⟩
  · rfl
  · rw [List.append_assoc]
    exact lines_append front after

theorem lines_feed_append {line : List Char} (unfed : '\n' ∉ line)
    (after : List Char) :
    lines (line ++ '\n' :: after) = line :: lines after := by
  induction line with
  | nil => rfl
  | cons character line ih =>
      rw [List.mem_cons, not_or] at unfed
      rw [List.cons_append, lines, if_neg (Ne.symm unfed.1), ih unfed.2]

theorem lines_of_not_mem {line : List Char} (unfed : '\n' ∉ line)
    (something : line ≠ []) : lines line = [line] := by
  induction line with
  | nil => exact absurd rfl something
  | cons character line ih =>
      rw [List.mem_cons, not_or] at unfed
      rw [lines, if_neg (Ne.symm unfed.1)]
      by_cases nothing : line = []
      · rw [nothing, lines_nil]
      · rw [ih unfed.2 nothing]

theorem not_mem_append_singleton {line : List Char}
    (unfed : '\n' ∉ line) {character : Char} (notFeed : character ≠ '\n') :
    '\n' ∉ line ++ [character] := by
  rw [List.mem_append, List.mem_singleton, not_or]
  exact ⟨unfed, notFeed.symm⟩

/-- A text is a complete one, followed by a line that is left open. -/
theorem exists_complete_append (text : List Char) :
    ∃ done line, text = done ++ line ∧ Complete done ∧ '\n' ∉ line := by
  induction text using List.reverseRecOn with
  | nil => exact ⟨[], [], rfl, .inl rfl, List.not_mem_nil⟩
  | append_singleton text character ih =>
      by_cases feed : character = '\n'
      · refine ⟨text ++ [character], [], (List.append_nil _).symm, ?_,
          List.not_mem_nil⟩
        rw [feed]
        exact .inr List.getLast?_concat
      · obtain ⟨done, line, rfl, complete, unfed⟩ := ih
        refine ⟨done, line ++ [character], List.append_assoc .., complete,
          ?_⟩
        exact not_mem_append_singleton unfed feed

theorem exists_complete_append_of_open {text : List Char}
    (isOpen : ¬ Complete text) :
    ∃ done line, text = done ++ line ∧ Complete done ∧ '\n' ∉ line ∧
      line ≠ [] := by
  obtain ⟨done, line, rfl, complete, unfed⟩ :=
    exists_complete_append text
  refine ⟨done, line, rfl, complete, unfed, ?_⟩
  rintro rfl
  rw [List.append_nil] at isOpen
  exact isOpen complete

/-! ## Trimmed lines -/

/-- A blank at the end does not matter to the trimmed text. -/
theorem trim_append_of_isBlank {character : Char} (text : List Char)
    (blank : isBlank character = true) :
    trim (text ++ [character]) = trim text := by
  simp only [trim, List.dropWhile_append]
  split
  · next nothing =>
      rw [List.isEmpty_iff.mp nothing]
      simp [blank]
  · rw [List.reverse_append, List.reverse_singleton, List.singleton_append,
      List.dropWhile_cons_of_pos blank]

theorem trimmedLines_append_of_complete {before : List Char}
    (complete : Complete before) (after : List Char) :
    trimmedLines (before ++ after) =
      trimmedLines before ++ trimmedLines after := by
  rw [trimmedLines, lines_append_of_complete complete, List.map_append]
  rfl

/-- The trimmed lines of a text whose last lines are known to be fed. -/
theorem trimmedLines_append_feed {done line : List Char}
    (complete : Complete done) (unfed : '\n' ∉ line) (after : List Char) :
    trimmedLines (done ++ (line ++ '\n' :: after)) =
      trimmedLines done ++ String.ofList (trim line) :: trimmedLines after := by
  rw [trimmedLines_append_of_complete complete]
  apply congrArg (trimmedLines done ++ ·)
  rw [trimmedLines, lines_feed_append unfed]
  rfl

/-- The trimmed lines of a text whose last line is left open. -/
theorem trimmedLines_append_of_open {done line : List Char}
    (complete : Complete done) (unfed : '\n' ∉ line) (something : line ≠ []) :
    trimmedLines (done ++ line) =
      trimmedLines done ++ [String.ofList (trim line)] := by
  rw [trimmedLines_append_of_complete complete]
  apply congrArg (trimmedLines done ++ ·)
  rw [trimmedLines, lines_of_not_mem unfed something]
  rfl

/-- A blank before a text that is not empty. -/
theorem trimmedLines_cons_of_isBlank {character : Char}
    (blank : isBlank character = true) (notFeed : character ≠ '\n')
    {text : List Char} (something : text ≠ []) :
    trimmedLines (character :: text) = trimmedLines text := by
  obtain ⟨next, rest, rfl⟩ := List.exists_cons_of_ne_nil something
  obtain ⟨line, others, found⟩ :
      ∃ line others, lines (next :: rest) = line :: others := by
    rw [lines]
    split
    · exact ⟨_, _, rfl⟩
    · split <;> exact ⟨_, _, rfl⟩
  have widened :
      lines (character :: next :: rest) = (character :: line) :: others := by
    rw [lines, if_neg notFeed, found]
  rw [trimmedLines, trimmedLines, widened, found, List.map_cons,
    List.map_cons, trim_cons_of_isBlank line blank]

/-- A blank before a line feed. -/
theorem trimmedLines_append_blank_feed {character : Char}
    (blank : isBlank character = true) (notFeed : character ≠ '\n')
    (before after : List Char) :
    trimmedLines (before ++ character :: '\n' :: after) =
      trimmedLines (before ++ '\n' :: after) := by
  obtain ⟨done, line, rfl, complete, unfed⟩ :=
    exists_complete_append before
  have widened := not_mem_append_singleton unfed notFeed
  have wide := trimmedLines_append_feed complete widened after
  rw [List.append_assoc, List.singleton_append,
    trim_append_of_isBlank line blank] at wide
  rw [List.append_assoc, List.append_assoc, wide,
    trimmedLines_append_feed complete unfed]

/-- A step between two layouts keeps the trimmed lines. -/
theorem Relaid.trimmedLines_eq {first second : List Char}
    (relaid : Relaid first second) :
    trimmedLines first = trimmedLines second := by
  cases relaid with
  | carriageReturn =>
      exact (trimmedLines_append_blank_feed (by decide) (by decide) _ _).symm
  | blankAtStart blank notFeed startsLine existing =>
      rw [trimmedLines_append_of_complete startsLine,
        trimmedLines_append_of_complete startsLine,
        trimmedLines_cons_of_isBlank blank notFeed existing]
  | blankAtFeed blank notFeed =>
      exact (trimmedLines_append_blank_feed blank notFeed _ _).symm
  | blankAtEnd blank notFeed isOpen =>
      obtain ⟨done, line, rfl, complete, unfed, something⟩ :=
        exists_complete_append_of_open isOpen
      have widened := not_mem_append_singleton unfed notFeed
      rw [List.append_assoc,
        trimmedLines_append_of_open complete widened
          (List.concat_ne_nil _ _),
        trimmedLines_append_of_open complete unfed something,
        trim_append_of_isBlank line blank]
  | finalFeed isOpen =>
      obtain ⟨done, line, rfl, complete, unfed, something⟩ :=
        exists_complete_append_of_open isOpen
      rw [List.append_assoc, trimmedLines_append_feed complete unfed,
        trimmedLines_append_of_open complete unfed something]
      rfl

/-- Layouts of the same lines have the same trimmed lines. -/
theorem trimmedLines_eq_of_relaid {first second : List Char}
    (relaid : Relation.EqvGen Relaid first second) :
    trimmedLines first = trimmedLines second := by
  induction relaid with
  | rel _ _ step => exact step.trimmedLines_eq
  | refl _ => rfl
  | symm _ _ _ ih => exact ih.symm
  | trans _ _ _ _ _ firstIh secondIh => exact firstIh.trans secondIh

end Text

/-! ## Requests after the one to quit -/

/-- Nothing that follows the request to quit is asked for. -/
theorem Request.ofLines_append_of_mem {first : List String}
    (quits : Request.quit ∈ Request.ofLines first)
    (second : List String) :
    Request.ofLines (first ++ second) = Request.ofLines first := by
  fun_induction Request.ofLines first
  case case1 | case2 => simp at quits
  case case3 ih | case4 ih | case5 ih | case6 ih | case7 ih =>
    have others := (List.mem_cons.mp quits).resolve_left nofun
    exact congrArg _ (ih others)
  case case8 => rfl
  case case9 choice lines last insert notShow notUndo notClear notList
      notQuit ih =>
    have others := (List.mem_cons.mp quits).resolve_left nofun
    have notInsert : choice ≠ "0" := by
      intro isInsert
      cases lines with
      | nil => exact last isInsert rfl
      | cons text lines => exact insert text lines isInsert rfl
    rw [List.cons_append, Request.ofLines_cons_of_not_mem, ih others]
    simp only [List.mem_cons, List.not_mem_nil, or_false, not_or]
    exact ⟨notInsert, notShow, notUndo, notClear, notList, notQuit⟩

namespace Menu

variable {library : Elementary}

/-! ## Runs -/

/-- The menu after some lines. -/
def after (library : Elementary) (menu : Menu)
    (lines : List (List Char)) : Menu :=
  lines.foldl (fun menu line => (menu.answer library line).1) menu

/-- What is shown for lines and more begins with what is shown for the
lines. -/
theorem answers_append (menu : Menu) (first second : List (List Char)) :
    menu.answers library (first ++ second) =
      menu.answers library first ++
        (menu.after library first).answers library second := by
  induction first generalizing menu with
  | nil => exact String.empty_append.symm
  | cons line lines ih =>
      rw [List.cons_append, answers_cons, answers_cons, ih,
        String.append_assoc]
      rfl

/-- Texts that make the same requests show the same. -/
theorem run_eq_of_ofLines_eq {settings : Settings} {first second : String}
    (same :
      Request.ofLines (Text.trimmedLines first.toList) =
        Request.ofLines (Text.trimmedLines second.toList)) :
    run library settings first = run library settings second := by
  have held := @conversation_answers library settings (.start settings)
  have firstHeld := (held (Text.lines first.toList)).1
  have secondHeld := (held (Text.lines second.toList)).1
  rw [run_eq_append, run_eq_append]
  exact congrArg _ (firstHeld.unique (same ▸ secondHeld))

/-- What a run shows for a complete text is the beginning of what it shows
for the text and more, and all of it if the text asks to quit; and a run
shows the same for any two layouts of the same lines. -/
theorem run_append_and_run_relaid (library : Elementary)
    (settings : Settings) :
    (∀ first second : String, Text.Complete first.toList →
      (∃ rest,
        run library settings (first ++ second) =
          run library settings first ++ rest) ∧
        (Request.quit ∈
            Request.ofLines (Text.trimmedLines first.toList) →
          run library settings (first ++ second) =
            run library settings first)) ∧
      ∀ first second : String,
        Relation.EqvGen Text.Relaid first.toList second.toList →
          run library settings first = run library settings second := by
  refine ⟨fun first second complete => ⟨?_, fun quits => ?_⟩,
    fun first second relaid => ?_⟩
  · have lines := Text.lines_append_of_complete complete second.toList
    refine ⟨((start settings).after library
      (Text.lines first.toList)).answers library
        (Text.lines second.toList), ?_⟩
    rw [run, run, String.toList_append, lines, answers_append,
      String.append_assoc]
  · apply run_eq_of_ofLines_eq
    rw [String.toList_append, Text.trimmedLines_append_of_complete complete]
    exact Request.ofLines_append_of_mem quits _
  · apply run_eq_of_ofLines_eq
    rw [Text.trimmedLines_eq_of_relaid relaid]

/-- Nothing is shown after the choice to quit, however its line is laid
out. -/
theorem run_quit_relaid :
    Text.Complete "9\n".toList ∧
      Request.quit ∈ Request.ofLines (Text.trimmedLines "9\n".toList) ∧
      run .system .standard ("9\n" ++ "1\n") = run .system .standard "9\n" ∧
      run .system .standard "9\n" = run .system .standard " 9\r\n" := by
  have complete : Text.Complete "9\n".toList := by decide
  have quits :
      Request.quit ∈ Request.ofLines (Text.trimmedLines "9\n".toList) := by
    decide
  have relaid :
      Relation.EqvGen Text.Relaid "9\n".toList " 9\r\n".toList :=
    .trans _ " 9\n".toList _
      (.rel _ _ (@Text.Relaid.blankAtStart [] "9\n".toList ' ' (by decide)
        (by decide) (.inl rfl) (List.cons_ne_nil _ _)))
      (.rel _ _ (@Text.Relaid.carriageReturn " 9".toList []))
  exact ⟨complete, quits,
    ((run_append_and_run_relaid .system .standard).1 "9\n" "1\n"
      complete).2 quits,
    (run_append_and_run_relaid .system .standard).2 "9\n" " 9\r\n" relaid⟩

end Menu

end Calculator
