import Calculator.Proofs.Outcome
import Calculator.Session

/-!
# A session is a replayable log

A session is told to evaluate texts, to undo and to clear.  Its history is
the log of this: what was evaluated since everything was cleared, without
what was taken back.  The log is bounded by the limit of the history, and
nothing else of the past is ever seen again: evaluations depend on the past
only through the log being full, commands that fail leave no trace, and
evaluating the surviving texts once more, in a new session, gives the same
log.

Every command is looked at once, in `Session.obey`; what it does to the log
is `LogOf.obey`, and the log after any commands follows by induction on them.
-/

namespace Calculator

/-- What a session can be told to do. -/
inductive Command where
  | evaluate (text : String)
  | undo
  | clear
  deriving DecidableEq

/-- What a session answers to a command. -/
inductive Answer where
  /-- The value of a text, or why there is none. -/
  | outcome (value : Except CalculationError Float)
  /-- Whether there was something to take back. -/
  | undone (something : Bool)
  | cleared

/-- A command with its answer. -/
structure Event where
  command : Command
  answer : Answer

/-- Whether the command did what it says. -/
def Event.succeeded (event : Event) : Bool :=
  match event.answer with
  | .outcome (.error _) => false
  | .undone something => something
  | _ => true

/-- The successful evaluation that an entry records. -/
def Entry.event (entry : Entry) : Event :=
  ⟨.evaluate entry.expression, .outcome (.ok entry.result)⟩

namespace Session

variable (library : Elementary)

/-- Answers a command. -/
def obey (session : Session) (command : Command) : Answer × Session :=
  match command with
  | .evaluate text =>
      match session.evaluate library text with
      | .ok (value, next) => (.outcome (.ok value), next)
      | .error failure => (.outcome (.error failure), session)
  | .undo =>
      match session.undo with
      | some next => (.undone true, next)
      | none => (.undone false, session)
  | .clear => (.cleared, session.clear)

/-- The commands with the answers that they are given one after the other. -/
def events (session : Session) : List Command → List Event
  | [] => []
  | command :: commands =>
      ⟨command, (session.obey library command).1⟩ ::
        events (session.obey library command).2 commands

/-- The session after some commands. -/
def after (session : Session) : List Command → Session
  | [] => session
  | command :: commands => after (session.obey library command).2 commands

end Session

/-- The survivors after one more event: a value joins them, an undo takes the
newest one away, and clearing takes all away. -/
def survive (survivors : List Entry) (event : Event) : List Entry :=
  match event.command, event.answer with
  | .evaluate text, .outcome (.ok value) => survivors ++ [⟨text, value⟩]
  | .evaluate _, _ => survivors
  | .undo, _ => survivors.dropLast
  | .clear, _ => []

/-- The evaluations that succeeded, were not cleared since and were not taken
back, the oldest one first. -/
def survivors (events : List Event) : List Entry := events.foldl survive []

/-- The session is full: its history has reached its limit. -/
def Session.Full (session : Session) : Prop :=
  ∃ limit, session.history.limit = some limit ∧
    limit ≤ session.history.size

/-- The session keeps the log of some events under a limit. -/
structure LogOf (library : Elementary) (limit : Option Nat)
    (events : List Event) (session : Session) : Prop where
  /-- The history lists the survivors. -/
  entries : session.history.toList = survivors events
  /-- Each entry has the value of its text. -/
  values : ∀ entry ∈ session.history.toList,
    calculate library entry.expression = .ok entry.result
  sameLimit : session.history.limit = limit
  bounded : ∀ most, limit = some most → session.history.size ≤ most
  /-- The result is that of the newest entry. -/
  result : session.result =
    session.history.toList.getLast?.map Entry.result

/-- How a session treats its next command. -/
structure Session.AnswersByLog (library : Elementary) (session : Session) :
    Prop where
  /-- A text without a value is answered by its error. -/
  failed : ∀ text failure, calculate library text = .error failure →
    (session.obey library (.evaluate text)).1 = .outcome (.error failure)
  /-- A value that finds the log full is refused. -/
  refused : ∀ text value limit, calculate library text = .ok value →
    session.history.limit = some limit → limit ≤ session.history.size →
      (session.obey library (.evaluate text)).1 =
        .outcome (.error (.historyFull limit))
  /-- Any other value is the answer. -/
  accepted : ∀ text value, calculate library text = .ok value →
    ¬ session.Full →
      (session.obey library (.evaluate text)).1 = .outcome (.ok value)
  /-- There is nothing to take back in an empty log, and only there. -/
  nothing : (session.obey library .undo).1 = .undone false ↔
    session.history.toList = []
  /-- A command that fails changes nothing. -/
  unchanged : ∀ command,
    Event.succeeded ⟨command, (session.obey library command).1⟩ = false →
      (session.obey library command).2 = session

/-! ## Histories -/

namespace History

/-- A history is its limit and its entries. -/
theorem ext_toList {first second : History}
    (sameLimit : first.limit = second.limit)
    (sameEntries : first.toList = second.toList) :
    first = second := by
  obtain ⟨limit, latestFirst⟩ := first
  obtain ⟨otherLimit, otherLatestFirst⟩ := second
  obtain rfl : limit = otherLimit := sameLimit
  rw [History.mk.injEq]
  exact ⟨rfl, List.reverse_inj.mp sameEntries⟩

theorem isEmpty_eq_true_iff {history : History} :
    history.isEmpty = true ↔ history.toList = [] := by
  simp [isEmpty, toList]

theorem full?_eq_some_iff {history : History} {limit : Nat} :
    history.full? = some limit ↔
      history.limit = some limit ∧ limit ≤ history.size := by
  simp [full?, Option.filter_eq_some_iff]

theorem append_of_full {history : History} {limit : Nat} (entry : Entry)
    (full : history.full? = some limit) :
    history.append entry = .error (.historyFull limit) := by
  simp [append, full]

/-- A history that is not full takes an entry. -/
theorem exists_append_eq_ok {history : History} (entry : Entry)
    (room : history.full? = none) :
    ∃ longer, history.append entry = .ok longer := by
  simp [append, room]

/-- What was appended leaves the history within its limit. -/
theorem size_le_of_append {history longer : History} {entry : Entry}
    (appended : history.append entry = .ok longer) {most : Nat}
    (limited : history.limit = some most) :
    longer.size ≤ most := by
  have room : history.full? = none := by
    cases full : history.full? with
    | none => rfl
    | some limit =>
        rw [append_of_full entry full] at appended
        cases appended
  have below : ¬ most ≤ history.size := by
    intro reached
    rw [full?_eq_some_iff.mpr ⟨limited, reached⟩] at room
    cases room
  rw [← length_toList, toList_append appended]
  simp
  omega

end History

/-! ## One command -/

namespace Session

variable {library : Elementary} {session next : Session}

theorem full_iff : session.Full ↔ session.history.full?.isSome = true := by
  simp only [Full, Option.isSome_iff_exists, History.full?_eq_some_iff]

theorem evaluate_eq_ok_iff {text : String} {value : Float} :
    session.evaluate library text = .ok (value, next) ↔
      calculate library text = .ok value ∧
        session.history.append ⟨text, value⟩ = .ok next.history := by
  simp only [evaluate, Outcome.bind_eq_ok_iff]
  constructor
  · rintro ⟨found, calculated, history, appended, same⟩
    cases same
    exact ⟨calculated, appended⟩
  · rintro ⟨calculated, appended⟩
    exact ⟨value, calculated, next.history, appended, rfl⟩

theorem evaluate_of_calculate_eq_error {text : String}
    {failure : CalculationError}
    (failed : calculate library text = .error failure) :
    session.evaluate library text = .error failure := by
  rw [evaluate, failed]
  rfl

theorem evaluate_of_full {text : String} {value : Float} {limit : Nat}
    (calculated : calculate library text = .ok value)
    (full : session.history.full? = some limit) :
    session.evaluate library text = .error (.historyFull limit) := by
  have refused := History.append_of_full ⟨text, value⟩ full
  simp only [evaluate, calculated, Outcome.bind_eq_error_iff]
  exact Or.inr ⟨value, rfl, Or.inl refused⟩

theorem exists_evaluate_eq_ok {text : String} {value : Float}
    (calculated : calculate library text = .ok value)
    (room : ¬ session.Full) :
    ∃ next, session.evaluate library text = .ok (value, next) := by
  rw [full_iff, Option.not_isSome_iff_eq_none] at room
  obtain ⟨longer, appended⟩ :=
    History.exists_append_eq_ok ⟨text, value⟩ room
  exact ⟨⟨longer⟩, evaluate_eq_ok_iff.mpr ⟨calculated, appended⟩⟩

theorem obey_of_evaluate_eq_ok {text : String} {value : Float}
    (evaluated : session.evaluate library text = .ok (value, next)) :
    session.obey library (.evaluate text) = (.outcome (.ok value), next) := by
  simp only [obey, evaluated]

theorem obey_of_evaluate_eq_error {text : String}
    {failure : CalculationError}
    (failed : session.evaluate library text = .error failure) :
    session.obey library (.evaluate text) =
      (.outcome (.error failure), session) := by
  simp only [obey, failed]

theorem obey_undo_of_eq_nil (nothing : session.history.toList = []) :
    session.obey library .undo = (.undone false, session) := by
  simp only [obey, undo, History.isEmpty_eq_true_iff.mpr nothing, if_true]

theorem obey_undo_of_ne_nil (something : session.history.toList ≠ []) :
    session.obey library .undo =
      (.undone true, ⟨session.history.removeLast⟩) := by
  have nonempty : ¬ session.history.isEmpty = true := by
    rwa [History.isEmpty_eq_true_iff]
  simp only [obey, undo, if_neg nonempty]

@[simp]
theorem obey_clear :
    session.obey library .clear = (.cleared, session.clear) :=
  rfl

variable (library session)

/-- A command that fails changes nothing. -/
theorem obey_snd_eq_of_failed (command : Command)
    (failed :
      Event.succeeded ⟨command, (session.obey library command).1⟩ = false) :
    (session.obey library command).2 = session := by
  cases command with
  | evaluate text =>
      cases outcome : session.evaluate library text with
      | error failure => rw [obey_of_evaluate_eq_error outcome]
      | ok done =>
          rw [obey_of_evaluate_eq_ok outcome] at failed
          cases failed
  | undo =>
      by_cases nothing : session.history.toList = []
      · rw [obey_undo_of_eq_nil nothing]
      · rw [obey_undo_of_ne_nil nothing] at failed
        cases failed
  | clear => cases failed

theorem answersByLog : session.AnswersByLog library where
  failed text failure failed := by
    rw [obey_of_evaluate_eq_error (evaluate_of_calculate_eq_error failed)]
  refused text value limit calculated limited reached := by
    have full := History.full?_eq_some_iff.mpr ⟨limited, reached⟩
    rw [obey_of_evaluate_eq_error (evaluate_of_full calculated full)]
  accepted text value calculated room := by
    obtain ⟨next, evaluated⟩ := exists_evaluate_eq_ok calculated room
    rw [obey_of_evaluate_eq_ok evaluated]
  nothing := by
    by_cases nothing : session.history.toList = []
    · simp [obey_undo_of_eq_nil nothing, nothing]
    · simp [obey_undo_of_ne_nil nothing, nothing]
  unchanged := session.obey_snd_eq_of_failed library

/-- Of two sessions with the same limit, of which both are full or neither
is, the answers to a text are the same. -/
theorem obey_evaluate_fst_congr {first second : Session}
    (sameLimit : first.history.limit = second.history.limit)
    (sameFull : first.Full ↔ second.Full) (text : String) :
    (first.obey library (.evaluate text)).1 =
      (second.obey library (.evaluate text)).1 := by
  cases calculated : calculate library text with
  | error failure =>
      rw [(first.answersByLog library).failed text failure calculated,
        (second.answersByLog library).failed text failure calculated]
  | ok value =>
      by_cases full : first.Full
      · obtain ⟨limit, limited, reached⟩ := full
        obtain ⟨other, otherLimited, otherReached⟩ :=
          sameFull.mp ⟨limit, limited, reached⟩
        obtain rfl : limit = other := by
          rw [sameLimit, otherLimited] at limited
          exact (Option.some.inj limited).symm
        rw [(first.answersByLog library).refused text value limit calculated
            limited reached,
          (second.answersByLog library).refused text value limit calculated
            otherLimited otherReached]
      · have room : ¬ second.Full := fun other => full (sameFull.mpr other)
        rw [(first.answersByLog library).accepted text value calculated full,
          (second.answersByLog library).accepted text value calculated room]

end Session

/-! ## Any number of commands -/

@[simp]
theorem survivors_nil : survivors [] = [] := rfl

@[simp]
theorem survivors_append_singleton (events : List Event) (event : Event) :
    survivors (events ++ [event]) = survive (survivors events) event := by
  simp [survivors]

namespace LogOf

variable {library : Elementary} {limit : Option Nat} {events : List Event}
  {session : Session}

theorem start (library : Elementary) (settings : Settings) :
    LogOf library settings.historyLimit [] (.start settings) where
  entries := rfl
  values := by simp [Session.start]
  sameLimit := rfl
  bounded := fun _ _ => Nat.zero_le _
  result := rfl

/-- A command that leaves the session and its survivors leaves the log. -/
theorem keep (log : LogOf library limit events session) {event : Event}
    (kept : survive (survivors events) event = survivors events) :
    LogOf library limit (events ++ [event]) session := by
  have entries := log.entries
  rw [← kept, ← survivors_append_singleton] at entries
  exact { log with entries := entries }

/-- A value joins the log. -/
theorem append (log : LogOf library limit events session)
    {text : String} {value : Float} {next : Session}
    (evaluated : session.evaluate library text = .ok (value, next)) :
    LogOf library limit
      (events ++ [⟨.evaluate text, .outcome (.ok value)⟩]) next := by
  obtain ⟨calculated, appended⟩ := Session.evaluate_eq_ok_iff.mp evaluated
  have entries := History.toList_append appended
  constructor
  · rw [entries, survivors_append_singleton, log.entries]
    rfl
  · intro entry member
    rw [entries, List.mem_append, List.mem_singleton] at member
    rcases member with member | rfl
    · exact log.values entry member
    · exact calculated
  · rw [History.limit_append appended, log.sameLimit]
  · intro most limited
    exact History.size_le_of_append appended (log.sameLimit.trans limited)
  · rw [Session.result, History.last?_eq_getLast?]

/-- The newest entry leaves the log. -/
theorem removeLast (log : LogOf library limit events session)
    {answer : Answer} :
    LogOf library limit (events ++ [⟨.undo, answer⟩])
      ⟨session.history.removeLast⟩ := by
  constructor
  · rw [History.toList_removeLast, survivors_append_singleton, log.entries]
    rfl
  · intro entry member
    rw [History.toList_removeLast] at member
    exact log.values entry (List.dropLast_subset _ member)
  · exact log.sameLimit
  · intro most limited
    have bound := log.bounded most limited
    rw [← History.length_toList] at bound ⊢
    rw [History.toList_removeLast, List.length_dropLast]
    omega
  · rw [Session.result, History.last?_eq_getLast?]

/-- Everything leaves the log. -/
theorem clear (log : LogOf library limit events session)
    {answer : Answer} :
    LogOf library limit (events ++ [⟨.clear, answer⟩]) session.clear where
  entries := by
    rw [survivors_append_singleton]
    rfl
  values := by simp [Session.clear]
  sameLimit := log.sameLimit
  bounded := fun _ _ => Nat.zero_le _
  result := rfl

/-- What one command does to the log. -/
theorem obey (log : LogOf library limit events session)
    (command : Command) :
    LogOf library limit
      (events ++ [⟨command, (session.obey library command).1⟩])
      (session.obey library command).2 := by
  cases command with
  | evaluate text =>
      cases outcome : session.evaluate library text with
      | error failure =>
          rw [Session.obey_of_evaluate_eq_error outcome]
          exact log.keep rfl
      | ok done =>
          obtain ⟨value, next⟩ := done
          rw [Session.obey_of_evaluate_eq_ok outcome]
          exact log.append outcome
  | undo =>
      by_cases nothing : session.history.toList = []
      · rw [Session.obey_undo_of_eq_nil nothing]
        apply log.keep
        rw [← log.entries, nothing]
        rfl
      · rw [Session.obey_undo_of_ne_nil nothing]
        exact log.removeLast
  | clear => exact log.clear

/-- What any commands do to the log, by induction on the commands; the log
before them grows by one event at each. -/
theorem after (log : LogOf library limit events session)
    (commands : List Command) :
    LogOf library limit (events ++ session.events library commands)
      (session.after library commands) := by
  induction commands generalizing events session with
  | nil => simpa [Session.events, Session.after] using log
  | cons command commands ih =>
      have rest := ih (log.obey command)
      rwa [List.append_assoc] at rest

end LogOf

namespace Session

variable (library : Elementary)

/-- Commands that fail may be left out: the others are answered as before,
and the session is the same in the end. -/
theorem events_succeeded (session : Session) (commands : List Command) :
    let kept := (session.events library commands).filter Event.succeeded
    session.events library (kept.map Event.command) = kept ∧
      session.after library (kept.map Event.command) =
        session.after library commands := by
  induction commands generalizing session with
  | nil => exact ⟨rfl, rfl⟩
  | cons command commands ih =>
      obtain ⟨sameEvents, sameAfter⟩ :=
        ih (session.obey library command).2
      dsimp only [events, after]
      rw [List.filter_cons]
      split
      · next succeeded =>
          rw [List.map_cons]
          exact ⟨congrArg (_ :: ·) sameEvents, sameAfter⟩
      · next failed =>
          have unchanged := session.obey_snd_eq_of_failed library command
            (Bool.not_eq_true _ ▸ failed)
          rw [unchanged] at sameEvents sameAfter ⊢
          exact ⟨sameEvents, sameAfter⟩

/-- Where there is room for all of them, texts with values are all recorded
in their order. -/
theorem after_evaluations (session : Session) (entries : List Entry)
    (values : ∀ entry ∈ entries,
      calculate library entry.expression = .ok entry.result)
    (room : ∀ most, session.history.limit = some most →
      session.history.size + entries.length ≤ most) :
    let commands := entries.map fun entry => .evaluate entry.expression
    session.events library commands = entries.map Entry.event ∧
      (session.after library commands).history.limit =
        session.history.limit ∧
      (session.after library commands).history.toList =
        session.history.toList ++ entries := by
  induction entries generalizing session with
  | nil => simp [events, after]
  | cons entry entries ih =>
      obtain ⟨calculated, others⟩ := List.forall_mem_cons.mp values
      have notFull : ¬ session.Full := by
        rintro ⟨most, limited, reached⟩
        have bound := room most limited
        rw [List.length_cons] at bound
        omega
      obtain ⟨next, evaluated⟩ := exists_evaluate_eq_ok calculated notFull
      have appended := (evaluate_eq_ok_iff.mp evaluated).2
      have longer := History.toList_append appended
      have sameLimit := History.limit_append appended
      have nextRoom : ∀ most, next.history.limit = some most →
          next.history.size + entries.length ≤ most := by
        intro most limited
        have bound := room most (sameLimit ▸ limited)
        rw [← History.length_toList, longer]
        simp only [List.length_append, List.length_cons, List.length_nil,
          History.length_toList] at bound ⊢
        omega
      obtain ⟨sameEvents, limit, recorded⟩ := ih next others nextRoom
      simp only [List.map_cons, events, after]
      rw [obey_of_evaluate_eq_ok evaluated]
      refine ⟨congrArg (_ :: ·) sameEvents, limit.trans sameLimit, ?_⟩
      rw [recorded, longer, List.append_assoc]
      rfl

/-- A session at its start, after any commands, keeps their log, and answers
the next command by it.  Only the fullness of the log matters to the answer
to a text.  The commands that failed can be left out, and the texts of the
log, evaluated in a session of the same limit, give the same log. -/
theorem start_after_isLog (settings : Settings) (commands : List Command) :
    let events := (start settings).events library commands
    let session := (start settings).after library commands
    let kept := events.filter Event.succeeded
    let replayed := session.history.toList.map fun entry =>
      Command.evaluate entry.expression
    LogOf library settings.historyLimit events session ∧
      session.AnswersByLog library ∧
      (∀ others text,
        (session.Full ↔ ((start settings).after library others).Full) →
          (session.obey library (.evaluate text)).1 =
            (((start settings).after library others).obey library
              (.evaluate text)).1) ∧
      (start settings).events library (kept.map Event.command) = kept ∧
      (start settings).after library (kept.map Event.command) = session ∧
      (start settings).events library replayed =
        session.history.toList.map Entry.event ∧
      (start settings).after library replayed = session := by
  intro events session kept replayed
  have logAfter (others : List Command) :=
    (LogOf.start library settings).after others
  have log : LogOf library settings.historyLimit events session :=
    logAfter commands
  have withoutFailed := events_succeeded library (start settings) commands
  have room : ∀ most, (start settings).history.limit = some most →
      (start settings).history.size + session.history.toList.length ≤
        most := by
    intro most limited
    have bound := log.bounded most limited
    rw [History.length_toList]
    exact (Nat.zero_add _).symm ▸ bound
  obtain ⟨sameEvents, limit, recorded⟩ := after_evaluations library
    (start settings) session.history.toList log.values room
  have rebuilt :
      ((start settings).after library replayed).history =
        session.history :=
    History.ext_toList (limit.trans log.sameLimit.symm) recorded
  refine ⟨log, session.answersByLog library, ?_, withoutFailed.1,
    withoutFailed.2, sameEvents, congrArg Session.mk rebuilt⟩
  intro others text sameFull
  have sameLimit := log.sameLimit.trans (logAfter others).sameLimit.symm
  exact obey_evaluate_fst_congr library sameLimit sameFull text

end Session

end Calculator
