import Firmware.Proofs.Token.LineByLine

/-! # The lexer on demand

Here the lexer is asked for one token or error at a time. To answer, it takes turns, in each
of which it looks at the next item of the stream. Some turns consume no item: the one that
notices an integer, the one that completes a token or shows an error, and the one that ends a
comment with the stream. Still every question is answered, since only few such turns can follow
each other. Main statement: the answers are what the lexer delivers for the whole stream, at
most one for each item, and from then on there is none; an error for the input answers each
failed read, in their order. -/

namespace Firmware

/-- A lexer in the middle of a stream: what it is doing, the location of the next item, and
the items that it has not consumed. -/
structure LexerReader where
  mode : LexerMode
  here : Location
  rest : List Item
  deriving DecidableEq, Repr

/-- What a turn leads to. -/
inductive LexerTurn where
  /-- Nothing is delivered yet. -/
  | goes (reader : LexerReader)
  | delivers (outcome : Lexed) (reader : LexerReader)
  /-- There is nothing left to deliver. -/
  | ends
  deriving DecidableEq

namespace LexerReader

/-- Delivers an error. What has been looked at is skipped in later turns. -/
def fail (reader : LexerReader) (error : LexicalError) : LexerTurn :=
  .delivers (.error { value := error, location := reader.here })
    { reader with mode := .recovering }

/-- Delivers the token of a lexeme that grows no more, without consuming what follows it. -/
def settle (reader : LexerReader) (lexeme : Lexeme) (first last : Location) : LexerTurn :=
  match lexeme.settle with
  | .ok token =>
      .delivers (.ok { value := token, location := first.span last })
        { reader with mode := .between }
  | .error error => reader.fail error

/-- Looks at the next item. The first digit of an integer is not consumed when it is noticed,
but added to zero in the next turn. -/
def turn (reader : LexerReader) : LexerTurn :=
  match reader.rest with
  | [] =>
      match reader.mode with
      | .between | .recovering => .ends
      | .comment => .goes { reader with mode := .between }
      | .within lexeme first last => reader.settle lexeme first last
  | .failure error :: rest => fail { reader with rest } (.input error)
  | .character value next :: rest =>
      match reader.mode with
      | .recovering => .goes { mode := .recover value, here := next, rest }
      | .comment =>
          .goes { mode := if value = '\n' then .between else .comment, here := next, rest }
      | .between =>
          if value.isDigit then
            .goes { reader with mode := .within (.integer 0) reader.here reader.here }
          else
            match Lexeme.start value with
            | some lexeme =>
                .goes { mode := .within lexeme reader.here reader.here, here := next, rest }
            | none =>
                if isBlank value then .goes { mode := .between, here := next, rest }
                else reader.fail (.badCharacter value)
      | .within lexeme first last =>
          match lexeme.extend value with
          | .grown lexeme =>
              .goes { mode := .within lexeme first reader.here, here := next, rest }
          | .comment => .goes { mode := .comment, here := next, rest }
          | .refused error => reader.fail error
          | .ended => reader.settle lexeme first last

/-- More than the number of turns ahead that consume no item. -/
def idle : LexerMode → List Item → Nat
  | .recovering, _ => 0
  | .between, _ => 1
  | .within lexeme _ _, .character value _ :: _ =>
      match lexeme.extend value with
      | .grown _ | .comment => 0
      | _ => 2
  | _, _ => 2

/-- A measure that every turn makes smaller. -/
def effort (reader : LexerReader) : Nat :=
  3 * reader.rest.length + idle reader.mode reader.rest

/-- All that is still to be delivered. -/
def remaining (reader : LexerReader) : List Lexed :=
  reader.mode.run reader.here reader.rest

end LexerReader

/-- What a turn leads to is accounted for by what was still to be delivered. -/
def LexerTurn.Accounts (reader : LexerReader) : LexerTurn → Prop
  | .goes after => after.remaining = reader.remaining ∧ after.effort < reader.effort
  | .delivers outcome after =>
      outcome :: after.remaining = reader.remaining ∧ after.effort < reader.effort
  | .ends => reader.remaining = []

namespace LexerReader

/-! ## One turn -/

theorem idle_recovering (rest : List Item) : idle .recovering rest = 0 := by
  cases rest <;> rfl

theorem idle_between (rest : List Item) : idle .between rest = 1 := by
  cases rest <;> rfl

theorem idle_le (mode : LexerMode) (rest : List Item) : idle mode rest ≤ 2 := by
  unfold idle
  split
  · omega
  · omega
  · split <;> omega
  · omega

theorem effort_of_consumed {mode after : LexerMode} {here next : Location} {item : Item}
    {rest : List Item} :
    effort { mode := after, here := next, rest } < effort { mode, here, rest := item :: rest } := by
  have bound := idle_le after rest
  simp only [effort, List.length_cons]
  omega

theorem digitValue_le {digit : Char} (isDigit : digit.isDigit = true) : digitValue digit ≤ 9 := by
  have bounds : 48 ≤ digit.toNat ∧ digit.toNat ≤ 57 := Char.isDigit_iff_toNat.mp isDigit
  have zero : '0'.toNat = 48 := rfl
  rw [digitValue, zero]
  omega

/-- A digit is consumed behind zero. -/
theorem extend_zero {digit : Char} (isDigit : digit.isDigit = true) :
    Lexeme.extend (.integer 0) digit = .grown (.integer (digitValue digit)) := by
  have fits : digitValue digit ≤ largestInteger := by
    have bound := digitValue_le isDigit
    rw [largestInteger]
    omega
  simp [Lexeme.extend, isDigit, fits]

theorem fail_accounts {reader : LexerReader} {error : LexicalError}
    (busy : 0 < idle reader.mode reader.rest)
    (delivered : reader.remaining = .error { value := error, location := reader.here } ::
      remaining { reader with mode := .recovering }) :
    (reader.fail error).Accounts reader := by
  refine ⟨delivered.symm, ?_⟩
  simp only [effort, idle_recovering]
  omega

theorem settle_accounts {reader : LexerReader} {lexeme : Lexeme} {first last : Location}
    (waiting : idle reader.mode reader.rest = 2)
    (delivered : reader.remaining =
      match lexeme.settle with
      | .ok token => .ok { value := token, location := first.span last } ::
          remaining { reader with mode := .between }
      | .error error => .error { value := error, location := reader.here } ::
          remaining { reader with mode := .recovering }) :
    (reader.settle lexeme first last).Accounts reader := by
  unfold settle
  split
  · next token settled =>
      rw [settled] at delivered
      refine ⟨delivered.symm, ?_⟩
      simp only [effort, idle_between]
      omega
  · next error settled =>
      rw [settled] at delivered
      apply fail_accounts _ delivered
      omega

theorem turn_between_accounts (here : Location) (value : Char) (next : Location)
    (rest : List Item) :
    (turn ⟨.between, here, .character value next :: rest⟩).Accounts
      ⟨.between, here, .character value next :: rest⟩ := by
  by_cases isDigit : value.isDigit = true
  · have extended := extend_zero isDigit
    have started := Lexeme.start_of_isDigit isDigit
    simp only [turn, isDigit, if_true]
    refine ⟨?_, ?_⟩
    · simp [remaining, LexerMode.run, LexerMode.step, LexerMode.enter, extended, started]
    · simp [effort, idle, extended]
  · simp only [turn, isDigit]
    cases started : Lexeme.start value with
    | some lexeme =>
        refine ⟨?_, effort_of_consumed⟩
        simp [remaining, LexerMode.run, LexerMode.step, LexerMode.enter, started]
    | none =>
        by_cases blank : isBlank value = true
        · simp only [blank, if_true]
          refine ⟨?_, effort_of_consumed⟩
          simp [remaining, LexerMode.run, LexerMode.step, LexerMode.enter, started, blank]
        · simp only [blank]
          apply fail_accounts
          · exact Nat.one_pos
          · simp [remaining, LexerMode.run, LexerMode.step, LexerMode.enter, started, blank]

theorem turn_within_accounts (lexeme : Lexeme) (first last here : Location) (value : Char)
    (next : Location) (rest : List Item) :
    (turn ⟨.within lexeme first last, here, .character value next :: rest⟩).Accounts
      ⟨.within lexeme first last, here, .character value next :: rest⟩ := by
  simp only [turn]
  cases extended : lexeme.extend value with
  | grown extension =>
      refine ⟨?_, effort_of_consumed⟩
      simp [remaining, LexerMode.run, LexerMode.step, extended]
  | comment =>
      refine ⟨?_, effort_of_consumed⟩
      simp [remaining, LexerMode.run, LexerMode.step, extended]
  | refused error =>
      apply fail_accounts
      · simp [idle, extended]
      · simp [remaining, LexerMode.run, LexerMode.step, extended]
  | ended =>
      apply settle_accounts
      · simp [idle, extended]
      · cases settled : lexeme.settle <;>
          simp [remaining, LexerMode.run, LexerMode.step, extended, settled]

/-- A turn delivers what comes next, or leaves it to be delivered, and makes the effort
smaller. -/
theorem turn_accounts (reader : LexerReader) : reader.turn.Accounts reader := by
  rcases reader with ⟨mode, here, rest⟩
  match rest, mode with
  | [], .between => exact rfl
  | [], .recovering => exact rfl
  | [], .comment => exact ⟨rfl, Nat.lt_succ_self 1⟩
  | [], .within lexeme first last =>
      apply settle_accounts rfl
      cases settled : lexeme.settle <;>
        simp [remaining, LexerMode.run, LexerMode.finish, settled]
  | .failure error :: rest, mode => exact ⟨rfl, effort_of_consumed⟩
  | .character value next :: rest, .recovering => exact ⟨rfl, effort_of_consumed⟩
  | .character value next :: rest, .comment => exact ⟨rfl, effort_of_consumed⟩
  | .character value next :: rest, .between => exact turn_between_accounts here value next rest
  | .character value next :: rest, .within lexeme first last =>
      exact turn_within_accounts lexeme first last here value next rest

/-! ## One question -/

theorem turn_of_goes {reader after : LexerReader} (turned : reader.turn = .goes after) :
    after.remaining = reader.remaining ∧ after.effort < reader.effort := by
  have accounts := turn_accounts reader
  rwa [turned] at accounts

theorem turn_of_delivers {reader after : LexerReader} {outcome : Lexed}
    (turned : reader.turn = .delivers outcome after) :
    outcome :: after.remaining = reader.remaining ∧ after.effort < reader.effort := by
  have accounts := turn_accounts reader
  rwa [turned] at accounts

theorem turn_of_ends {reader : LexerReader} (turned : reader.turn = .ends) :
    reader.remaining = [] := by
  have accounts := turn_accounts reader
  rwa [turned] at accounts

/-- Takes turns until something is delivered or nothing is left to deliver. -/
def next (reader : LexerReader) : Option Lexed × LexerReader :=
  match turned : reader.turn with
  | .goes after =>
      have := (turn_of_goes turned).2
      next after
  | .delivers outcome after => (some outcome, after)
  | .ends => (none, reader)
termination_by reader.effort

theorem next_eq (reader : LexerReader) :
    reader.next =
      match reader.turn with
      | .goes after => after.next
      | .delivers outcome after => (some outcome, after)
      | .ends => (none, reader) := by
  rw [next]
  split <;> next turned => simp only [turned]

/-- The answer is the first of what is still to be delivered, and the others remain. -/
theorem next_accounts (reader : LexerReader) :
    reader.next.1 = reader.remaining.head? ∧ reader.next.2.remaining = reader.remaining.tail ∧
      (reader.next.1 ≠ none → reader.next.2.effort < reader.effort) := by
  fun_induction next reader with
  | case1 reader after turned _ induction =>
      rcases turn_of_goes turned with ⟨unchanged, less⟩
      rcases induction with ⟨answer, remains, smaller⟩
      rw [unchanged] at answer remains
      refine ⟨answer, remains, ?_⟩
      intro answered
      exact (smaller answered).trans less
  | case2 reader outcome after turned =>
      rcases turn_of_delivers turned with ⟨delivered, less⟩
      rw [← delivered]
      exact ⟨rfl, rfl, fun _ => less⟩
  | case3 reader turned =>
      rw [turn_of_ends turned]
      exact ⟨rfl, rfl, fun answered => absurd rfl answered⟩

theorem next_of_none {reader after : LexerReader} (asked : reader.next = (none, after)) :
    reader.remaining = [] := by
  have accounts := (next_accounts reader).1
  rw [asked] at accounts
  exact List.head?_eq_none_iff.mp accounts.symm

theorem next_of_some {reader after : LexerReader} {outcome : Lexed}
    (asked : reader.next = (some outcome, after)) :
    reader.remaining = outcome :: after.remaining ∧ after.effort < reader.effort := by
  have accounts := next_accounts reader
  rw [asked] at accounts
  rcases accounts with ⟨answer, remains, smaller⟩
  rcases List.head?_eq_some_iff.mp answer.symm with ⟨others, split⟩
  rw [split, List.tail_cons] at remains
  exact ⟨by rw [split, remains], smaller (by simp)⟩

/-! ## All questions -/

/-- The lexer behind some questions. -/
def after (reader : LexerReader) : Nat → LexerReader
  | 0 => reader
  | count + 1 => (reader.after count).next.2

theorem remaining_after (reader : LexerReader) (count : Nat) :
    (reader.after count).remaining = reader.remaining.drop count := by
  induction count with
  | zero => rfl
  | succ count induction =>
      rw [after, (next_accounts _).2.1, induction, List.tail_drop]

/-- The answers are what remains to be delivered, in that order, and then there is none. -/
theorem next_after (reader : LexerReader) (count : Nat) :
    (reader.after count).next.1 = reader.remaining[count]? := by
  rw [(next_accounts _).1, remaining_after, List.head?_drop]

/-- The errors among the answers to all further questions. -/
def errors (reader : LexerReader) : List (Located LexicalError) :=
  match asked : reader.next with
  | (none, _) => []
  | (some (.ok _), after) =>
      have := (next_of_some asked).2
      errors after
  | (some (.error error), after) =>
      have := (next_of_some asked).2
      error :: errors after
termination_by reader.effort

/-- Asks until there is no answer. Tokens are kept up to the first error, and from then on
errors alone. -/
def collect (reader : LexerReader) (tokens : List (Located Token)) :
    Except (List (Located LexicalError)) (List (Located Token)) :=
  match asked : reader.next with
  | (none, _) => .ok tokens
  | (some (.ok token), after) =>
      have := (next_of_some asked).2
      collect after (tokens ++ [token])
  | (some (.error error), after) => .error (error :: errors after)
termination_by reader.effort

theorem errors_eq (reader : LexerReader) :
    reader.errors = reader.remaining.filterMap Lexed.error? := by
  fun_induction errors reader with
  | case1 reader after asked =>
      rw [next_of_none asked]
      rfl
  | case2 reader token after asked _ induction =>
      rw [(next_of_some asked).1, induction]
      rfl
  | case3 reader error after asked _ induction =>
      rw [(next_of_some asked).1, induction]
      rfl

theorem collect_eq (reader : LexerReader) (tokens : List (Located Token)) :
    reader.collect tokens =
      match reader.remaining.filterMap Lexed.error? with
      | [] => .ok (tokens ++ reader.remaining.filterMap Lexed.token?)
      | errors => .error errors := by
  fun_induction collect reader tokens with
  | case1 reader tokens after asked =>
      rw [next_of_none asked]
      simp
  | case2 reader tokens token after asked _ induction =>
      rw [(next_of_some asked).1, induction, List.append_assoc]
      rfl
  | case3 reader tokens error after asked =>
      rw [(next_of_some asked).1, errors_eq]
      rfl

end LexerReader

/-! ## What is delivered for a stream -/

namespace Lexed

/-- The error of the input that is delivered, with its location. -/
def input? : Lexed → Option (Located InputError)
  | .error { value := .input error, location } => some { value := error, location }
  | _ => none

end Lexed

/-- The errors of the reads that have failed, at the locations where they have. -/
def Item.failures : Location → List Item → List (Located InputError)
  | _, [] => []
  | here, .failure error :: rest => { value := error, location := here } :: failures here rest
  | _, .character _ next :: rest => failures next rest

namespace LexerMode

/-- How many tokens or errors are under way. -/
def owes : LexerMode → Nat
  | .within _ _ _ => 1
  | _ => 0

theorem owes_recover (character : Char) : (recover character).owes = 0 := by
  unfold recover
  split <;> rfl

theorem length_enter_le (here : Location) (character : Char) :
    (enter here character).1.length + (enter here character).2.owes ≤ 1 := by
  unfold enter
  split
  · exact Nat.le_refl 1
  · split
    · exact Nat.zero_le 1
    · rw [owes_recover]
      exact Nat.le_refl 1

/-- A character adds at most one token or error to those delivered and under way. -/
theorem length_step_le (mode : LexerMode) (here : Location) (character : Char) :
    (mode.step here character).1.length + (mode.step here character).2.owes ≤
      1 + mode.owes := by
  have entered := length_enter_le here character
  cases mode with
  | between => exact entered
  | comment =>
      simp only [step]
      split <;> exact Nat.zero_le 1
  | recovering =>
      simp only [step, owes_recover]
      exact Nat.zero_le 1
  | within lexeme first last =>
      change _ ≤ 2
      simp only [step]
      split
      · exact Nat.le_succ 1
      · exact Nat.zero_le 2
      · rw [owes_recover]
        exact Nat.le_succ 1
      · split
        · simp only [List.length_cons]
          omega
        · rw [owes_recover]
          exact Nat.le_succ 1

theorem length_run_le (mode : LexerMode) (here : Location) (items : List Item) :
    (mode.run here items).length ≤ items.length + mode.owes := by
  induction items generalizing mode here with
  | nil =>
      cases mode with
      | within lexeme first last =>
          simp only [run, finish]
          split <;> exact Nat.le_refl 1
      | _ => exact Nat.zero_le 0
  | cons item rest induction =>
      cases item with
      | failure =>
          have later := induction .recovering here
          simp only [run, List.length_cons, owes] at later ⊢
          omega
      | character value next =>
          have now := mode.length_step_le here value
          have later := induction (mode.step here value).2 next
          simp only [run, List.length_append, List.length_cons]
          omega

/-! Characters are never at fault for the input. -/

theorem input?_of_settle {lexeme : Lexeme} {error : LexicalError}
    (settled : lexeme.settle = .error error) (here : Location) :
    Lexed.input? (.error { value := error, location := here }) = none := by
  cases lexeme with
  | complete | slash | integer => cases settled
  | text | escape =>
      cases settled
      rfl
  | sign kind =>
      cases kind <;> cases settled
      rfl
  | word letters =>
      simp only [Lexeme.settle] at settled
      split at settled <;> cases settled

theorem input?_of_extend {lexeme : Lexeme} {character : Char} {error : LexicalError}
    (refused : lexeme.extend character = .refused error) (here : Location) :
    Lexed.input? (.error { value := error, location := here }) = none := by
  revert refused
  fun_cases Lexeme.extend lexeme character
  all_goals
    intro refused
    cases refused
  rfl

theorem inputs_enter (here : Location) (character : Char) :
    (enter here character).1.filterMap Lexed.input? = [] := by
  unfold enter
  split
  · rfl
  · split <;> rfl

theorem inputs_step (mode : LexerMode) (here : Location) (character : Char) :
    (mode.step here character).1.filterMap Lexed.input? = [] := by
  cases mode with
  | between => exact inputs_enter here character
  | comment => rfl
  | recovering => rfl
  | within lexeme first last =>
      simp only [step]
      split
      · rfl
      · rfl
      · next error refused => simp [input?_of_extend refused]
      · split
        · exact inputs_enter here character
        · next error settled => simp [input?_of_settle settled]

theorem inputs_finish (mode : LexerMode) (here : Location) :
    (mode.finish here).filterMap Lexed.input? = [] := by
  cases mode with
  | within lexeme first last =>
      simp only [finish]
      split
      · rfl
      · next error settled => simp [input?_of_settle settled]
  | _ => rfl

/-- Every failed read gives one error where it failed, and nothing else gives such an error. -/
theorem inputs_run (mode : LexerMode) (here : Location) (items : List Item) :
    (mode.run here items).filterMap Lexed.input? = Item.failures here items := by
  induction items generalizing mode here with
  | nil => exact inputs_finish mode here
  | cons item rest induction =>
      cases item with
      | failure error => exact congrArg (⟨error, here⟩ :: ·) (induction .recovering here)
      | character value next =>
          simp only [run, List.filterMap_append, inputs_step, List.nil_append, Item.failures]
          exact induction _ next

end LexerMode

theorem Lexed.collect_eq_ok_iff {outcomes : List Lexed} {tokens : List (Located Token)} :
    collect outcomes = .ok tokens ↔ outcomes = tokens.map .ok := by
  constructor
  · exact eq_map_ok_of_collect
  · intro same
    rw [same, collect_map_ok]

theorem Lexed.collect_eq_error_iff {outcomes : List Lexed}
    {errors : List (Located LexicalError)} :
    collect outcomes = .error errors ↔ errors = outcomes.filterMap error? ∧ errors ≠ [] := by
  rw [collect_eq_ite]
  split
  · next none =>
      rw [none]
      simp
  · next some =>
      constructor
      · intro same
        cases same
        exact ⟨rfl, some⟩
      · intro same
        rw [same.1]

/-- The lexer at the beginning of a stream. -/
def LexerReader.opened (start : Location) (items : List Item) : LexerReader where
  mode := .between
  here := start
  rest := items

/-- What the lexer answers is accounted for by the items of a stream. -/
structure LexerReader.AccountsFor (start : Location) (items : List Item) : Prop where
  /-- The answers are what is delivered for the stream, and from then on there is none. -/
  answers : ∀ count, ((opened start items).after count).next.1 = (lex start items)[count]?
  /-- There are no more answers than items. -/
  bounded : (lex start items).length ≤ items.length
  /-- The errors of the input that are delivered are those of the failed reads, in their order
  and where they have failed. -/
  inputs : (lex start items).filterMap Lexed.input? = Item.failures start items
  /-- Asking to the end gives what is collected from all that is delivered. -/
  collected : (opened start items).collect [] = Lexed.collect (lex start items)
  /-- It gives the tokens if nothing else is delivered. -/
  succeeds : ∀ tokens, (opened start items).collect [] = .ok tokens ↔
    lex start items = tokens.map .ok
  /-- Otherwise it gives the errors, in their order. -/
  fails : ∀ errors, (opened start items).collect [] = .error errors ↔
    errors = (lex start items).filterMap Lexed.error? ∧ errors ≠ []

/-- Asked over and over, the lexer comes to its end on every stream, wherever reads fail. -/
theorem LexerReader.accountsFor_items (start : Location) (items : List Item) :
    AccountsFor start items := by
  have collected : (opened start items).collect [] = Lexed.collect (lex start items) :=
    collect_eq (opened start items) []
  refine ⟨?_, ?_, ?_, collected, ?_, ?_⟩
  · exact next_after (opened start items)
  · exact LexerMode.length_run_le .between start items
  · exact LexerMode.inputs_run .between start items
  · intro tokens
    rw [collected]
    exact Lexed.collect_eq_ok_iff
  · intro errors
    rw [collected]
    exact Lexed.collect_eq_error_iff

end Firmware
