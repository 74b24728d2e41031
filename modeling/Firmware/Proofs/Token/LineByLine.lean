import Firmware.Proofs.Source.Lines
import Firmware.Proofs.Token.Spelling

/-! # Lexing line by line

At the end of every line the lexer is between tokens again, whatever it has met in the
line: a token ends, a text that is not closed is given up, a comment is over, and so is
the recovery from an error. So each line is lexed as if it stood alone, except that its
tokens and errors lie further down. A line gives tokens, and behind them at most one
error, since the rest of a faulty line is skipped. -/

namespace Firmware

/-! ## Going down by some lines -/

def Position.down (lines : Nat) (position : Position) : Position :=
  { position with line := position.line + lines }

def Location.down (lines : Nat) (location : Location) : Location :=
  { location with start := location.start.down lines, stop := location.stop.down lines }

def Located.down {α : Type} (lines : Nat) (located : Located α) : Located α :=
  { located with location := located.location.down lines }

/-- The same token or error some lines further down. -/
def Lexed.down (lines : Nat) : Lexed → Lexed
  | .ok token => .ok (token.down lines)
  | .error error => .error (error.down lines)

namespace LexerMode

def down (lines : Nat) : LexerMode → LexerMode
  | .within lexeme first last => .within lexeme (first.down lines) (last.down lines)
  | mode => mode

theorem down_recover (lines : Nat) (character : Char) :
    (recover character).down lines = recover character := by
  unfold recover
  split <;> rfl

theorem enter_down (lines : Nat) (here : Location) (character : Char) :
    enter (here.down lines) character =
      ((enter here character).1.map (Lexed.down lines), (enter here character).2.down lines) := by
  unfold enter
  split
  · rfl
  · split
    · rfl
    · simp [down_recover, Lexed.down, Located.down]

theorem step_down (lines : Nat) (mode : LexerMode) (here : Location) (character : Char) :
    (mode.down lines).step (here.down lines) character =
      ((mode.step here character).1.map (Lexed.down lines),
        (mode.step here character).2.down lines) := by
  cases mode with
  | between => exact enter_down lines here character
  | comment =>
      simp only [down, step, List.map_nil]
      split <;> rfl
  | recovering => exact Prod.ext rfl (down_recover lines character).symm
  | within lexeme first last =>
      rw [down]
      simp only [step]
      split
      · rfl
      · rfl
      · exact Prod.ext rfl (down_recover lines character).symm
      · split
        · rw [enter_down]
          rfl
        · exact Prod.ext rfl (down_recover lines character).symm

theorem finish_down (lines : Nat) (mode : LexerMode) (here : Location) :
    (mode.down lines).finish (here.down lines) = (mode.finish here).map (Lexed.down lines) := by
  cases mode with
  | within lexeme first last =>
      simp only [down, finish]
      split
      · simp [Lexed.down, Located.down, Location.down, Location.span]
      · simp [Lexed.down, Located.down]
  | _ => rfl

theorem after_down (lines : Nat) (position : Position) (character : Char) :
    (position.down lines).after character = (position.after character).down lines := by
  unfold Position.after
  split
  · simp [Position.newline, Position.down, Nat.add_right_comm]
  · split <;> rfl

/-- Further down, the same characters give the same tokens and errors. -/
theorem scan_down (lines : Nat) (mode : LexerMode) (name : String) (position : Position)
    (characters : List Char) :
    (mode.down lines).scan name (position.down lines) characters =
      (mode.scan name position characters).map (Lexed.down lines) := by
  induction characters generalizing mode position with
  | nil => exact finish_down lines mode (.single name position)
  | cons character rest induction =>
      have stepped : (mode.down lines).step (.single name (position.down lines)) character = _ :=
        step_down lines mode (.single name position) character
      rw [scan_cons, scan_cons, stepped, after_down, List.map_append, ← induction]

/-! ## The end of a line -/

/-- A newline is part of no token. -/
theorem extend_newline (lexeme : Lexeme) : lexeme.extend '\n' = .ended := by
  cases lexeme <;> rfl

theorem step_newline (mode : LexerMode) (here : Location) :
    (mode.step here '\n').2 = .between := by
  cases mode with
  | between => rfl
  | comment => rfl
  | recovering => rfl
  | within lexeme first last =>
      simp only [step, extend_newline]
      split <;> rfl

theorem scan_newline (mode : LexerMode) (name : String) (position : Position) :
    mode.scan name position ['\n'] = (mode.step (.single name position) '\n').1 := by
  rw [scan_cons, step_newline]
  exact List.append_nil _

/-- Behind the end of a line the lexer goes on as at the beginning of a source. -/
theorem run_line {line : List Char} (noNewline : '\n' ∉ line) (mode : LexerMode) (name : String)
    (position : Position) (rest : List (Option Char)) :
    mode.run (.single name position)
        (Item.locate name position (line.map some ++ some '\n' :: rest)) =
      mode.scan name position (line ++ ['\n']) ++
        between.run (.single name position.newline)
          (Item.locate name position.newline rest) := by
  induction line generalizing mode position with
  | nil =>
      rw [List.nil_append, scan_newline]
      refine congrArg (_ ++ ·) ?_
      rw [step_newline]
      rfl
  | cons character line induction =>
      rw [List.mem_cons, not_or] at noNewline
      have later := induction noNewline.2 (mode.step (.single name position) character).2
        (position.after character)
      have newline : (position.after character).newline = position.newline := by
        rw [Position.newline, Position.line_after (Ne.symm noNewline.1), Position.newline]
      rw [newline] at later
      rw [List.cons_append, scan_cons, List.append_assoc, ← later]
      rfl

/-! ## The outcomes of a line -/

theorem enter_outcomes (here : Location) (character : Char) :
    (enter here character).1 = [] ∨
      ∃ error, (enter here character).1 = [.error { value := error, location := here }] ∧
        (enter here character).2 = recover character := by
  unfold enter
  split
  · exact .inl rfl
  · split
    · exact .inl rfl
    · exact .inr ⟨_, rfl, rfl⟩

/-- A character completes tokens, or shows an error behind them and is skipped. -/
theorem step_outcomes (mode : LexerMode) (here : Location) (character : Char) :
    ∃ tokens : List (Located Token), (mode.step here character).1 = tokens.map .ok ∨
      ∃ error, (mode.step here character).1 =
          tokens.map .ok ++ [.error { value := error, location := here }] ∧
        (mode.step here character).2 = recover character := by
  cases mode with
  | between =>
      rcases enter_outcomes here character with nothing | fault
      · exact ⟨[], .inl nothing⟩
      · exact ⟨[], .inr fault⟩
  | comment => exact ⟨[], .inl rfl⟩
  | recovering => exact ⟨[], .inl rfl⟩
  | within lexeme first last =>
      simp only [step]
      split
      · exact ⟨[], .inl rfl⟩
      · exact ⟨[], .inl rfl⟩
      · exact ⟨[], .inr ⟨_, rfl, rfl⟩⟩
      · split
        · next token _ =>
            refine ⟨[{ value := token, location := first.span last }], ?_⟩
            rcases enter_outcomes here character with nothing | ⟨error, fault, skipped⟩
            · exact .inl (by simp [nothing])
            · exact .inr ⟨error, by simp [fault], skipped⟩
        · exact ⟨[], .inr ⟨_, rfl, rfl⟩⟩

theorem scan_recovering {line : List Char} (noNewline : '\n' ∉ line) (name : String)
    (position : Position) : recovering.scan name position (line ++ ['\n']) = [] := by
  induction line generalizing position with
  | nil => rfl
  | cons character line induction =>
      rw [List.mem_cons, not_or] at noNewline
      rw [List.cons_append, scan_cons]
      simp only [step, recover, if_neg (Ne.symm noNewline.1), List.nil_append]
      exact induction noNewline.2 (position.after character)

/-- A line gives tokens, and behind them at most one error, which lies on that line. -/
theorem scan_line_outcomes {line : List Char} (noNewline : '\n' ∉ line) (mode : LexerMode)
    (name : String) (position : Position) :
    ∃ (tokens : List (Located Token)) (error : Option (Located LexicalError)),
      mode.scan name position (line ++ ['\n']) = tokens.map .ok ++ error.toList.map .error ∧
        ∀ fault ∈ error, fault.location.start.line = position.line := by
  induction line generalizing mode position with
  | nil =>
      rw [List.nil_append, scan_newline]
      rcases step_outcomes mode (.single name position) '\n' with
        ⟨tokens, delivered | ⟨error, delivered, -⟩⟩
      · exact ⟨tokens, none, by simp [delivered], by simp⟩
      · exact ⟨tokens, some _, delivered, by simp [Location.single]⟩
  | cons character line induction =>
      rw [List.mem_cons, not_or] at noNewline
      rw [List.cons_append, scan_cons]
      rcases step_outcomes mode (.single name position) character with
        ⟨tokens, delivered | ⟨error, delivered, skipped⟩⟩
      · rcases induction noNewline.2 (mode.step (.single name position) character).2
          (position.after character) with ⟨later, error, rest, onLine⟩
        rw [Position.line_after (Ne.symm noNewline.1)] at onLine
        exact ⟨tokens ++ later, error, by simp [delivered, rest], onLine⟩
      · rw [recover, if_neg (Ne.symm noNewline.1)] at skipped
        rw [skipped, scan_recovering noNewline.2, List.append_nil]
        exact ⟨tokens, some _, delivered, by simp [Location.single]⟩

end LexerMode

/-! ## Sources -/

/-- All that the lexer delivers for a source. -/
def Source.lexed (source : Source) : List Lexed :=
  lex source.start source.items

namespace Line

/-- All that the lexer delivers for a line that is a source of its own. -/
def lexed (name line : String) : List Lexed :=
  (Source.ofBytes name (utf8 line)).lexed

/-- Whether a line cannot be read, or has an error in it. -/
def isFaulty (name : String) : Option String → Bool
  | none => true
  | some line => (lexed name line).any fun outcome => (Lexed.error? outcome).isSome

/-- The numbers of the faulty lines below some others, up to the first line that cannot
be read. -/
def faultyNumbers (name : String) (above : Nat) (lines : List (Option String)) : List Nat :=
  (((lines.take ((readable lines).length + 1)).zipIdx (above + 1)).filter fun entry =>
    isFaulty name entry.1).map Prod.snd

/-- The error for the first line that cannot be read, if there is one below some others. -/
def inputErrors (name : String) (above : Nat) (lines : List (Option String)) : List Lexed :=
  if (readable lines).length < lines.length then
    [.error { value := .input .unreadable,
              location := .single name { line := above + (readable lines).length + 1 } }]
  else
    []

theorem lexed_eq_scan {line : String} (noNewline : '\n' ∉ line.toList) (name : String) :
    lexed name line = LexerMode.between.scan name {} (line.toList ++ ['\n']) := by
  by_cases empty : line.toList = []
  · have noBytes : utf8 line = [] := by
      rw [utf8_eq_flatMap, empty, List.flatMap_nil]
    rw [lexed, noBytes, empty]
    rfl
  · rw [lexed, Source.ofBytes_utf8 name empty noNewline]
    simp [Source.lexed, lex, LexerMode.scan, Source.items, Source.start, characters]

theorem lexed_outcomes {line : String} (noNewline : '\n' ∉ line.toList) (name : String) :
    ∃ (tokens : List (Located Token)) (error : Option (Located LexicalError)),
      lexed name line = tokens.map .ok ++ error.toList.map .error ∧
        ∀ fault ∈ error, fault.location.start.line = 1 := by
  rw [lexed_eq_scan noNewline]
  exact LexerMode.scan_line_outcomes noNewline .between name {}

/-- Below some others, a line gives what it gives by itself, further down. -/
theorem scan_below {line : String} (noNewline : '\n' ∉ line.toList) (name : String)
    (above : Nat) :
    LexerMode.between.scan name (Position.down above {}) (line.toList ++ ['\n']) =
      (lexed name line).map (Lexed.down above) := by
  rw [lexed_eq_scan noNewline]
  exact LexerMode.scan_down above .between name {} _

theorem inputErrors_cons (name : String) (above : Nat) (line : String)
    (rest : List (Option String)) :
    inputErrors name above (some line :: rest) = inputErrors name (above + 1) rest := by
  have number : above + ((readable rest).length + 1) + 1 =
      above + 1 + (readable rest).length + 1 := by
    omega
  simp only [inputErrors, readable, List.length_cons, Nat.add_lt_add_iff_right, number]

/-- Lines below some others give what each of them gives by itself, further down. -/
theorem run_characters (name : String) (above : Nat) {lines : List (Option String)}
    (noNewlines : ∀ line, some line ∈ lines → '\n' ∉ line.toList) :
    LexerMode.between.run (.single name (Position.down above {}))
        (Item.locate name (Position.down above {}) (characters lines)) =
      ((readable lines).zipIdx above).flatMap
          (fun entry => (lexed name entry.1).map (Lexed.down entry.2)) ++
        inputErrors name above lines := by
  induction lines generalizing above with
  | nil => rfl
  | cons line rest induction =>
      cases line with
      | none =>
          have failed : inputErrors name above (none :: rest) = [.error
              { value := .input .unreadable
                location := .single name (Position.down above {}) }] := by
            simp [inputErrors, readable, Position.down, Nat.add_comm]
          rw [failed]
          rfl
      | some line =>
          have noNewline := noNewlines line List.mem_cons_self
          have later := induction (above + 1) fun other member =>
            noNewlines other (List.mem_cons_of_mem _ member)
          rw [characters, LexerMode.run_line noNewline, scan_below noNewline, readable,
            List.zipIdx_cons, List.flatMap_cons, inputErrors_cons, List.append_assoc, ← later]
          rfl

/-! ## Faulty lines -/

theorem errors_of_line {line : String} (noNewline : '\n' ∉ line.toList) (name : String)
    (above : Nat) :
    (((lexed name line).map (Lexed.down above)).filterMap Lexed.error?).map
        (fun error => error.location.start.line) =
      if isFaulty name (some line) then [above + 1] else [] := by
  rcases lexed_outcomes noNewline name with ⟨tokens, error, outcomes, onLine⟩
  have noError : ∀ located : List (Located Token),
      (located.map (Except.ok : _ → Lexed)).filterMap Lexed.error? = [] := by
    intro located
    simp [List.filterMap_map, Function.comp_def, Lexed.error?]
  have moved : (tokens.map (Except.ok : _ → Lexed)).map (Lexed.down above) =
      (tokens.map (Located.down above)).map .ok := by
    simp [Lexed.down]
  cases error with
  | none =>
      have sound : isFaulty name (some line) = false := by
        simp [isFaulty, outcomes, Lexed.error?]
      rw [outcomes, sound, List.map_append, moved, List.filterMap_append, noError]
      rfl
  | some fault =>
      have faulty : isFaulty name (some line) = true := by
        simp [isFaulty, outcomes, Lexed.error?]
      have number : (fault.down above).location.start.line = above + 1 := by
        rw [Nat.add_comm, ← onLine fault rfl]
        rfl
      rw [outcomes, faulty, List.map_append, moved, List.filterMap_append, noError]
      simp [Lexed.down, Lexed.error?, number]

theorem faultyNumbers_cons (name : String) (above : Nat) (line : String)
    (rest : List (Option String)) :
    faultyNumbers name above (some line :: rest) =
      (if isFaulty name (some line) then [above + 1] else []) ++
        faultyNumbers name (above + 1) rest := by
  simp only [faultyNumbers, readable, List.length_cons, List.take_succ_cons, List.zipIdx_cons,
    List.filter_cons]
  split <;> rfl

/-- Every faulty line that is reached has one error, and the lines without fault have none. -/
theorem errors_of_lines (name : String) (above : Nat) {lines : List (Option String)}
    (noNewlines : ∀ line, some line ∈ lines → '\n' ∉ line.toList) :
    ((((readable lines).zipIdx above).flatMap
          (fun entry => (lexed name entry.1).map (Lexed.down entry.2)) ++
        inputErrors name above lines).filterMap Lexed.error?).map
        (fun error => error.location.start.line) =
      faultyNumbers name above lines := by
  induction lines generalizing above with
  | nil => rfl
  | cons line rest induction =>
      cases line with
      | none => simp [faultyNumbers, inputErrors, readable, isFaulty, Lexed.error?, Location.single]
      | some line =>
          have later := induction (above + 1) fun other member =>
            noNewlines other (List.mem_cons_of_mem _ member)
          rw [readable, List.zipIdx_cons, List.flatMap_cons, inputErrors_cons, List.append_assoc,
            List.filterMap_append, List.map_append, later, faultyNumbers_cons,
            errors_of_line (noNewlines line List.mem_cons_self)]

theorem faultyNumbers_eq_nil_iff (name : String) (above : Nat) (lines : List (Option String)) :
    faultyNumbers name above lines = [] ↔ ∀ line ∈ lines, isFaulty name line = false := by
  induction lines generalizing above with
  | nil => simp [faultyNumbers]
  | cons line rest induction =>
      cases line with
      | none => simp [faultyNumbers, readable, isFaulty]
      | some line =>
          rw [faultyNumbers_cons, List.append_eq_nil_iff, induction, List.forall_mem_cons]
          simp

end Line

namespace Lexed

theorem collect_eq_ite (outcomes : List Lexed) :
    collect outcomes =
      if outcomes.filterMap error? = [] then .ok (outcomes.filterMap token?)
      else .error (outcomes.filterMap error?) := by
  unfold collect
  cases outcomes.filterMap error? with
  | nil => rfl
  | cons error errors => rfl

theorem eq_map_token? {outcomes : List Lexed} (noErrors : outcomes.filterMap error? = []) :
    outcomes = (outcomes.filterMap token?).map .ok := by
  induction outcomes with
  | nil => rfl
  | cons outcome rest induction =>
      cases outcome with
      | error error => cases noErrors
      | ok token => exact congrArg (Except.ok token :: ·) (induction noErrors)

/-- Without an error, nothing but the tokens is delivered. -/
theorem eq_map_ok_of_collect {outcomes : List Lexed} {tokens : List (Located Token)}
    (collected : collect outcomes = .ok tokens) : outcomes = tokens.map .ok := by
  rw [collect_eq_ite] at collected
  split at collected
  · next noErrors =>
      cases collected
      exact eq_map_token? noErrors
  · cases collected

end Lexed

namespace Source

/-- A source is lexed line by line. -/
structure LexedByLine (source : Source) : Prop where
  /-- Each line gives what it gives by itself, further down. The first line that cannot be
  read gives one error at its beginning, and nothing follows. -/
  outcomes : source.lexed =
    (source.readable.zipIdx.flatMap fun entry =>
      (Line.lexed source.name entry.1).map (Lexed.down entry.2)) ++
    if source.readable.length < source.lines.length then
      [.error { value := .input .unreadable,
                location := .single source.name ⟨source.readable.length + 1, 1⟩ }]
    else
      []
  /-- A line gives tokens, and behind them at most one error. -/
  ofLine : ∀ line, some line ∈ source.lines →
    ∃ (tokens : List (Located Token)) (error : Option (Located LexicalError)),
      Line.lexed source.name line = tokens.map .ok ++ error.toList.map .error
  /-- The tokens are found if no line is faulty. -/
  succeeds : (∃ tokens, source.tokens = .ok tokens) ↔
    ∀ line ∈ source.lines, Line.isFaulty source.name line = false
  /-- Otherwise there is one error for each faulty line that is read, in their order. -/
  fails : ∀ errors, source.tokens = .error errors →
    errors = source.lexed.filterMap Lexed.error? ∧
      errors.map (fun error => error.location.start.line) =
        Line.faultyNumbers source.name 0 source.lines

theorem lexedByLine_ofBytes (name : String) (bytes : List UInt8) :
    (Source.ofBytes name bytes).LexedByLine := by
  have noNewlines : ∀ line, some line ∈ (Source.ofBytes name bytes).lines →
      '\n' ∉ line.toList := fun line member =>
    newline_not_mem_of_mem_lines member
  have whole : (Source.ofBytes name bytes).lexed = _ := Line.run_characters name 0 noNewlines
  have numbers := Line.errors_of_lines name 0 noNewlines
  rw [← whole] at numbers
  have collected : (Source.ofBytes name bytes).tokens = _ := Lexed.collect_eq_ite _
  refine ⟨?_, ?_, ?_, ?_⟩
  · rw [whole, Line.inputErrors, Nat.zero_add]
    rfl
  · intro line member
    rcases Line.lexed_outcomes (noNewlines line member) name with ⟨tokens, error, outcomes, -⟩
    exact ⟨tokens, error, outcomes⟩
  · change _ ↔ ∀ line ∈ _, Line.isFaulty name line = false
    rw [← Line.faultyNumbers_eq_nil_iff name 0, ← numbers, List.map_eq_nil_iff, collected]
    split
    · next noErrors =>
        exact iff_of_true ⟨_, rfl⟩ noErrors
    · next errors =>
        exact iff_of_false (by simp) errors
  · intro errors failed
    rw [collected] at failed
    split at failed
    · cases failed
    · cases failed
      exact ⟨rfl, numbers⟩

end Source

end Firmware
