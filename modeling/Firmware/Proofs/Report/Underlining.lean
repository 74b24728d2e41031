import Firmware.Build
import Firmware.Proofs.Program.EarliestError
import Firmware.Proofs.Token.Partition

/-! # What a report underlines

An error of a text lies on one of its lines. The report shows that line, and carets below the
columns that the error is about: the character that starts no token, the digit that makes an
integer too large, the place where `=` is missing, the end of a line inside a text, and for a
syntax error the characters of a token. -/

namespace Firmware

/-- One line of a source with carets below the columns from `first` to `last`. -/
structure Excerpt where
  location : Location
  number : Nat
  line : String
  first : Nat
  last : Nat

namespace Excerpt

def margin (excerpt : Excerpt) : String :=
  repeated (toString excerpt.number).length ' '

/-- The place of the excerpt, a row without text, the line and the row of carets. -/
def render (excerpt : Excerpt) : String :=
  " --> " ++ excerpt.location.render ++ "\n" ++
    (excerpt.margin ++ " |\n") ++
    (toString excerpt.number ++ " | " ++ excerpt.line ++ "\n") ++
    (excerpt.margin ++ " | " ++ (repeated (excerpt.first - 1) ' ' ++
      repeated (excerpt.last + 1 - excerpt.first) '^') ++ "\n")

/-- The characters of the line with their positions. -/
def row (excerpt : Excerpt) : List (Position × Char) :=
  Line.placed ⟨excerpt.number, 1⟩ excerpt.line.toList

/-- The line is the one that the location starts on. It is empty if there are no lines. -/
def ShowsLineOf (excerpt : Excerpt) (source : Source) : Prop :=
  excerpt.number = excerpt.location.start.line ∧
    ((∃ index, excerpt.number = index + 1 ∧ source.lines[index]? = some (some excerpt.line)) ∨
      source.lines = [] ∧ excerpt.number = 1 ∧ excerpt.line = "")

/-- The carets stand below one column, at which the line has a given character. -/
def MarksCharacter (excerpt : Excerpt) (character : Char) : Prop :=
  excerpt.last = excerpt.first ∧ (⟨excerpt.number, excerpt.first⟩, character) ∈ excerpt.row

/-- The carets stand below the columns of what a lexical error is about. -/
def MarksError (excerpt : Excerpt) : LexicalError → Prop
  | .input _ => False
  | .badCharacter character => excerpt.MarksCharacter character
  | .integerOverflow => ∃ digit, digit.isDigit = true ∧ excerpt.MarksCharacter digit
  | .expected character => character = '=' ∧ ¬ excerpt.MarksCharacter '=' ∧
      excerpt.last = excerpt.first ∧ ∃ column, excerpt.first = column + 1 ∧
        (⟨excerpt.number, column⟩, '!') ∈ excerpt.row
  | .unterminatedText => excerpt.last = excerpt.first ∧
      excerpt.first = (Position.past ⟨excerpt.number, 1⟩ excerpt.line.toList).column

/-- The carets go from the first to the last character of a token. -/
def MarksToken (excerpt : Excerpt) (token : Located Token) : Prop :=
  let piece := excerpt.row.filter fun entry => token.location.Covers entry.1
  token.value.HasSpelling (piece.map Prod.snd) ∧
    piece.head?.map (·.1.column) = some excerpt.first ∧
    piece.getLast?.map (·.1.column) = some excerpt.last

end Excerpt

/-- The excerpt of a source at a location on one line. -/
def Source.excerpt (source : Source) (location : Location) : Excerpt :=
  { location
    number := location.start.line
    line := Line.numbered source.readable location.start.line
    first := location.start.column
    last := location.stop.column - 1 }

namespace Rejection

/-- The messages and locations of the errors that have one. -/
def faults : Rejection → List (String × Location)
  | .lexical errors => errors.map fun error => (error.value.message, error.location)
  | .syntactic error => [(error.value.message, error.location)]
  | .semantic _ => []

/-- The report on a source underlines what is wrong with it. -/
structure Underlined (source : Source) (rejection : Rejection) : Prop where
  /-- The report has one excerpt of one line for each error. -/
  report : (rejection.report source).render =
    String.join (rejection.faults.map fun fault =>
      rejection.kind ++ ": " ++ fault.1 ++ "\n" ++ (source.excerpt fault.2).render ++ "\n") ++
    "Build failed with " ++ toString rejection.faults.length ++
      (if rejection.faults.length = 1 then " error" else " errors") ++ "\n"
  /-- The line is the one that the error lies on. -/
  shown : ∀ fault ∈ rejection.faults, (source.excerpt fault.2).ShowsLineOf source
  /-- A lexical error is underlined. -/
  lexical : ∀ errors, rejection = .lexical errors → ∀ error ∈ errors,
    (source.excerpt error.location).MarksError error.value
  /-- A syntax error underlines a token if there is one. -/
  syntactic : ∀ error, rejection = .syntactic error → ∃ tokens, source.tokens = .ok tokens ∧
    (tokens ≠ [] → ∃ token ∈ tokens, (source.excerpt error.location).MarksToken token)

end Rejection

/-! ## Excerpts of one line -/

theorem repeated_zero (character : Char) : repeated 0 character = "" := by
  rw [repeated, List.replicate_zero, String.ofList_nil]

namespace Place

variable {place : Place}

theorem row_of_label {label : String} (fits : label.length = place.gutter) (text : String) :
    place.row label (" " ++ text) = label ++ " | " ++ text ++ "\n" := by
  have bar : " | " = " |" ++ " " := by simp
  rw [row, fits, Nat.sub_self, repeated_zero, String.empty_append, bar]
  simp only [String.append_assoc]

theorem row_of_margin (place : Place) (text : String) :
    place.row "" (" " ++ text) = repeated place.gutter ' ' ++ " | " ++ text ++ "\n" := by
  have bar : " | " = " |" ++ " " := by simp
  rw [row, String.length_empty, Nat.sub_zero, String.append_empty, bar]
  simp only [String.append_assoc]

theorem row_of_nothing (place : Place) :
    place.row "" "" = repeated place.gutter ' ' ++ " |\n" := by
  have bar : " |\n" = " |" ++ "\n" := by simp
  rw [row, String.length_empty, Nat.sub_zero, String.append_empty, String.append_empty, bar]
  simp only [String.append_assoc]

/-- A place on one line gives the row of that line, and carets below all its columns. -/
theorem excerpt_of_line (sameLine : place.location.stop.line = place.location.start.line)
    (positive : 1 ≤ place.location.start.column)
    (wide : place.location.start.column < place.location.stop.column) :
    place.excerpt = Excerpt.render
      { location := place.location
        number := place.location.start.line
        line := Line.numbered place.lines place.location.start.line
        first := place.location.start.column
        last := place.location.stop.column - 1 } := by
  have gutter : place.gutter = (toString place.location.start.line).length := by
    rw [Place.gutter, sameLine]
  have numbers : place.numbers = [place.location.start.line] := by
    rw [Place.numbers, sameLine, Nat.add_sub_cancel_left]
    rfl
  have back : place.location.stop.back.column = place.location.stop.column - 1 := by
    change max (place.location.stop.column - 1) 1 = _
    omega
  have firstCaret : place.firstCaret = place.location.start.column := by
    rw [Place.firstCaret, back]
    omega
  have carets : place.lastCaret - place.firstCaret + 1 =
      place.location.stop.column - 1 + 1 - place.location.start.column := by
    rw [firstCaret, Place.lastCaret, back]
    omega
  have sourceRow : place.sourceRow place.location.start.line =
      toString place.location.start.line ++ " | " ++
        Line.numbered place.lines place.location.start.line ++ "\n" :=
    row_of_label gutter.symm _
  have caretRow : place.caretRow = repeated place.gutter ' ' ++ " | " ++
      (repeated (place.firstCaret - 1) ' ' ++
        repeated (place.lastCaret - place.firstCaret + 1) '^') ++ "\n" := by
    rw [Place.caretRow, String.append_assoc, row_of_margin]
  have sourceRows : String.join (place.numbers.map place.sourceRow) =
      place.sourceRow place.location.start.line := by
    rw [numbers, List.map_singleton, String.join_cons, String.join_nil, String.append_empty]
  -- Both sides are bracketed row by row, so the texts need not be put together.
  rw [Place.excerpt, sourceRows, sourceRow, caretRow, row_of_nothing, carets, firstCaret, gutter]
  rw [Excerpt.render, Excerpt.margin]

example : Place.excerpt ⟨⟨"blink", ⟨2, 5⟩, ⟨2, 8⟩⟩, ["config", "\tled = 1"]⟩ =
    " --> blink:[2:5-2:7]\n  |\n2 | \tled = 1\n  |     ^^^\n" := by
  decide +kernel

end Place

/-! ## Errors on a line -/

namespace Source

/-- A location has some width on one line, which its excerpt shows. -/
structure LiesOnLine (source : Source) (location : Location) : Prop where
  sameLine : location.stop.line = location.start.line
  positive : 1 ≤ location.start.column
  wide : location.start.column < location.stop.column
  shown : (source.excerpt location).ShowsLineOf source

section Piece

variable {source : Source} {name : String} {index : Nat} {line : String}
  {before rest : List Char} {stop : Position}

theorem excerpt_of_piece (name : String) (isLine : source.readable[index]? = some line)
    (split : line.toList = before ++ rest) (noNewline : '\n' ∉ line.toList) (stop : Position) :
    source.excerpt ⟨name, Position.past ⟨index + 1, 1⟩ before, stop⟩ =
      { location := ⟨name, Position.past ⟨index + 1, 1⟩ before, stop⟩
        number := index + 1
        line
        first := (Position.past ⟨index + 1, 1⟩ before).column
        last := stop.column - 1 } := by
  rw [split, List.mem_append, not_or] at noNewline
  simp only [excerpt, Position.line_past noNewline.1, Line.numbered_of_getElem? isLine]

/-- A piece of a line lies on that line. -/
theorem liesOnLine_of_piece (allRead : source.lines = source.readable.map some)
    (isLine : source.readable[index]? = some line)
    (split : line.toList = before ++ rest) (noNewline : '\n' ∉ line.toList)
    (sameLine : stop.line = index + 1)
    (wide : (Position.past ⟨index + 1, 1⟩ before).column < stop.column) :
    source.LiesOnLine ⟨name, Position.past ⟨index + 1, 1⟩ before, stop⟩ := by
  have noNewlineBefore : '\n' ∉ before := by
    rw [split, List.mem_append, not_or] at noNewline
    exact noNewline.1
  have startLine := Position.line_past noNewlineBefore ⟨index + 1, 1⟩
  refine ⟨sameLine.trans startLine.symm, Position.one_le_column_past le_rfl before, wide, ?_⟩
  rw [excerpt_of_piece name isLine split noNewline]
  refine ⟨startLine.symm, .inl ⟨index, rfl, ?_⟩⟩
  rw [allRead, List.getElem?_map, isLine]
  rfl

/-- The start of a source lies on its first line. -/
theorem liesOnLine_start (allRead : source.lines = source.readable.map some) :
    source.LiesOnLine source.start := by
  refine ⟨rfl, le_rfl, Nat.lt_succ_self 1, rfl, ?_⟩
  cases lines : source.readable with
  | nil =>
      right
      rw [lines] at allRead
      refine ⟨allRead, rfl, ?_⟩
      simp [excerpt, lines, Line.numbered]
  | cons line rest =>
      left
      refine ⟨0, rfl, ?_⟩
      rw [allRead, lines]
      simp [excerpt, lines, Line.numbered, start, Location.single]

end Piece

variable {name : String} {text : String}

/-- Every lexical error of a text is shown by a piece of a line. -/
theorem exists_piece_of_mem_errors {errors : List (Located LexicalError)}
    (failed : (Source.ofBytes name (utf8 text)).tokens = .error errors)
    {error : Located LexicalError} (member : error ∈ errors) :
    ∃ index line before characters rest,
      (Source.ofBytes name (utf8 text)).readable[index]? = some line ∧
      line.toList = before ++ (characters ++ rest) ∧ '\n' ∉ line.toList ∧
      error.value.Shown characters rest ∧
      error.location = .single name (Position.past ⟨index + 1, 1⟩ (before ++ characters)) := by
  have delivered : .error error ∈ (Source.ofBytes name (utf8 text)).lexed := by
    rw [tokens, Lexed.collect_eq_ite] at failed
    split at failed
    · cases failed
    · cases failed
      rcases List.mem_filterMap.mp member with ⟨outcome, isOutcome, isError⟩
      cases outcome with
      | ok token => cases isError
      | error other =>
          cases isError
          exact isOutcome
  have noInputErrors : Line.inputErrors name 0 (Source.ofBytes name (utf8 text)).lines = [] := by
    rw [Line.inputErrors, lines_ofBytes_utf8, Line.readable_map_some, List.length_map,
      if_neg (lt_irrefl _)]
  rcases exists_line_of_mem_lexed delivered with ⟨index, line, isLine, onLine⟩ | input
  · have noNewline := newline_not_mem_of_mem_readable (List.mem_of_getElem? isLine)
    rcases (Line.reads_outcomes noNewline name (index + 1)).exists_piece onLine with
      ⟨before, characters, rest, split, shown, located⟩
    exact ⟨index, line, before, characters, rest, isLine, split, noNewline, shown, located⟩
  · rw [noInputErrors] at input
    cases input

/-- An error is underlined at the piece of a line that shows it. -/
theorem marksError_of_piece {source : Source} {index : Nat} {line : String}
    {before characters rest : List Char} {error : LexicalError}
    (isLine : source.readable[index]? = some line)
    (split : line.toList = before ++ (characters ++ rest)) (noNewline : '\n' ∉ line.toList)
    (shown : error.Shown characters rest) :
    (source.excerpt (.single name (Position.past ⟨index + 1, 1⟩ (before ++ characters)))).MarksError
      error := by
  have absent : '\n' ∉ before ∧ '\n' ∉ before ++ characters := by
    rw [split] at noNewline
    simp only [List.mem_append, not_or] at noNewline ⊢
    exact ⟨noNewline.1, noNewline.1, noNewline.2.1⟩
  have around : line.toList = (before ++ characters) ++ rest := by
    rw [split, List.append_assoc]
  rw [Location.single, excerpt_of_piece name isLine around noNewline]
  have marks : ∀ character,
      (⟨index + 1, (Position.past ⟨index + 1, 1⟩ (before ++ characters)).column⟩, character) ∈
        Line.placed ⟨index + 1, 1⟩ line.toList ↔ rest.head? = some character := by
    intro character
    rw [Position.mk_column_past absent.2, around]
    exact Line.mem_placed_past
  cases shown with
  | badCharacter => exact ⟨rfl, (marks _).mpr rfl⟩
  | integerOverflow _ digit => exact ⟨_, digit, rfl, (marks _).mpr rfl⟩
  | expected other =>
      refine ⟨rfl, ?_, rfl, (Position.past ⟨index + 1, 1⟩ before).column, ?_, ?_⟩
      · intro equals
        exact other ((marks '=').mp equals.2)
      · rw [Position.past_append]
        rfl
      · rw [Excerpt.row, Position.mk_column_past absent.1, split]
        exact Line.mem_placed_past.mpr rfl
  | unterminatedText =>
      refine ⟨rfl, ?_⟩
      rw [around, List.append_nil]

/-- The location of a token is underlined from its first to its last character. -/
theorem marksToken_of_mem_tokens {bytes : List UInt8} {tokens : List (Located Token)}
    (found : (Source.ofBytes name bytes).tokens = .ok tokens) {token : Located Token}
    (member : token ∈ tokens) :
    ((Source.ofBytes name bytes).excerpt token.location).MarksToken token := by
  rcases exists_piece_of_mem_tokens found member with
    ⟨index, line, before, characters, rest, isLine, split, spelled, located⟩
  have noNewline := newline_not_mem_of_mem_readable (List.mem_of_getElem? isLine)
  have piece : (Line.placed ⟨index + 1, 1⟩ line.toList).filter
      (fun entry => token.location.Covers entry.1) =
        Line.placed (Position.past ⟨index + 1, 1⟩ before) characters := by
    rw [located, split]
    exact Line.filter_covers name _ before characters rest
  have excerpt := excerpt_of_piece name isLine split noNewline
    (Position.past ⟨index + 1, 1⟩ (before ++ characters))
  rw [← located] at excerpt
  rw [excerpt, Excerpt.MarksToken, Excerpt.row, piece]
  have head := Line.head?_placed (Position.past ⟨index + 1, 1⟩ before) spelled.ne_nil
  have last := Line.getLast?_placed (Position.past ⟨index + 1, 1⟩ before) spelled.ne_nil
  refine ⟨?_, ?_, ?_⟩
  · rw [Line.map_snd_placed]
    exact spelled.hasSpelling
  · have columns := congrArg (Option.map Position.column) head
    rwa [Option.map_map] at columns
  · have columns := congrArg (Option.map Position.column) last
    rw [Option.map_map] at columns
    rw [Position.past_append, ← spelled.advance_past_dropLast]
    exact columns

/-- A syntax error lies at a token if there is one. -/
theorem exists_token_of_parse_error {start : Location} {tokens : List (Located Token)}
    {error : Located SyntaxError} (failed : parse start tokens = .error error) :
    (∃ token ∈ tokens, error.location = token.location) ∨
      tokens = [] ∧ error.location = start := by
  rcases Draft.read_eq_error_cases failed with
    ⟨before, token, after, -, rfl, -, -, located⟩ | ⟨-, -, -, located⟩
  · exact .inl ⟨token, by simp, located⟩
  · rw [Draft.lastLocation] at located
    cases last : tokens.getLast? with
    | none =>
        rw [last] at located
        exact .inr ⟨List.getLast?_eq_none_iff.mp last, located⟩
    | some token =>
        rw [last] at located
        exact .inl ⟨token, List.mem_of_getLast? last, located⟩

theorem program_eq_error_cases {source : Source} {rejection : Rejection}
    (rejected : source.program = .error rejection) :
    (∃ errors, source.tokens = .error errors ∧ rejection = .lexical errors) ∨
      ∃ tokens error, source.tokens = .ok tokens ∧ parse source.start tokens = .error error ∧
        rejection = .syntactic error := by
  rw [program] at rejected
  cases found : source.tokens with
  | error errors =>
      rw [found] at rejected
      cases rejected
      exact .inl ⟨errors, rfl, rfl⟩
  | ok tokens =>
      rw [found] at rejected
      change (parse source.start tokens).mapError .syntactic = .error rejection at rejected
      cases parsed : parse source.start tokens with
      | ok program =>
          rw [parsed] at rejected
          cases rejected
      | error error =>
          rw [parsed] at rejected
          cases rejected
          exact .inr ⟨tokens, error, rfl, parsed, rfl⟩

theorem ne_nil_of_tokens_eq_error {source : Source} {errors : List (Located LexicalError)}
    (failed : source.tokens = .error errors) : errors ≠ [] := by
  rw [tokens, Lexed.collect_eq_ite] at failed
  split at failed
  · cases failed
  · next nonempty =>
      cases failed
      exact nonempty

theorem liesOnLine_of_mem_errors {errors : List (Located LexicalError)}
    (failed : (Source.ofBytes name (utf8 text)).tokens = .error errors)
    {error : Located LexicalError} (member : error ∈ errors) :
    (Source.ofBytes name (utf8 text)).LiesOnLine error.location := by
  rcases exists_piece_of_mem_errors failed member with
    ⟨index, line, before, characters, rest, isLine, split, noNewline, -, located⟩
  rw [located]
  rw [← List.append_assoc] at split
  have sameLine : (Position.past ⟨index + 1, 1⟩ (before ++ characters)).line = index + 1 := by
    rw [split, List.mem_append, not_or] at noNewline
    exact Position.line_past noNewline.1 _
  exact liesOnLine_of_piece (lines_ofBytes_utf8 name text) isLine split noNewline sameLine
    (Nat.lt_succ_self _)

theorem liesOnLine_of_mem_tokens {bytes : List UInt8} {tokens : List (Located Token)}
    (found : (Source.ofBytes name bytes).tokens = .ok tokens) {token : Located Token}
    (member : token ∈ tokens) : (Source.ofBytes name bytes).LiesOnLine token.location := by
  rcases exists_piece_of_mem_tokens found member with
    ⟨index, line, before, characters, rest, isLine, split, spelled, located⟩
  have noNewline := newline_not_mem_of_mem_readable (List.mem_of_getElem? isLine)
  have wide := (token_onLine found member).2.2
  have sameLine : (Position.past ⟨index + 1, 1⟩ (before ++ characters)).line = index + 1 := by
    apply Position.line_past
    rw [split, ← List.append_assoc, List.mem_append, not_or] at noNewline
    exact noNewline.1
  rw [located] at wide ⊢
  exact liesOnLine_of_piece (lines_of_tokens found) isLine split noNewline sameLine wide

end Source

namespace Rejection

variable {source : Source} {rejection : Rejection}

theorem diagnostics_eq_map_faults (located : rejection.faults ≠ []) :
    rejection.diagnostics source =
      rejection.faults.map fun fault => source.diagnostic fault.1 fault.2 := by
  cases rejection with
  | lexical errors =>
      rw [diagnostics, faults, List.map_map]
      rfl
  | syntactic error => rfl
  | semantic error => contradiction

/-- A report on errors that lie on lines has an excerpt of one line for each of them. -/
theorem render_report (located : rejection.faults ≠ [])
    (onLine : ∀ fault ∈ rejection.faults, source.LiesOnLine fault.2) :
    (rejection.report source).render =
      String.join (rejection.faults.map fun fault =>
        rejection.kind ++ ": " ++ fault.1 ++ "\n" ++ (source.excerpt fault.2).render ++ "\n") ++
      "Build failed with " ++ toString rejection.faults.length ++
        (if rejection.faults.length = 1 then " error" else " errors") ++ "\n" := by
  have rows : (rejection.diagnostics source).map (·.render rejection.kind) =
      rejection.faults.map fun fault =>
        rejection.kind ++ ": " ++ fault.1 ++ "\n" ++ (source.excerpt fault.2).render ++ "\n" := by
    rw [diagnostics_eq_map_faults located, List.map_map]
    apply List.map_congr_left
    intro fault member
    have lies := onLine fault member
    have excerpt : Place.excerpt ⟨fault.2, source.readable⟩ = (source.excerpt fault.2).render :=
      Place.excerpt_of_line lies.sameLine lies.positive lies.wide
    rw [← excerpt]
    rfl
  have count : (rejection.diagnostics source).length = rejection.faults.length := by
    rw [diagnostics_eq_map_faults located, List.length_map]
  have some : (rejection.diagnostics source).isEmpty = false := by
    rw [diagnostics_eq_map_faults located, List.isEmpty_map]
    simpa using located
  rw [Report.render, report, some, if_neg Bool.false_ne_true, rows, count]

end Rejection

namespace Source

variable {name text : String} {rejection : Rejection}

/-- The report on a text that is no program underlines its lexical errors, or the token at
which it ceases to be one. -/
theorem rejection_underlined
    (rejected : (Source.ofBytes name (utf8 text)).program = .error rejection) :
    rejection.Underlined (Source.ofBytes name (utf8 text)) := by
  rcases program_eq_error_cases rejected with
    ⟨errors, failed, rfl⟩ | ⟨tokens, error, found, failed, rfl⟩
  · have nonempty : (Rejection.lexical errors).faults ≠ [] := by
      rw [Rejection.faults, Ne, List.map_eq_nil_iff]
      exact ne_nil_of_tokens_eq_error failed
    have onLine : ∀ fault ∈ (Rejection.lexical errors).faults,
        (Source.ofBytes name (utf8 text)).LiesOnLine fault.2 := by
      intro fault member
      rcases List.mem_map.mp member with ⟨error, isError, rfl⟩
      exact liesOnLine_of_mem_errors failed isError
    refine ⟨Rejection.render_report nonempty onLine,
      fun fault member => (onLine fault member).shown, ?_, ?_⟩
    · intro others same error member
      cases same
      rcases exists_piece_of_mem_errors failed member with
        ⟨index, line, before, characters, rest, isLine, split, noNewline, shown, located⟩
      rw [located]
      exact marksError_of_piece isLine split noNewline shown
    · intro error same
      cases same
  · have lies : (Source.ofBytes name (utf8 text)).LiesOnLine error.location := by
      rcases exists_token_of_parse_error failed with ⟨token, member, located⟩ | ⟨-, located⟩
      · rw [located]
        exact liesOnLine_of_mem_tokens found member
      · rw [located]
        exact liesOnLine_start (lines_of_tokens found)
    have onLine : ∀ fault ∈ (Rejection.syntactic error).faults,
        (Source.ofBytes name (utf8 text)).LiesOnLine fault.2 := by
      intro fault member
      cases List.mem_singleton.mp member
      exact lies
    refine ⟨Rejection.render_report (List.cons_ne_nil _ _) onLine,
      fun fault member => (onLine fault member).shown, ?_, ?_⟩
    · intro errors same
      cases same
    · intro other same
      cases same
      refine ⟨tokens, found, fun nonempty => ?_⟩
      rcases exists_token_of_parse_error failed with ⟨token, member, located⟩ | ⟨empty, -⟩
      · refine ⟨token, member, ?_⟩
        rw [located]
        exact marksToken_of_mem_tokens found member
      · contradiction

/-- Of a text with four lexical errors all are underlined, and of one without any the text
with a tab that stands where the second block should. -/
theorem faulty_texts_underlined :
    let faulty := Source.ofBytes "faulty"
      (utf8 "\tx = \"open;\ny = 1 ! 2;\n\tz = 3 é;\n32767 99999999999")
    let errors : List (Located LexicalError) :=
      [⟨.unterminatedText, .single "faulty" ⟨1, 15⟩⟩, ⟨.expected '=', .single "faulty" ⟨2, 8⟩⟩,
        ⟨.badCharacter 'é', .single "faulty" ⟨3, 11⟩⟩, ⟨.integerOverflow, .single "faulty" ⟨4, 16⟩⟩]
    let broken := Source.ofBytes "broken" (utf8 "config fim\n\t\"a\tb\"")
    let error : Located SyntaxError :=
      ⟨.unexpectedToken (.keyword .repita) (.text "a\tb"), ⟨"broken", ⟨2, 5⟩, ⟨2, 11⟩⟩⟩
    (faulty.program = .error (.lexical errors) ∧ (Rejection.lexical errors).Underlined faulty) ∧
      broken.program = .error (.syntactic error) ∧
        (Rejection.syntactic error).Underlined broken := by
  intro faulty errors broken error
  have rejectedFaulty : faulty.program = .error (.lexical errors) := by
    decide +kernel
  have rejectedBroken : broken.program = .error (.syntactic error) := by
    decide +kernel
  exact ⟨⟨rejectedFaulty, rejection_underlined rejectedFaulty⟩, rejectedBroken,
    rejection_underlined rejectedBroken⟩

end Source

end Firmware
