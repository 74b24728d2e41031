import Firmware.Proofs.Token.Reading

/-! # Tokens divide a source

The tokens of a source that has no error lie on its lines one behind another, and the
characters inside the location of a token are a spelling of it, the longest that begins
there. What stands in no token is blank, except for a comment at the end of a line. -/

namespace Firmware

namespace Source

/-- The characters of a line with their positions. -/
def row (source : Source) (number : Nat) : List (Position × Char) :=
  Line.placed ⟨number, 1⟩ (Line.numbered source.readable number).toList

/-- The characters inside a location that lies on one line. -/
def covered (source : Source) (location : Location) : List (Position × Char) :=
  (source.row location.start.line).filter fun entry => location.Covers entry.1

/-- The characters from a position to the end of its line. -/
def onward (source : Source) (position : Position) : List (Position × Char) :=
  (source.row position.line).filter fun entry => position ≤ entry.1

/-- The characters of a line that no token covers. -/
def uncovered (source : Source) (tokens : List (Located Token)) (number : Nat) :
    List (Position × Char) :=
  (source.row number).filter fun entry => ∀ token ∈ tokens, ¬ token.location.Covers entry.1

/-- Tokens divide the lines of a source among them. -/
structure Divided (source : Source) (tokens : List (Located Token)) : Prop where
  /-- All lines can be read. -/
  readable : source.lines = source.readable.map some
  /-- A token lies on one line and has some width. -/
  onLine : ∀ token ∈ tokens, token.location.name = source.name ∧
    token.location.stop.line = token.location.start.line ∧
    token.location.start.column < token.location.stop.column
  /-- Tokens follow one another without overlap. -/
  ordered : tokens.Pairwise fun first second =>
    first.location.start < second.location.start ∧ first.location.stop ≤ second.location.start
  /-- The characters inside its location spell a token. -/
  spelled : ∀ token ∈ tokens, token.value.WellFormed ∧
    token.value.HasSpelling ((source.covered token.location).map Prod.snd)
  /-- No more characters of the line spell a token. -/
  longest : ∀ token ∈ tokens, ∀ longer,
    longer <+: (source.onward token.location.start).map Prod.snd →
    (source.covered token.location).length < longer.length →
    ∀ other : Token, other.WellFormed → ¬ other.HasSpelling longer
  /-- Without its tokens a line is blank up to a comment at its end. -/
  remainder : ∀ number, ∃ blanks remark,
    source.uncovered tokens number = blanks ++ remark ∧
    (∀ entry ∈ blanks, isBlank entry.2 = true) ∧
    remark <:+ source.row number ∧
    (remark = [] ∨ ['/', '/'] <+: remark.map Prod.snd)

end Source

/-! ## A single line -/

/-- The characters that no outcome covers. -/
def Line.uncovered (outcomes : List Lexed) (entries : List (Position × Char)) :
    List (Position × Char) :=
  entries.filter fun entry => ∀ outcome ∈ outcomes, ¬ (Lexed.location outcome).Covers entry.1

/-- Characters that go on behind a token are no spelling of a token. -/
theorem Token.Spelled.not_hasSpelling_of_prefix {token other : Token}
    {characters rest longer : List Char} (spelled : token.Spelled characters (rest.headD '\n'))
    (begins : longer <+: characters ++ rest) (exceeds : characters.length < longer.length)
    (wellFormed : other.WellFormed) : ¬ other.HasSpelling longer := by
  have shorter : characters <+: longer :=
    List.prefix_of_prefix_length_le (List.prefix_append _ _) begins exceeds.le
  rcases shorter with ⟨more, rfl⟩
  have behind : more <+: rest := (List.prefix_append_right_inj characters).mp begins
  cases more with
  | nil => simp at exceeds
  | cons next more =>
      rcases behind with ⟨others, rfl⟩
      exact spelled.longest wellFormed more

namespace Line.Reads

variable {name : String} {position : Position} {line : List Char} {outcomes : List Lexed}

/-- A line without an error consists of its tokens, blank characters and a comment. -/
theorem remainder (reads : Reads name position line outcomes)
    (noErrors : ∀ error, .error error ∉ outcomes) :
    ∃ blanks remark, uncovered outcomes (placed position line) = blanks ++ remark ∧
      (∀ entry ∈ blanks, isBlank entry.2 = true) ∧ remark <:+ placed position line ∧
      (remark = [] ∨ ['/', '/'] <+: remark.map Prod.snd) := by
  induction reads with
  | nil => exact ⟨[], [], rfl, by simp, List.suffix_refl _, .inl rfl⟩
  | @blank position character rest outcomes blank behind induction =>
      rcases induction noErrors with ⟨blanks, remark, rests, areBlank, final, isRemark⟩
      have free : ∀ outcome ∈ outcomes, ¬ (Lexed.location outcome).Covers position := by
        intro outcome member covers
        have later := (position.lt_after character).trans_le (behind.le_start member)
        exact absurd covers.1 (not_le.mpr later)
      refine ⟨(position, character) :: blanks, remark, ?_, ?_, ?_, isRemark⟩
      · rw [uncovered, placed, List.filter_cons_of_pos (by simpa using free)]
        exact congrArg ((position, character) :: ·) rests
      · intro entry member
        rcases List.mem_cons.mp member with rfl | later
        · exact blank
        · exact areBlank entry later
      · exact final.trans (List.suffix_cons _ _)
  | @remark position text =>
      refine ⟨[], placed position ('/' :: '/' :: text), ?_, by simp, List.suffix_refl _, .inr ?_⟩
      · exact List.filter_eq_self.mpr (by simp)
      · rw [map_snd_placed]
        exact ⟨text, rfl⟩
  | @token position token characters rest outcomes spelled behind induction =>
      have noErrorsBehind : ∀ error, .error error ∉ outcomes := fun error member =>
        noErrors error (List.mem_cons_of_mem _ member)
      rcases induction noErrorsBehind with ⟨blanks, remark, rests, areBlank, final, isRemark⟩
      -- The token takes away its own characters and none of those behind it.
      have inside : ∀ entry ∈ placed position characters,
          Location.Covers ⟨name, position, position.past characters⟩ entry.1 := by
        intro entry member
        exact placed_bounds member
      have outside : ∀ entry ∈ placed (position.past characters) rest,
          ¬ Location.Covers ⟨name, position, position.past characters⟩ entry.1 := by
        intro entry member covers
        exact absurd covers.2 (not_lt.mpr (placed_bounds member).1)
      refine ⟨blanks, remark, ?_, areBlank, ?_, isRemark⟩
      · rw [← rests, uncovered, uncovered, placed_append, List.filter_append,
          List.filter_eq_nil_iff.mpr, List.nil_append]
        · apply List.filter_congr
          intro entry member
          apply decide_eq_decide.mpr
          rw [List.forall_mem_cons]
          exact and_iff_right (outside entry member)
        · intro entry member free
          exact of_decide_eq_true free _ List.mem_cons_self (inside entry member)
      · rw [placed_append]
        exact final.trans (List.suffix_append _ _)
  | fault => exact absurd List.mem_cons_self (noErrors _)

end Line.Reads

/-! ## All lines -/

theorem Line.numbered_of_getElem? {lines : List String} {index : Nat} {line : String}
    (found : lines[index]? = some line) : numbered lines (index + 1) = line := by
  simp [numbered, found]

theorem Line.exists_getElem?_of_numbered {lines : List String} {number : Nat}
    (nonempty : numbered lines number ≠ "") :
    ∃ index line, number = index + 1 ∧ lines[index]? = some line := by
  cases number with
  | zero => exact absurd rfl nonempty
  | succ index =>
      cases found : lines[index]? with
      | none => simp [numbered, found] at nonempty
      | some line => exact ⟨index, line, rfl, found⟩

namespace Source

variable {name : String} {bytes : List UInt8} {tokens : List (Located Token)}

theorem row_of_getElem? {source : Source} {index : Nat} {line : String}
    (found : source.readable[index]? = some line) :
    source.row (index + 1) = Line.placed ⟨index + 1, 1⟩ line.toList := by
  rw [row, Line.numbered_of_getElem? found]

theorem lexed_of_tokens (found : (Source.ofBytes name bytes).tokens = .ok tokens) :
    (Source.ofBytes name bytes).lexed = tokens.map .ok :=
  Lexed.eq_map_ok_of_collect found

theorem inputErrors_of_tokens (found : (Source.ofBytes name bytes).tokens = .ok tokens) :
    Line.inputErrors name 0 (Source.ofBytes name bytes).lines = [] := by
  have whole := lexed_ofBytes name bytes
  rw [lexed_of_tokens found] at whole
  apply List.eq_nil_iff_forall_not_mem.mpr
  intro outcome member
  have delivered : outcome ∈ tokens.map Except.ok := by
    rw [whole]
    exact List.mem_append_right _ member
  rcases List.mem_map.mp delivered with ⟨token, -, rfl⟩
  rw [Line.inputErrors] at member
  split at member
  · cases List.mem_singleton.mp member
  · cases member

/-- If the tokens are found, all lines have been read. -/
theorem lines_of_tokens (found : (Source.ofBytes name bytes).tokens = .ok tokens) :
    (Source.ofBytes name bytes).lines = (Source.ofBytes name bytes).readable.map some := by
  apply Line.eq_map_readable
  have noInput := inputErrors_of_tokens found
  rw [Line.inputErrors] at noInput
  split at noInput
  · cases noInput
  · next all =>
      exact Nat.le_of_not_lt all

theorem exists_line_of_mem_tokens (found : (Source.ofBytes name bytes).tokens = .ok tokens)
    {token : Located Token} (member : token ∈ tokens) :
    ∃ index line, (Source.ofBytes name bytes).readable[index]? = some line ∧
      .ok token ∈ Line.outcomes name (index + 1) line := by
  have delivered : .ok token ∈ (Source.ofBytes name bytes).lexed := by
    rw [lexed_of_tokens found]
    exact List.mem_map_of_mem member
  rcases exists_line_of_mem_lexed delivered with onLine | input
  · exact onLine
  · rw [inputErrors_of_tokens found] at input
    cases input

theorem eq_ok_of_mem_outcomes (found : (Source.ofBytes name bytes).tokens = .ok tokens)
    {index : Nat} {line : String}
    (isLine : (Source.ofBytes name bytes).readable[index]? = some line) {outcome : Lexed}
    (member : outcome ∈ Line.outcomes name (index + 1) line) :
    ∃ token ∈ tokens, outcome = .ok token := by
  have delivered : outcome ∈ (Source.ofBytes name bytes).lexed := by
    rw [lexed_ofBytes]
    apply List.mem_append_left
    exact List.mem_flatMap.mpr ⟨(line, index), List.mk_mem_zipIdx_iff_getElem?.mpr isLine, member⟩
  rw [lexed_of_tokens found] at delivered
  rcases List.mem_map.mp delivered with ⟨token, isToken, same⟩
  exact ⟨token, isToken, same.symm⟩

theorem token_onLine (found : (Source.ofBytes name bytes).tokens = .ok tokens)
    {token : Located Token} (member : token ∈ tokens) :
    token.location.name = name ∧ token.location.stop.line = token.location.start.line ∧
      token.location.start.column < token.location.stop.column := by
  rcases exists_line_of_mem_tokens found member with ⟨index, line, isLine, delivered⟩
  have noNewline := newline_not_mem_of_mem_readable (List.mem_of_getElem? isLine)
  have reads := Line.reads_outcomes noNewline name (index + 1)
  have sameLine : token.location.stop.line = token.location.start.line :=
    (reads.line_stop noNewline delivered).trans (reads.line_start noNewline delivered).symm
  have wide : token.location.start < token.location.stop := reads.start_lt_stop delivered
  rcases reads.exists_piece delivered with ⟨before, characters, rest, -, -, located⟩
  refine ⟨by rw [located], sameLine, ?_⟩
  rw [Position.lt_iff] at wide
  omega

/-- Every token of a source is a piece of a line. -/
theorem exists_piece_of_mem_tokens (found : (Source.ofBytes name bytes).tokens = .ok tokens)
    {token : Located Token} (member : token ∈ tokens) :
    ∃ index line before characters rest,
      (Source.ofBytes name bytes).readable[index]? = some line ∧
      line.toList = before ++ (characters ++ rest) ∧
      token.value.Spelled characters (rest.headD '\n') ∧
      token.location = ⟨name, Position.past ⟨index + 1, 1⟩ before,
        Position.past ⟨index + 1, 1⟩ (before ++ characters)⟩ := by
  rcases exists_line_of_mem_tokens found member with ⟨index, line, isLine, delivered⟩
  have noNewline := newline_not_mem_of_mem_readable (List.mem_of_getElem? isLine)
  have reads := Line.reads_outcomes noNewline name (index + 1)
  rcases reads.exists_piece delivered with ⟨before, characters, rest, split, spelled, located⟩
  exact ⟨index, line, before, characters, rest, isLine, split, spelled, located⟩

theorem tokens_ordered (found : (Source.ofBytes name bytes).tokens = .ok tokens) :
    tokens.Pairwise fun first second => first.location.stop ≤ second.location.start := by
  have delivered := lexed_ofBytes name bytes
  rw [lexed_of_tokens found, inputErrors_of_tokens found, List.append_nil] at delivered
  have reads : ∀ row ∈ (Source.ofBytes name bytes).readable.zipIdx, '\n' ∉ row.1.toList ∧
      Line.Reads name ⟨row.2 + 1, 1⟩ row.1.toList (Line.outcomes name (row.2 + 1) row.1) := by
    intro row member
    have noNewline := newline_not_mem_of_mem_readable (List.fst_mem_of_mem_zipIdx member)
    exact ⟨noNewline, Line.reads_outcomes noNewline name (row.2 + 1)⟩
  have numbers : ((Source.ofBytes name bytes).readable.zipIdx.map Prod.snd).Pairwise
      (· < ·) := by
    rw [List.zipIdx_map_snd]
    exact List.pairwise_lt_range'
  have ordered : (tokens.map (Except.ok : _ → Lexed)).Pairwise fun first second =>
      (Lexed.location first).stop ≤ (Lexed.location second).start := by
    rw [delivered, List.pairwise_flatMap]
    constructor
    · intro row member
      exact (reads row member).2.pairwise
    · apply List.Pairwise.imp_of_mem _ (List.pairwise_map.mp numbers)
      intro upper lower upperMember lowerMember above first firstMember second secondMember
      have firstLine := (reads upper upperMember).2.line_stop (reads upper upperMember).1
        firstMember
      have secondLine := (reads lower lowerMember).2.line_start (reads lower lowerMember).1
        secondMember
      apply Position.le_iff.mpr
      left
      rw [firstLine, secondLine]
      exact Nat.succ_lt_succ above
  exact List.pairwise_map.mp ordered

section Piece

variable {source : Source} {index : Nat} {line : String} {before characters rest : List Char}

theorem covered_piece (isLine : source.readable[index]? = some line)
    (split : line.toList = before ++ (characters ++ rest)) (noNewline : '\n' ∉ line.toList) :
    source.covered ⟨name, Position.past ⟨index + 1, 1⟩ before,
        Position.past ⟨index + 1, 1⟩ (before ++ characters)⟩ =
      Line.placed (Position.past ⟨index + 1, 1⟩ before) characters := by
  rw [split, List.mem_append, not_or] at noNewline
  rw [covered, Position.line_past noNewline.1, row_of_getElem? isLine, split]
  exact Line.filter_covers name _ before characters rest

theorem onward_piece (isLine : source.readable[index]? = some line)
    (split : line.toList = before ++ (characters ++ rest)) (noNewline : '\n' ∉ line.toList) :
    source.onward (Position.past ⟨index + 1, 1⟩ before) =
      Line.placed (Position.past ⟨index + 1, 1⟩ before) (characters ++ rest) := by
  rw [split, List.mem_append, not_or] at noNewline
  rw [onward, Position.line_past noNewline.1, row_of_getElem? isLine, split]
  exact Line.filter_onward _ before (characters ++ rest)

end Piece

/-- Only tokens of its own line cover a character. -/
theorem uncovered_row (found : (Source.ofBytes name bytes).tokens = .ok tokens) {index : Nat}
    {line : String} (isLine : (Source.ofBytes name bytes).readable[index]? = some line) :
    (Source.ofBytes name bytes).uncovered tokens (index + 1) =
      Line.uncovered (Line.outcomes name (index + 1) line)
        (Line.placed ⟨index + 1, 1⟩ line.toList) := by
  have noNewline := newline_not_mem_of_mem_readable (List.mem_of_getElem? isLine)
  rw [uncovered, row_of_getElem? isLine, Line.uncovered]
  apply List.filter_congr
  intro entry inRow
  apply decide_eq_decide.mpr
  constructor
  · intro free outcome member
    rcases eq_ok_of_mem_outcomes found isLine member with ⟨token, isToken, rfl⟩
    exact free token isToken
  · intro free token isToken covers
    rcases exists_line_of_mem_tokens found isToken with ⟨other, otherLine, isOther, delivered⟩
    have noNewlineOther := newline_not_mem_of_mem_readable (List.mem_of_getElem? isOther)
    have reads := Line.reads_outcomes noNewlineOther name (other + 1)
    have startLine := reads.line_start noNewlineOther delivered
    have stopLine := reads.line_stop noNewlineOther delivered
    have entryLine := Line.line_of_mem_placed noNewline inRow
    have same : other = index := by
      rw [Location.Covers, Position.le_iff, Position.lt_iff] at covers
      simp only [Lexed.location] at startLine stopLine entryLine
      omega
    subst same
    rw [isLine] at isOther
    cases isOther
    exact free _ delivered covers

theorem remainder_of_tokens (found : (Source.ofBytes name bytes).tokens = .ok tokens)
    (number : Nat) :
    ∃ blanks remark, (Source.ofBytes name bytes).uncovered tokens number = blanks ++ remark ∧
      (∀ entry ∈ blanks, isBlank entry.2 = true) ∧
      remark <:+ (Source.ofBytes name bytes).row number ∧
      (remark = [] ∨ ['/', '/'] <+: remark.map Prod.snd) := by
  by_cases missing : Line.numbered (Source.ofBytes name bytes).readable number = ""
  · have empty : (Source.ofBytes name bytes).row number = [] := by
      rw [row, missing]
      rfl
    exact ⟨[], [], by rw [uncovered, empty]; rfl, by simp, List.nil_suffix, .inl rfl⟩
  · rcases Line.exists_getElem?_of_numbered missing with ⟨index, line, rfl, isLine⟩
    have noNewline := newline_not_mem_of_mem_readable (List.mem_of_getElem? isLine)
    have noErrors : ∀ error, .error error ∉ Line.outcomes name (index + 1) line := by
      intro error member
      rcases eq_ok_of_mem_outcomes found isLine member with ⟨token, -, isToken⟩
      cases isToken
    rw [uncovered_row found isLine, row_of_getElem? isLine]
    exact (Line.reads_outcomes noNewline name (index + 1)).remainder noErrors

/-- The tokens of a source divide its lines among them. -/
theorem divided_of_tokens (found : (Source.ofBytes name bytes).tokens = .ok tokens) :
    (Source.ofBytes name bytes).Divided tokens where
  readable := lines_of_tokens found
  onLine := fun token member => (token_onLine found member)
  ordered := by
    apply List.Pairwise.imp_of_mem _ (tokens_ordered found)
    intro first second firstMember _ apart
    refine ⟨lt_of_lt_of_le ?_ apart, apart⟩
    rcases token_onLine found firstMember with ⟨-, sameLine, wide⟩
    exact Position.lt_iff.mpr (.inr ⟨sameLine.symm, wide⟩)
  spelled := by
    intro token member
    rcases exists_piece_of_mem_tokens found member with
      ⟨index, line, before, characters, rest, isLine, split, spelled, located⟩
    have noNewline := newline_not_mem_of_mem_readable (List.mem_of_getElem? isLine)
    rw [located, covered_piece isLine split noNewline, Line.map_snd_placed]
    exact ⟨spelled.wellFormed, spelled.hasSpelling⟩
  longest := by
    intro token member longer begins exceeds other wellFormed
    rcases exists_piece_of_mem_tokens found member with
      ⟨index, line, before, characters, rest, isLine, split, spelled, located⟩
    have noNewline := newline_not_mem_of_mem_readable (List.mem_of_getElem? isLine)
    rw [located, onward_piece isLine split noNewline, Line.map_snd_placed] at begins
    rw [located, covered_piece isLine split noNewline, Line.length_placed] at exceeds
    exact spelled.not_hasSpelling_of_prefix begins exceeds wellFormed
  remainder := remainder_of_tokens found

theorem tabbed_text_divided :
    let source := Source.ofBytes "tabs" (utf8 "\tx<=007//\r\n\"\t\"")
    let tokens : List (Located Token) :=
      [⟨.identifier "x", ⟨"tabs", ⟨1, 5⟩, ⟨1, 6⟩⟩⟩,
        ⟨.operator .lessOrEqual, ⟨"tabs", ⟨1, 6⟩, ⟨1, 8⟩⟩⟩,
        ⟨.integer 7, ⟨"tabs", ⟨1, 8⟩, ⟨1, 11⟩⟩⟩,
        ⟨.text "\t", ⟨"tabs", ⟨2, 1⟩, ⟨2, 6⟩⟩⟩]
    source.tokens = .ok tokens ∧ source.Divided tokens := by
  intro source tokens
  have found : source.tokens = .ok tokens := by
    decide +kernel
  exact ⟨found, divided_of_tokens found⟩

end Source

end Firmware
