import Firmware.Proofs.Program.Reading

/-! # Syntax errors lie at the first token that is out of place

Whatever has been read without an error can be completed to a program: every expression,
form and stage can be ended by some tokens. So a token that the reader refuses is the first
one that no program has in its place, and nothing behind it matters. If the tokens end too
early, they are the beginning of a program. -/

namespace Firmware

/-! ## Completions -/

namespace OpenExpression

/-- Behind an operand, all that an expression needs is its closing parentheses. -/
theorem exists_complete?_read (pending : Pending) (operand : Expr) (outer : List Gap) :
    ∃ tokens value, (read pending operand outer).complete? tokens = some value := by
  induction outer generalizing pending operand with
  | nil => exact ⟨[], _, rfl⟩
  | cons gap outer induction =>
      rcases induction gap.pending
        ((Expr.parens (pending.join operand)).negated gap.negations) with
        ⟨tokens, value, completed⟩
      exact ⟨.closeParen :: tokens, value,
        (complete?_cons _ _ _ _).mpr ⟨_, step_of_advances .closing, completed⟩⟩

theorem exists_complete? (reading : OpenExpression) :
    ∃ tokens value, reading.complete? tokens = some value := by
  cases reading with
  | read pending operand outer => exact exists_complete?_read pending operand outer
  | due gap outer =>
      rcases exists_complete?_read gap.pending ((Expr.integer 0).negated gap.negations) outer with
        ⟨tokens, value, completed⟩
      have operand : Advances (.due gap outer) (.integer 0) (fill gap (.integer 0) outer) :=
        .operand rfl
      exact ⟨.integer 0 :: tokens, value,
        (complete?_cons _ _ _ _).mpr ⟨_, step_of_advances operand, completed⟩⟩

end OpenExpression

theorem Form.exists_accepts {α : Type} (form : Form α) :
    ∃ tokens result, form.Accepts tokens result := by
  induction form with
  | closing expected value => exact ⟨_, _, rfl, rfl⟩
  | emptyBody value => exact ⟨_, _, rfl, rfl⟩
  | token expected rest induction =>
      rcases induction with ⟨tokens, result, accepted⟩
      exact ⟨_, result, tokens, rfl, accepted⟩
  | branch marker taken otherwise induction _ =>
      rcases induction with ⟨tokens, result, accepted⟩
      exact ⟨_, result, .inl ⟨tokens, rfl, accepted⟩⟩
  | type rest induction =>
      rcases induction .integer with ⟨tokens, result, accepted⟩
      exact ⟨_, result, .keyword .inteiro, tokens, _, rfl, rfl, accepted⟩
  | direction rest induction =>
      rcases induction .output with ⟨tokens, result, accepted⟩
      exact ⟨_, result, .keyword .saida, tokens, _, rfl, rfl, accepted⟩
  | identifier rest induction =>
      rcases induction "x" with ⟨tokens, result, accepted⟩
      exact ⟨_, result, .identifier "x", tokens, _, rfl, rfl, accepted⟩
  | names collected rest induction =>
      rcases induction (collected ++ []) with ⟨tokens, result, accepted⟩
      exact ⟨_, result, [], tokens, rfl, accepted⟩
  | integer rest induction =>
      rcases induction 0 with ⟨tokens, result, accepted⟩
      exact ⟨_, result, .integer 0, tokens, _, rfl, rfl, accepted⟩
  | operand rest induction =>
      rcases induction "x" with ⟨tokens, result, accepted⟩
      exact ⟨_, result, .identifier "x", tokens, _, rfl, rfl, accepted⟩
  | expression reading rest induction =>
      rcases reading.exists_complete? with ⟨inside, value, completed⟩
      rcases induction value.render with ⟨tokens, result, accepted⟩
      exact ⟨_, result, inside, tokens, value, rfl, completed, accepted⟩

theorem Stage.exists_rest (stage : Stage) : ∃ tokens rest, stage.Rest tokens rest := by
  have loopRest : Rest (.commands .loop) [.keyword .fim] {} := .fim .complete
  have blockRest : ∀ block, ∃ tokens rest, Rest (.commands block) tokens rest := by
    intro block
    cases block with
    | loop => exact ⟨_, _, loopRest⟩
    | setup => exact ⟨_, _, .fim (.repita loopRest)⟩
  have headingRest : ∃ tokens rest, Rest .heading tokens rest := by
    rcases blockRest .setup with ⟨tokens, rest, rests⟩
    exact ⟨_, _, .config rests⟩
  cases stage with
  | complete => exact ⟨_, _, .complete⟩
  | separator => exact ⟨_, _, .repita loopRest⟩
  | commands block => exact blockRest block
  | heading => exact headingRest
  | command block form =>
      rcases form.exists_accepts with ⟨first, command, accepted⟩
      rcases blockRest block with ⟨tokens, rest, rests⟩
      exact ⟨_, _, .insideCommand accepted rests⟩
  | declaration form =>
      rcases form.exists_accepts with ⟨first, declarations, accepted⟩
      rcases headingRest with ⟨tokens, rest, rests⟩
      exact ⟨_, _, .insideLine accepted rests⟩

/-- Tokens that some program begins with. -/
def Program.Viable (tokens : List Token) : Prop :=
  ∃ rest program, Program.Derives (tokens ++ rest) program

/-! ## What is read before an error -/

namespace Draft

/-- Reads tokens that are all in place. -/
def advance (draft : Draft) : List Token → Except SyntaxError Draft
  | [] => .ok draft
  | token :: rest =>
      match draft.step token with
      | .ok next => next.advance rest
      | .error error => .error error

theorem completes_empty_iff (tokens : List Token) (program : Program) :
    Completes {} tokens program ↔ Program.Derives tokens program := by
  rw [← Stage.Rest.heading_iff]
  constructor
  · rintro ⟨rest, rests, rfl⟩
    exact rests
  · intro rests
    exact ⟨program, rests, rfl⟩

theorem advance_cons {draft final : Draft} {token : Token} {tokens : List Token}
    (advanced : draft.advance (token :: tokens) = .ok final) :
    ∃ next, draft.step token = .ok next ∧ next.advance tokens = .ok final := by
  rw [advance] at advanced
  split at advanced
  · next next stepped => exact ⟨next, stepped, advanced⟩
  · cases advanced

theorem deterministic_advance {draft final : Draft} (deterministic : draft.stage.Deterministic)
    {tokens : List Token} (advanced : draft.advance tokens = .ok final) :
    final.stage.Deterministic := by
  induction tokens generalizing draft with
  | nil =>
      cases advanced
      exact deterministic
  | cons token tokens induction =>
      rcases advance_cons advanced with ⟨next, stepped, advanced⟩
      exact induction (deterministic_step deterministic stepped) advanced

theorem completes_append_iff {draft final : Draft} (deterministic : draft.stage.Deterministic)
    {tokens : List Token} (advanced : draft.advance tokens = .ok final) (rest : List Token)
    (result : Program) :
    draft.Completes (tokens ++ rest) result ↔ final.Completes rest result := by
  induction tokens generalizing draft with
  | nil =>
      cases advanced
      rfl
  | cons token tokens induction =>
      rcases advance_cons advanced with ⟨next, stepped, advanced⟩
      rw [List.cons_append, completes_cons_iff draft deterministic,
        ← induction (deterministic_step deterministic stepped) advanced]
      simp [stepped]

theorem deterministic_empty : (stage {}).Deterministic := trivial

theorem viable_of_advance {tokens : List Token} {final : Draft}
    (advanced : advance {} tokens = .ok final) : Program.Viable tokens := by
  rcases final.stage.exists_rest with ⟨rest, added, rests⟩
  refine ⟨rest, final.program.followedBy added, ?_⟩
  rw [← completes_empty_iff, completes_append_iff deterministic_empty advanced]
  exact ⟨added, rests, rfl⟩

theorem not_viable_of_step {tokens : List Token} {final : Draft} {token : Token}
    {error : SyntaxError} (advanced : advance {} tokens = .ok final)
    (refused : final.step token = .error error) : ¬ Program.Viable (tokens ++ [token]) := by
  rintro ⟨rest, program, derivation⟩
  rw [← completes_empty_iff, List.append_assoc, completes_append_iff deterministic_empty advanced,
    List.singleton_append,
    completes_cons_iff final (deterministic_advance deterministic_empty advanced)] at derivation
  rcases derivation with ⟨next, stepped, -⟩
  rw [refused] at stepped
  cases stepped

/-- The location of the last token, or of what comes before them. -/
def lastLocation (before : Location) (tokens : List (Located Token)) : Location :=
  (tokens.getLast?.map Located.location).getD before

theorem lastLocation_cons (before : Location) (token : Located Token)
    (tokens : List (Located Token)) :
    lastLocation before (token :: tokens) = lastLocation token.location tokens := by
  cases tokens <;> simp [lastLocation, List.getLast?_cons]

/-- Tokens that are in place leave the reading to those behind them. -/
theorem read_append {draft next : Draft} (last : Location) {before : List (Located Token)}
    (advanced : draft.advance (before.map Located.value) = .ok next)
    (rest : List (Located Token)) :
    draft.read last (before ++ rest) = next.read (lastLocation last before) rest := by
  induction before generalizing draft last with
  | nil =>
      cases advanced
      rfl
  | cons token before induction =>
      rcases advance_cons advanced with ⟨middle, stepped, advanced⟩
      rw [List.cons_append, read, stepped, lastLocation_cons]
      exact induction token.location advanced

theorem read_eq_error_cases {draft : Draft} {last : Location} {tokens : List (Located Token)}
    {error : Located SyntaxError} (failed : draft.read last tokens = .error error) :
    (∃ before token after next, tokens = before ++ token :: after ∧
      draft.advance (before.map Located.value) = .ok next ∧
      next.step token.value = .error error.value ∧ error.location = token.location) ∨
    ∃ next, draft.advance (tokens.map Located.value) = .ok next ∧
      next.stage.missing = some error.value ∧ error.location = lastLocation last tokens := by
  induction tokens generalizing draft last with
  | nil =>
      rw [read] at failed
      split at failed
      · cases failed
      · next missing found =>
          cases failed
          exact .inr ⟨draft, rfl, found, rfl⟩
  | cons token tokens induction =>
      rw [read] at failed
      split at failed
      · next next stepped =>
          rcases induction failed with
            ⟨before, refused, after, final, rfl, advanced, fault, located⟩ |
            ⟨final, advanced, missing, located⟩
          · refine .inl ⟨token :: before, refused, after, final, rfl, ?_, fault, located⟩
            rwa [List.map_cons, advance, stepped]
          · refine .inr ⟨final, ?_, missing, ?_⟩
            · rwa [List.map_cons, advance, stepped]
            · rwa [lastLocation_cons]
      · next fault stepped =>
          cases failed
          exact .inl ⟨[], token, tokens, draft, rfl, rfl, stepped, rfl⟩

end Draft

/-! ## Errors for want of tokens -/

/-- The error says that the tokens end too early. -/
def SyntaxError.AtEnd : SyntaxError → Prop
  | .missingToken _ | .unexpectedEnd => True
  | _ => False

namespace OpenExpression

theorem not_atEnd_of_close {pending : Pending} {operand : Expr} {token : Token}
    {outer : List Gap} {error : SyntaxError}
    (failed : close pending operand token outer = .error error) : ¬ error.AtEnd := by
  cases outer with
  | nil => cases failed
  | cons =>
      cases failed
      exact id

theorem not_atEnd_of_step {reading : OpenExpression} {token : Token} {error : SyntaxError}
    (failed : reading.step token = .error error) : ¬ error.AtEnd := by
  revert failed
  fun_cases step reading token with
  | case4 =>
      intro failed
      cases failed
      exact id
  | case7 | case8 => exact not_atEnd_of_close
  | _ =>
      intro failed
      cases failed

theorem atEnd_of_finish {reading : OpenExpression} {error : SyntaxError}
    (failed : reading.finish = .error error) : error.AtEnd := by
  cases reading with
  | due =>
      cases failed
      trivial
  | read pending operand outer =>
      cases outer with
      | nil => cases failed
      | cons =>
          cases failed
          trivial

end OpenExpression

namespace Form

variable {α β : Type}

theorem not_atEnd_of_proceed {expected error : SyntaxError} (inside : ¬ expected.AtEnd)
    {rest : β → Form α} {value : Option β} (failed : proceed expected rest value = .error error) :
    ¬ error.AtEnd := by
  cases value with
  | none =>
      cases failed
      exact inside
  | some => cases failed

theorem not_atEnd_of_step {form : Form α} {token : Token} {error : SyntaxError}
    (failed : form.step token = .error error) : ¬ error.AtEnd := by
  induction form with
  | closing expected value =>
      rw [step] at failed
      split at failed <;> cases failed
      exact id
  | emptyBody value =>
      rw [step] at failed
      split at failed <;> cases failed
      exact id
  | token expected rest =>
      rw [step] at failed
      split at failed <;> cases failed
      exact id
  | type | direction | identifier | integer | operand => exact not_atEnd_of_proceed id failed
  | branch marker taken otherwise _ induction =>
      rw [step] at failed
      split at failed
      · cases failed
      · exact induction failed
  | names collected rest induction =>
      rw [step] at failed
      split at failed
      · cases failed
      · exact induction _ failed
  | expression reading rest induction =>
      rw [step] at failed
      split at failed
      · cases failed
      · exact induction _ failed
      · next fault =>
          cases failed
          exact OpenExpression.not_atEnd_of_step fault

theorem atEnd_missing (form : Form α) : form.missing.AtEnd := by
  induction form with
  | branch marker taken otherwise _ induction => exact induction
  | names collected rest induction => exact induction collected
  | expression reading rest induction =>
      rw [missing]
      split
      · exact induction _
      · next fault => exact OpenExpression.atEnd_of_finish fault
  | _ => trivial

end Form

theorem Stage.atEnd_of_missing {stage : Stage} {error : SyntaxError}
    (wanted : stage.missing = some error) : error.AtEnd := by
  cases stage with
  | declaration form | command block form =>
      cases wanted
      exact form.atEnd_missing
  | complete => cases wanted
  | _ =>
      cases wanted
      trivial

namespace Draft

theorem not_atEnd_of_enterCommand {program : Program} {block : Block} {token : Token}
    {error : SyntaxError} (failed : enterCommand program block token = .error error) :
    ¬ error.AtEnd := by
  rw [enterCommand.eq_def] at failed
  split at failed
  · cases failed
  · cases failed
  · split at failed <;> cases failed
    exact id
  · cases failed
    exact id

theorem not_atEnd_of_step {draft : Draft} {token : Token} {error : SyntaxError}
    (failed : draft.step token = .error error) : ¬ error.AtEnd := by
  rcases draft with ⟨program, stage⟩
  cases stage with
  | heading =>
      simp only [step] at failed
      split at failed
      · cases failed
      · split at failed <;> cases failed
        exact id
  | declaration form | command block form =>
      simp only [step] at failed
      split at failed
      · cases failed
      · cases failed
      · next fault =>
          cases failed
          exact Form.not_atEnd_of_step fault
  | commands block => exact not_atEnd_of_enterCommand failed
  | separator =>
      simp only [step] at failed
      split at failed <;> cases failed
      exact id
  | complete =>
      cases failed
      exact id

end Draft

/-! ## Where an error lies -/

/-- The error lies at a token before which a program may go on, and with which none does;
nothing behind that token matters. -/
def LiesAtToken (tokens : List (Located Token)) (error : Located SyntaxError) : Prop :=
  ∃ index token, tokens[index]? = some token ∧ error.location = token.location ∧
    Program.Viable ((tokens.take index).map Located.value) ∧
    ¬ Program.Viable ((tokens.take (index + 1)).map Located.value) ∧
    ∀ start others, others.take (index + 1) = tokens.take (index + 1) →
      parse start others = .error error

/-- The error lies at the last token, and says that more is needed for a program, which the
tokens are the beginning of. -/
def LiesAtEnd (start : Location) (tokens : List (Located Token)) (error : Located SyntaxError) :
    Prop :=
  error.value.AtEnd ∧ error.location = (tokens.getLast?.map Located.location).getD start ∧
    ∃ rest program, rest ≠ [] ∧ Program.Derives (tokens.map Located.value ++ rest) program

theorem liesAtToken_of_step {before after : List (Located Token)} {token : Located Token}
    {next : Draft} {error : Located SyntaxError}
    (advanced : Draft.advance {} (before.map Located.value) = .ok next)
    (refused : next.step token.value = .error error.value)
    (located : error.location = token.location) :
    LiesAtToken (before ++ token :: after) error := by
  have upTo : (before ++ token :: after).take (before.length + 1) = before ++ [token] := by
    rw [List.append_cons, List.take_left' (by simp)]
  refine ⟨before.length, token, by simp, located, ?_, ?_, ?_⟩
  · rw [List.take_left]
    exact Draft.viable_of_advance advanced
  · rw [upTo, List.map_append]
    exact Draft.not_viable_of_step advanced refused
  · intro start others agree
    rw [← List.take_append_drop (before.length + 1) others, agree, upTo, List.append_assoc,
      parse, Draft.read_append start advanced, List.singleton_append, Draft.read, refused,
      ← located]

theorem liesAtEnd_of_missing {start : Location} {tokens : List (Located Token)} {next : Draft}
    {error : Located SyntaxError}
    (advanced : Draft.advance {} (tokens.map Located.value) = .ok next)
    (wanted : next.stage.missing = some error.value)
    (located : error.location = Draft.lastLocation start tokens) :
    LiesAtEnd start tokens error := by
  refine ⟨Stage.atEnd_of_missing wanted, located, ?_⟩
  rcases Draft.viable_of_advance advanced with ⟨rest, program, derivation⟩
  refine ⟨rest, program, ?_, derivation⟩
  rintro rfl
  rw [← Draft.completes_empty_iff,
    Draft.completes_append_iff Draft.deterministic_empty advanced,
    Draft.completes_nil_iff, wanted] at derivation
  cases derivation.1

theorem LiesAtToken.not_liesAtEnd {start : Location} {tokens : List (Located Token)}
    {error : Located SyntaxError} (atToken : LiesAtToken tokens error) :
    ¬ LiesAtEnd start tokens error := by
  rintro ⟨-, -, rest, program, -, derivation⟩
  rcases atToken with ⟨index, token, -, -, -, notViable, -⟩
  apply notViable
  refine ⟨(tokens.drop (index + 1)).map Located.value ++ rest, program, ?_⟩
  rwa [← List.append_assoc, ← List.map_append, List.take_append_drop]

/-- A syntax error lies either at the first token that no program has in its place, or at the
end of tokens that some program begins with; only there are tokens said to be missing. -/
theorem parse_error_earliest {start : Location} {tokens : List (Located Token)}
    {error : Located SyntaxError} (rejected : parse start tokens = .error error) :
    (LiesAtToken tokens error ∧ ¬ LiesAtEnd start tokens error ∨
        LiesAtEnd start tokens error ∧ ¬ LiesAtToken tokens error) ∧
      (error.value.AtEnd → LiesAtEnd start tokens error) := by
  rcases Draft.read_eq_error_cases rejected with
    ⟨before, token, after, next, rfl, advanced, refused, located⟩ |
    ⟨next, advanced, wanted, located⟩
  · have atToken : LiesAtToken (before ++ token :: after) error :=
      liesAtToken_of_step advanced refused located
    refine ⟨.inl ⟨atToken, atToken.not_liesAtEnd⟩, ?_⟩
    intro atEnd
    exact absurd atEnd (Draft.not_atEnd_of_step refused)
  · have atEnd : LiesAtEnd start tokens error := liesAtEnd_of_missing advanced wanted located
    exact ⟨.inr ⟨atEnd, fun atToken => atToken.not_liesAtEnd atEnd⟩, fun _ => atEnd⟩

/-- A command without its semicolon is noticed at the `fim` behind it. -/
theorem missing_semicolon_noticed :
    let tokens := [Token.keyword .config, .keyword .esperar, .integer 10, .keyword .fim].mapIdx
      fun index token =>
        ({ value := token, location := .single "" { column := index + 1 } } : Located Token)
    let error : Located SyntaxError :=
      { value := .unexpectedToken .semicolon (.keyword .fim),
        location := .single "" { column := 4 } }
    parse (.single "" {}) tokens = .error error ∧ LiesAtToken tokens error := by
  intro tokens error
  have rejected : parse (.single "" {}) tokens = .error error := by rfl
  refine ⟨rejected, ?_⟩
  rcases (parse_error_earliest rejected).1 with ⟨atToken, -⟩ | ⟨⟨atEnd, -⟩, -⟩
  · exact atToken
  · cases atEnd

end Firmware
