import Firmware.Proofs.Program.EarliestError

/-! # The token that an error asks for

An error that names a token asks for one that can stand in its place: the reader that has
refused another token, or that has met the end of the tokens, takes it. So a program can
begin with the tokens before the error and the one that is asked for. -/

namespace Firmware

/-! ## Expressions -/

namespace OpenExpression

variable {reading : OpenExpression} {token expected found : Token} {value : Expr}

/-- Where an expression may end, no token is refused: it goes on, or ends there. -/
theorem step_of_finish (finished : reading.finish = .ok value) (token : Token) :
    (∃ next, reading.step token = .ok (.extended next)) ∨
      reading.step token = .ok (.ended value) := by
  cases reading with
  | due => cases finished
  | read pending operand outer =>
      cases outer with
      | cons => cases finished
      | nil =>
          cases token with
          | operator operator =>
              cases pushed : pending.push operand operator with
              | some next => exact .inl ⟨_, step_of_advances (.operation pushed)⟩
              | none =>
                  cases finished
                  rw [step, pushed]
                  exact .inr rfl
          | _ =>
              apply Or.inr
              apply ended_of_finish finished
              intro operator same
              cases same

/-- Inside of a parenthesis, the token asked for is the one that closes it. -/
theorem step_closeParen (pending : Pending) (operand : Expr) (gap : Gap) (outer : List Gap) :
    ∃ next, (read pending operand (gap :: outer)).step .closeParen = .ok (.extended next) :=
  ⟨_, step_of_advances .closing⟩

theorem takes_of_close {pending : Pending} {operand : Expr} {outer : List Gap}
    (refused : close pending operand token outer = .error (.unexpectedToken expected found)) :
    found = token ∧ ∃ next, (read pending operand outer).step expected = .ok (.extended next) := by
  cases outer with
  | nil => cases refused
  | cons gap outer =>
      cases refused
      exact ⟨rfl, step_closeParen pending operand gap outer⟩

theorem takes_of_step (refused : reading.step token = .error (.unexpectedToken expected found)) :
    found = token ∧ ∃ next, reading.step expected = .ok (.extended next) := by
  revert refused
  fun_cases step reading token with
  | case7 | case8 => exact takes_of_close
  | _ =>
      intro refused
      cases refused

theorem takes_of_finish (needed : reading.finish = .error (.missingToken expected)) :
    ∃ next, reading.step expected = .ok (.extended next) := by
  cases reading with
  | due => cases needed
  | read pending operand outer =>
      cases outer with
      | nil => cases needed
      | cons gap outer =>
          cases needed
          exact step_closeParen pending operand gap outer

end OpenExpression

/-! ## Forms -/

namespace Form

variable {α β : Type}

theorem step_branch {marker token : Token} {taken otherwise : Form α}
    (takes : ∃ next, otherwise.step token = .ok next) :
    ∃ next, (branch marker taken otherwise).step token = .ok next := by
  rw [step]
  split
  · exact ⟨_, rfl⟩
  · exact takes

theorem step_names {collected : List String} {rest : List String → Form α} {token : Token}
    (takes : ∃ next, (rest collected).step token = .ok next) :
    ∃ next, (names collected rest).step token = .ok next := by
  rw [step]
  split
  · exact ⟨_, rfl⟩
  · exact takes

/-- What may follow an expression may follow it where it could also go on. -/
theorem step_expression {reading : OpenExpression} {rest : String → Form α} {value : Expr}
    (finished : reading.finish = .ok value) {token : Token}
    (takes : ∃ next, (rest value.render).step token = .ok next) :
    ∃ next, (expression reading rest).step token = .ok next := by
  rw [step]
  rcases OpenExpression.step_of_finish finished token with ⟨next, extended⟩ | ended
  · rw [extended]
    exact ⟨_, rfl⟩
  · rw [ended]
    exact takes

theorem step_expression_of_extended {reading next : OpenExpression} {rest : String → Form α}
    {token : Token} (extended : reading.step token = .ok (.extended next)) :
    ∃ next, (expression reading rest).step token = .ok next := by
  rw [step, extended]
  exact ⟨_, rfl⟩

theorem proceed_ne_unexpectedToken {error : SyntaxError} {rest : β → Form α} {value : Option β}
    {expected found : Token} (other : error ≠ .unexpectedToken expected found) :
    proceed error rest value ≠ .error (.unexpectedToken expected found) := by
  intro refused
  cases value with
  | some => cases refused
  | none =>
      cases refused
      exact other rfl

theorem takes_of_step {form : Form α} {token expected found : Token}
    (refused : form.step token = .error (.unexpectedToken expected found)) :
    found = token ∧ ∃ next, form.step expected = .ok next := by
  induction form with
  | closing wanted value =>
      rw [step] at refused
      split at refused <;> cases refused
      exact ⟨rfl, .done value, by rw [step, if_pos rfl]⟩
  | emptyBody value =>
      rw [step] at refused
      split at refused <;> cases refused
  | token wanted rest =>
      rw [step] at refused
      split at refused <;> cases refused
      exact ⟨rfl, .more rest, by rw [step, if_pos rfl]⟩
  | type | direction | identifier | integer | operand =>
      apply absurd refused
      apply proceed_ne_unexpectedToken
      intro same
      cases same
  | branch marker taken otherwise _ induction =>
      rw [step] at refused
      split at refused
      · cases refused
      · rcases induction refused with ⟨same, takes⟩
        exact ⟨same, step_branch takes⟩
  | names collected rest induction =>
      rw [step] at refused
      split at refused
      · cases refused
      · rcases induction collected refused with ⟨same, takes⟩
        exact ⟨same, step_names takes⟩
  | expression reading rest induction =>
      rw [step] at refused
      split at refused
      · cases refused
      · next value ended =>
          rcases induction value.render refused with ⟨same, takes⟩
          exact ⟨same, step_expression (OpenExpression.finish_of_ended ended) takes⟩
      · next fault =>
          cases refused
          rcases OpenExpression.takes_of_step fault with ⟨same, next, extended⟩
          exact ⟨same, step_expression_of_extended extended⟩

theorem takes_of_missing {form : Form α} {expected : Token}
    (needed : form.missing = .missingToken expected) :
    ∃ next, form.step expected = .ok next := by
  induction form with
  | closing wanted value =>
      cases needed
      exact ⟨.done value, by rw [step, if_pos rfl]⟩
  | token wanted rest =>
      cases needed
      exact ⟨.more rest, by rw [step, if_pos rfl]⟩
  | emptyBody | type | direction | identifier | integer | operand => cases needed
  | branch marker taken otherwise _ induction => exact step_branch (induction needed)
  | names collected rest induction => exact step_names (induction collected needed)
  | expression reading rest induction =>
      rw [missing] at needed
      split at needed
      · next value finished => exact step_expression finished (induction value.render needed)
      · next fault =>
          subst needed
          rcases OpenExpression.takes_of_finish fault with ⟨next, extended⟩
          exact step_expression_of_extended extended

end Form

/-! ## Programs -/

namespace Draft

theorem enterCommand_ne_unexpectedToken (program : Program) (block : Block)
    (token expected found : Token) :
    enterCommand program block token ≠ .error (.unexpectedToken expected found) := by
  fun_cases enterCommand program block token <;> intro refused <;> cases refused

/-- A draft that refuses a token for another one takes the other one. -/
theorem takes_of_step {draft : Draft} {token expected found : Token}
    (refused : draft.step token = .error (.unexpectedToken expected found)) :
    found = token ∧ ∃ next, draft.step expected = .ok next := by
  rcases draft with ⟨program, stage⟩
  cases stage with
  | heading =>
      simp only [step] at refused
      split at refused
      · cases refused
      · split at refused <;> cases refused
        exact ⟨rfl, _, rfl⟩
  | declaration form | command block form =>
      simp only [step] at refused ⊢
      split at refused <;> cases refused
      next fault =>
        rcases Form.takes_of_step fault with ⟨same, next, stepped⟩
        rw [stepped]
        cases next <;> exact ⟨same, _, rfl⟩
  | commands block => exact absurd refused (enterCommand_ne_unexpectedToken program block _ _ _)
  | separator =>
      simp only [step] at refused
      split at refused <;> cases refused
      exact ⟨rfl, _, rfl⟩
  | complete => cases refused

/-- A draft that needs a token when the tokens end takes it. -/
theorem takes_of_missing {draft : Draft} {expected : Token}
    (needed : draft.stage.missing = some (.missingToken expected)) :
    ∃ next, draft.step expected = .ok next := by
  rcases draft with ⟨program, stage⟩
  cases stage with
  | heading =>
      cases needed
      exact ⟨_, rfl⟩
  | declaration form | command block form =>
      rcases Form.takes_of_missing (Option.some.inj needed) with ⟨next, stepped⟩
      simp only [step, stepped]
      cases next <;> exact ⟨_, rfl⟩
  | separator =>
      cases needed
      exact ⟨_, rfl⟩
  | commands | complete => cases needed

theorem advance_concat {draft next final : Draft} {tokens : List Token} {token : Token}
    (advanced : draft.advance tokens = .ok next) (stepped : next.step token = .ok final) :
    draft.advance (tokens ++ [token]) = .ok final := by
  induction tokens generalizing draft with
  | nil =>
      cases advanced
      rw [List.nil_append, advance, stepped]
      rfl
  | cons first tokens induction =>
      rcases advance_cons advanced with ⟨middle, firstStepped, advanced⟩
      rw [List.cons_append, advance, firstStepped]
      exact induction advanced

theorem viable_concat {next : Draft} {tokens : List Token} {token : Token}
    (advanced : advance {} tokens = .ok next) (takes : ∃ final, next.step token = .ok final) :
    Program.Viable (tokens ++ [token]) := by
  rcases takes with ⟨final, stepped⟩
  exact viable_of_advance (advance_concat advanced stepped)

end Draft

/-- An error that expects another token lies at the first token that no program has in its
place. It names that token as the one found, and a program may go on with the expected one in
place of it. An error that misses a token names one that a program may go on with. -/
theorem expected_token_viable {start : Location} {tokens : List (Located Token)}
    {error : Located SyntaxError} (rejected : parse start tokens = .error error) :
    (∀ expected found, error.value = .unexpectedToken expected found →
      ∃ index token, tokens[index]? = some token ∧ error.location = token.location ∧
        ¬ Program.Viable ((tokens.take (index + 1)).map Located.value) ∧
        found = token.value ∧ expected ≠ found ∧
        Program.Viable ((tokens.take index).map Located.value ++ [expected])) ∧
    ∀ expected, error.value = .missingToken expected →
      Program.Viable (tokens.map Located.value ++ [expected]) := by
  rcases Draft.read_eq_error_cases rejected with
    ⟨before, token, after, next, rfl, advanced, refused, located⟩ |
    ⟨next, advanced, wanted, located⟩
  · constructor
    · intro expected found unexpected
      rw [unexpected] at refused
      rcases Draft.takes_of_step refused with ⟨rfl, takes⟩
      have upTo : (before ++ token :: after).take (before.length + 1) = before ++ [token] := by
        rw [List.append_cons, List.take_left' (by simp)]
      refine ⟨before.length, token, by simp, located, ?_, rfl, ?_, ?_⟩
      · rw [upTo, List.map_append]
        exact Draft.not_viable_of_step advanced refused
      · intro same
        subst same
        rcases takes with ⟨final, taken⟩
        rw [refused] at taken
        cases taken
      · rw [List.take_left]
        exact Draft.viable_concat advanced takes
    · intro expected missing
      rw [missing] at refused
      exact absurd trivial (Draft.not_atEnd_of_step refused)
  · constructor
    · intro expected found unexpected
      rw [unexpected] at wanted
      exact absurd (Stage.atEnd_of_missing wanted) id
    · intro expected missing
      rw [missing] at wanted
      exact Draft.viable_concat advanced (Draft.takes_of_missing wanted)

/-- A parenthesis that is open is asked to be closed, both at another token and at the end. -/
theorem open_parenthesis_closed :
    let locate := List.mapIdx fun index token =>
      ({ value := token, location := .single "" { column := index + 1 } } : Located Token)
    let opened := [.keyword .config, .identifier "x", .assign, .openParen, .integer 1]
    let refusal : Located SyntaxError :=
      { value := .unexpectedToken .closeParen .semicolon,
        location := .single "" { column := 6 } }
    let need : Located SyntaxError :=
      { value := .missingToken .closeParen, location := .single "" { column := 5 } }
    (parse (.single "" {}) (locate (opened ++ [.semicolon])) = .error refusal ∧
      ∃ index token, (locate (opened ++ [.semicolon]))[index]? = some token ∧
        refusal.location = token.location ∧ .semicolon = token.value ∧
        Program.Viable (((locate (opened ++ [.semicolon])).take index).map Located.value ++
          [.closeParen])) ∧
    parse (.single "" {}) (locate opened) = .error need ∧
      Program.Viable (opened ++ [.closeParen]) := by
  intro locate opened refusal need
  have refused : parse (.single "" {}) (locate (opened ++ [.semicolon])) = .error refusal := by rfl
  have needed : parse (.single "" {}) (locate opened) = .error need := by rfl
  refine ⟨⟨refused, ?_⟩, needed, (expected_token_viable needed).2 _ rfl⟩
  rcases (expected_token_viable refused).1 _ _ rfl with
    ⟨index, token, found, located, -, same, -, viable⟩
  exact ⟨index, token, found, located, same, viable⟩

end Firmware
