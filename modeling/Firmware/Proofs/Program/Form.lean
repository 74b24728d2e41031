import Firmware.Program.Form
import Firmware.Proofs.Expression.Reading

/-! # What forms accept

A form accepts lists of tokens, each with the value they make. Main statement: a step
over a token leaves a form that accepts exactly the lists that the first form accepts
behind that token. This needs that the first token of a list decides how a form goes
on: no list may go both ways at a branch, and an operator never follows an expression. -/

namespace Firmware

namespace OpenExpression

theorem complete?_nil (reading : OpenExpression) (value : Expr) :
    reading.complete? [] = some value ↔ reading.finish = .ok value := by
  rw [complete?, feed_nil, Option.bind_some]
  cases reading.finish <;> simp [Except.toOption]

theorem complete?_cons (reading : OpenExpression) (token : Token) (rest : List Token)
    (value : Expr) :
    reading.complete? (token :: rest) = some value ↔
      ∃ next, reading.step token = .ok (.extended next) ∧ next.complete? rest = some value := by
  rw [complete?, feed]
  split
  · next next step => simp [step, complete?]
  · next other =>
      constructor
      · intro impossible
        cases impossible
      · rintro ⟨next, step, -⟩
        exact absurd step (other next)

/-- Behind a complete expression any token that is no operator ends it. -/
theorem ended_of_finish {reading : OpenExpression} {token : Token} {value : Expr}
    (finished : reading.finish = .ok value) (notOperator : ∀ operator, token ≠ .operator operator) :
    reading.step token = .ok (.ended value) := by
  cases reading with
  | due => cases finished
  | read pending operand outer =>
      cases outer with
      | cons => cases finished
      | nil =>
          cases finished
          rw [step]
          · rfl
          · intro gap outer _ impossible
            cases impossible
          · exact notOperator

end OpenExpression

/-- Tokens of which the first one stands for a value, and the others go on from there. -/
def Form.Leading {β : Type} (meaning : Token → Option β) (Others : β → List Token → Prop)
    (tokens : List Token) : Prop :=
  ∃ token others value, tokens = token :: others ∧ meaning token = some value ∧
    Others value others

namespace Form

variable {α : Type}

/-- The tokens are what a form stands for, and make a value. -/
def Accepts : Form α → List Token → α → Prop
  | .closing expected value, tokens, result => tokens = [expected] ∧ result = value
  | .emptyBody value, tokens, result => tokens = [.keyword .fim] ∧ result = value
  | .token expected rest, tokens, result =>
      ∃ others, tokens = expected :: others ∧ rest.Accepts others result
  | .branch marker taken otherwise, tokens, result =>
      (∃ others, tokens = marker :: others ∧ taken.Accepts others result) ∨
        otherwise.Accepts tokens result
  | .type rest, tokens, result =>
      Leading typeOf (fun value others => (rest value).Accepts others result) tokens
  | .direction rest, tokens, result =>
      Leading directionOf (fun value others => (rest value).Accepts others result) tokens
  | .identifier rest, tokens, result =>
      Leading nameOf (fun value others => (rest value).Accepts others result) tokens
  | .names collected rest, tokens, result =>
      ∃ names others,
        tokens = names.flatMap (fun name => [.comma, .identifier name]) ++ others ∧
          (rest (collected ++ names)).Accepts others result
  | .integer rest, tokens, result =>
      Leading integerOf (fun value others => (rest value).Accepts others result) tokens
  | .operand rest, tokens, result =>
      Leading operandText (fun value others => (rest value).Accepts others result) tokens
  | .expression reading rest, tokens, result =>
      ∃ inside others value, tokens = inside ++ others ∧
        reading.complete? inside = some value ∧ (rest value.render).Accepts others result

def Begins (form : Form α) (token : Token) : Prop :=
  ∃ tokens result, form.Accepts (token :: tokens) result

/-- The next token always decides how to go on. -/
def Deterministic : Form α → Prop
  | .closing _ _ | .emptyBody _ => True
  | .token _ rest => rest.Deterministic
  | .branch marker taken otherwise =>
      taken.Deterministic ∧ otherwise.Deterministic ∧ ¬ otherwise.Begins marker
  | .type rest => ∀ type, (rest type).Deterministic
  | .direction rest => ∀ direction, (rest direction).Deterministic
  | .identifier rest => ∀ name, (rest name).Deterministic
  | .names _ rest => ∀ names, (rest names).Deterministic ∧ ¬ (rest names).Begins .comma
  | .integer rest => ∀ value, (rest value).Deterministic
  | .operand rest => ∀ text, (rest text).Deterministic
  | .expression _ rest =>
      ∀ text, (rest text).Deterministic ∧ ∀ operator, ¬ (rest text).Begins (.operator operator)

theorem not_accepts_nil (form : Form α) (result : α) : ¬ form.Accepts [] result := by
  induction form with
  | closing | emptyBody => simp [Accepts]
  | token => simp [Accepts]
  | branch marker taken otherwise _ induction => simpa [Accepts] using induction
  | type | direction | identifier | integer | operand => simp [Accepts, Leading]
  | names collected rest induction =>
      rintro ⟨names, others, split, accepted⟩
      rcases List.append_eq_nil_iff.mp split.symm with ⟨-, rfl⟩
      exact induction _ accepted
  | expression reading rest induction =>
      rintro ⟨inside, others, value, split, -, accepted⟩
      rcases List.append_eq_nil_iff.mp split.symm with ⟨-, rfl⟩
      exact induction _ accepted

end Form

/-- The tokens are what a step leaves to be read. -/
def FormStep.Accepts {α : Type} : FormStep α → List Token → α → Prop
  | .more form, tokens, result => form.Accepts tokens result
  | .done value, tokens, result => tokens = [] ∧ result = value

namespace Form

variable {α β : Type}

theorem leading_cons (meaning : Token → Option β) (Others : β → List Token → Prop)
    (token : Token) (tokens : List Token) :
    Leading meaning Others (token :: tokens) ↔
      ∃ value, meaning token = some value ∧ Others value tokens := by
  constructor
  · rintro ⟨_, _, value, split, known, accepted⟩
    cases split
    exact ⟨value, known, accepted⟩
  · rintro ⟨value, known, accepted⟩
    exact ⟨token, tokens, value, rfl, known, accepted⟩

theorem leading_cons_iff_proceed (error : SyntaxError) (meaning : Token → Option β)
    (rest : β → Form α) (token : Token) (tokens : List Token) (result : α) :
    Leading meaning (fun value others => (rest value).Accepts others result)
        (token :: tokens) ↔
      ∃ next, proceed error rest (meaning token) = .ok next ∧ next.Accepts tokens result := by
  rw [leading_cons]
  cases meaning token with
  | none => simp [proceed]
  | some value => simp [proceed, FormStep.Accepts]

theorem nameOf_eq_some_iff (token : Token) (name : String) :
    nameOf token = some name ↔ token = .identifier name := by
  cases token <;> simp [nameOf]

/-- A step over a token leaves what may stand behind it. -/
def Steps (form : Form α) : Prop :=
  ∀ token tokens result, form.Accepts (token :: tokens) result ↔
    ∃ next, form.step token = .ok next ∧ next.Accepts tokens result

theorem steps_branch {marker : Token} {taken otherwise : Form α}
    (separate : ¬ otherwise.Begins marker) (otherwiseSteps : otherwise.Steps) :
    (branch marker taken otherwise).Steps := by
  intro token tokens result
  rw [step, Accepts]
  by_cases marked : token = marker
  · subst marked
    rw [if_pos rfl]
    constructor
    · rintro (⟨others, split, accepted⟩ | accepted)
      · cases split
        exact ⟨_, rfl, accepted⟩
      · exact absurd ⟨tokens, result, accepted⟩ separate
    · rintro ⟨_, stepped, accepted⟩
      cases stepped
      exact .inl ⟨tokens, rfl, accepted⟩
  · rw [if_neg marked, ← otherwiseSteps]
    constructor
    · rintro (⟨others, split, -⟩ | accepted)
      · cases split
        exact absurd rfl marked
      · exact accepted
    · exact .inr

theorem steps_names {collected : List String} {rest : List String → Form α}
    (separate : ∀ names, ¬ (rest names).Begins .comma) (restSteps : (rest collected).Steps) :
    (names collected rest).Steps := by
  intro token tokens result
  rw [step, Accepts]
  by_cases separated : token = .comma
  · subst separated
    rw [if_pos rfl]
    constructor
    · rintro ⟨names, others, split, accepted⟩
      cases names with
      | nil =>
          rw [List.flatMap_nil, List.nil_append] at split
          subst split
          exact absurd ⟨tokens, result, accepted⟩ (separate _)
      | cons name names =>
          rw [List.flatMap_cons, List.cons_append, List.cons_append] at split
          cases split
          refine ⟨_, rfl, _, _, name, rfl, rfl, names, others, rfl, ?_⟩
          rwa [List.append_assoc]
    · rintro ⟨_, stepped, accepted⟩
      cases stepped
      rcases accepted with ⟨following, _, name, rfl, known, names, others, rfl, accepted⟩
      rw [nameOf_eq_some_iff] at known
      subst known
      refine ⟨name :: names, others, rfl, ?_⟩
      rwa [List.append_assoc] at accepted
  · rw [if_neg separated, ← restSteps]
    constructor
    · rintro ⟨names, others, split, accepted⟩
      cases names with
      | nil =>
          rw [List.append_nil] at accepted
          rwa [split]
      | cons name names =>
          rw [List.flatMap_cons, List.cons_append] at split
          cases split
          exact absurd rfl separated
    · intro accepted
      refine ⟨[], token :: tokens, rfl, ?_⟩
      rwa [List.append_nil]

theorem steps_expression {reading : OpenExpression} {rest : String → Form α}
    (separate : ∀ text operator, ¬ (rest text).Begins (.operator operator))
    (restSteps : ∀ text, (rest text).Steps) : (expression reading rest).Steps := by
  intro token tokens result
  rw [step, Accepts]
  constructor
  · rintro ⟨inside, others, value, split, completed, accepted⟩
    cases inside with
    | nil =>
        rw [List.nil_append] at split
        subst split
        rw [OpenExpression.complete?_nil] at completed
        have notOperator : ∀ operator, token ≠ .operator operator := by
          rintro operator rfl
          exact separate value.render operator ⟨tokens, result, accepted⟩
        rw [OpenExpression.ended_of_finish completed notOperator]
        exact (restSteps _ _ _ _).mp accepted
    | cons first inside =>
        cases split
        rcases (OpenExpression.complete?_cons _ _ _ _).mp completed with ⟨next, stepped, completed⟩
        rw [stepped]
        exact ⟨_, rfl, inside, others, value, rfl, completed, accepted⟩
  · rintro ⟨next, stepped, accepted⟩
    split at stepped
    · next extended step =>
        cases stepped
        rcases accepted with ⟨inside, others, value, rfl, completed, accepted⟩
        exact ⟨token :: inside, others, value, rfl,
          (OpenExpression.complete?_cons _ _ _ _).mpr ⟨extended, step, completed⟩, accepted⟩
    · next value step =>
        exact ⟨[], token :: tokens, value, rfl,
          (OpenExpression.complete?_nil _ _).mpr (OpenExpression.finish_of_ended step),
          (restSteps _ _ _ _).mpr ⟨next, stepped, accepted⟩⟩
    · cases stepped

theorem Deterministic.steps {form : Form α} (deterministic : form.Deterministic) :
    form.Steps := by
  induction form with
  | closing expected value =>
      intro token tokens result
      by_cases same : token = expected <;> simp [Accepts, step, FormStep.Accepts, same]
  | emptyBody value =>
      intro token tokens result
      by_cases same : token = .keyword .fim <;> simp [Accepts, step, FormStep.Accepts, same]
  | token expected rest =>
      intro token tokens result
      by_cases same : token = expected <;> simp [Accepts, step, FormStep.Accepts, same]
  | type | direction | identifier | integer | operand =>
      intro token tokens result
      exact leading_cons_iff_proceed ..
  | branch marker taken otherwise _ induction =>
      exact steps_branch deterministic.2.2 (induction deterministic.2.1)
  | names collected rest induction =>
      exact steps_names (fun names => (deterministic names).2)
        (induction _ (deterministic collected).1)
  | expression reading rest induction =>
      exact steps_expression (fun text => (deterministic text).2)
        fun text => induction text (deterministic text).1

theorem deterministic_of_proceed {error : SyntaxError} {rest : β → Form α} {value : Option β}
    {next : Form α} (deterministic : ∀ value, (rest value).Deterministic)
    (proceeded : proceed error rest value = .ok (.more next)) : next.Deterministic := by
  cases value with
  | none => cases proceeded
  | some value =>
      cases proceeded
      exact deterministic value

theorem Deterministic.step {form next : Form α} {token : Token}
    (deterministic : form.Deterministic) (stepped : form.step token = .ok (.more next)) :
    next.Deterministic := by
  induction form generalizing token with
  | closing expected value =>
      rw [Form.step] at stepped
      split at stepped <;> cases stepped
  | emptyBody value =>
      rw [Form.step] at stepped
      split at stepped <;> cases stepped
  | token expected rest =>
      rw [Form.step] at stepped
      split at stepped <;> cases stepped
      exact deterministic
  | type | direction | identifier | integer | operand =>
      exact deterministic_of_proceed deterministic stepped
  | branch marker taken otherwise _ induction =>
      rw [Form.step] at stepped
      split at stepped
      · cases stepped
        exact deterministic.1
      · exact induction deterministic.2.1 stepped
  | names collected rest induction =>
      rw [Form.step] at stepped
      split at stepped
      · cases stepped
        exact fun name => deterministic
      · exact induction _ (deterministic _).1 stepped
  | expression reading rest induction =>
      rw [Form.step] at stepped
      split at stepped
      · cases stepped
        exact deterministic
      · exact induction _ (deterministic _).1 stepped
      · cases stepped

/-- The tokens are what a form stands for, with others behind them that go on from the
value made. -/
def AcceptsThen (form : Form α) (Others : α → List Token → Prop) (tokens : List Token) : Prop :=
  ∃ first others value, tokens = first ++ others ∧ form.Accepts first value ∧
    Others value others

end Form

/-- The tokens are what a step leaves to be read, with others behind them. -/
def FormStep.AcceptsThen {α : Type} (Others : α → List Token → Prop) :
    FormStep α → List Token → Prop
  | .more form, tokens => form.AcceptsThen Others tokens
  | .done value, tokens => Others value tokens

theorem Form.Deterministic.acceptsThen_cons_iff {α : Type} {form : Form α}
    (deterministic : form.Deterministic) (Others : α → List Token → Prop) (token : Token)
    (tokens : List Token) :
    form.AcceptsThen Others (token :: tokens) ↔
      ∃ next, form.step token = .ok next ∧ next.AcceptsThen Others tokens := by
  constructor
  · rintro ⟨first, others, value, split, accepted, following⟩
    cases first with
    | nil => exact absurd accepted (form.not_accepts_nil value)
    | cons head first =>
        cases split
        rcases (deterministic.steps _ _ _).mp accepted with ⟨next, stepped, accepted⟩
        refine ⟨next, stepped, ?_⟩
        cases next with
        | more form => exact ⟨first, others, value, rfl, accepted, following⟩
        | done result =>
            rcases accepted with ⟨rfl, rfl⟩
            exact following
  · rintro ⟨next, stepped, accepted⟩
    cases next with
    | more next =>
        rcases accepted with ⟨first, others, value, rfl, accepted, following⟩
        exact ⟨token :: first, others, value, rfl,
          (deterministic.steps _ _ _).mpr ⟨_, stepped, accepted⟩, following⟩
    | done value =>
        exact ⟨[token], tokens, value, rfl,
          (deterministic.steps _ _ _).mpr ⟨_, stepped, rfl, rfl⟩, accepted⟩

end Firmware
