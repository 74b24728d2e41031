import Firmware.Program.CommandForm
import Firmware.Proofs.Program.Form
import Firmware.Proofs.Program.Grammar

/-! # The forms of declarations and commands follow the grammar

What the form of a declaration or a command accepts is what the grammar derives behind
the first token, and the next token always decides how such a form goes on. -/

namespace Firmware

namespace Form

/-! ## The parts of forms in words of the grammar -/

theorem typeOf_eq_some_iff (token : Token) (type : VarType) :
    typeOf token = some type ↔ ∃ word, token = .keyword word ∧ word.NamesType type := by
  constructor
  · intro known
    cases token with
    | keyword word =>
        refine ⟨word, rfl, ?_⟩
        cases word <;> cases known <;> constructor
    | _ => cases known
  · rintro ⟨word, rfl, named⟩
    cases named <;> rfl

theorem directionOf_eq_some_iff (token : Token) (direction : PinDirection) :
    directionOf token = some direction ↔
      ∃ word, token = .keyword word ∧ word.NamesDirection direction := by
  constructor
  · intro known
    cases token with
    | keyword word =>
        refine ⟨word, rfl, ?_⟩
        cases word <;> cases known <;> constructor
    | _ => cases known
  · rintro ⟨word, rfl, named⟩
    cases named <;> rfl

theorem integerOf_eq_some_iff (token : Token) (value : Int) :
    integerOf token = some value ↔ token = .integer value := by
  cases token <;> simp [integerOf]

theorem operandText_eq_some_iff (token : Token) (text : String) :
    operandText token = some text ↔ token.IsOperand text := by
  constructor
  · intro known
    cases token with
    | text | identifier | integer => cases known; constructor
    | _ => cases known
  · intro operand
    cases operand <;> rfl

end Form

/-! ## Declarations -/

namespace Declaration

theorem names_iff (tokens : List Token) (name : String) (names : List String) :
    Names tokens (name :: names) ↔
      tokens = .identifier name :: names.flatMap fun name => [.comma, .identifier name] := by
  induction names generalizing tokens name with
  | nil =>
      constructor
      · intro derivation
        cases derivation with
        | single => rfl
        | more rest => cases rest
      · rintro rfl
        exact .single name
  | cons next names induction =>
      constructor
      · intro derivation
        cases derivation with
        | more rest =>
            rw [(induction _ _).mp rest]
            rfl
      · rintro rfl
        exact .more ((induction _ _).mpr rfl)

theorem form_accepts_iff (tokens : List Token) (declarations : List Declaration) :
    form.Accepts tokens declarations ↔ Line (.keyword .var :: tokens) declarations := by
  simp only [form, Form.Accepts, Form.Leading, Form.typeOf_eq_some_iff,
    Form.nameOf_eq_some_iff]
  constructor
  · rintro ⟨_, _, type, rfl, ⟨word, rfl, named⟩, _, rfl, _, _, name, rfl, rfl,
      names, _, rfl, rfl, rfl⟩
    exact .intro named ((names_iff _ _ _).mpr rfl)
  · intro line
    cases line with
    | @intro word type nameTokens names named derivation =>
        cases names with
        | nil => cases derivation
        | cons name names =>
            rw [names_iff] at derivation
            subst derivation
            exact ⟨_, _, type, rfl, ⟨word, rfl, named⟩, _, rfl, _, _, name, rfl, rfl,
              names, _, rfl, rfl, rfl⟩

theorem form_deterministic : form.Deterministic := by
  intro type name names
  refine ⟨trivial, ?_⟩
  rintro ⟨tokens, result, accepted, -⟩
  cases accepted

end Declaration

/-! ## Commands -/

namespace Command

theorem assignment_accepts_iff (target : String) (tokens : List Token) (command : Command) :
    (assignment target).Accepts tokens command ↔
      Derives (.identifier target :: tokens) command := by
  simp only [assignment, Form.Accepts, Form.Leading, Form.nameOf_eq_some_iff,
    OpenExpression.complete?_empty_eq_some_iff]
  constructor
  · rintro ⟨_, rfl, ⟨_, rfl, _, _, pin, rfl, rfl, rfl, rfl⟩ |
      ⟨_, rfl, _, _, pin, rfl, rfl, rfl, rfl⟩ | ⟨_, _, value, rfl, derivation, rfl, rfl⟩⟩
    · exact .readDigital target pin
    · exact .readAnalog target pin
    · exact .assign derivation
  · intro derivation
    cases derivation with
    | assign derivation =>
        rcases derivation.text_eq_render with rfl
        exact ⟨_, rfl, .inr (.inr ⟨_, _, _, rfl, derivation, rfl, rfl⟩)⟩
    | readDigital => exact ⟨_, rfl, .inl ⟨_, rfl, _, _, _, rfl, rfl, rfl, rfl⟩⟩
    | readAnalog => exact ⟨_, rfl, .inr (.inl ⟨_, rfl, _, _, _, rfl, rfl, rfl, rfl⟩)⟩

theorem derives_of_form_accepts {word : Keyword} {form : Form Command} {tokens : List Token}
    {command : Command} (known : Command.form word = some form)
    (accepted : form.Accepts tokens command) : Derives (.keyword word :: tokens) command := by
  cases word <;> cases known <;>
    simp only [Form.Accepts, Form.Leading, Form.nameOf_eq_some_iff,
      Form.integerOf_eq_some_iff, Form.directionOf_eq_some_iff,
      Form.operandText_eq_some_iff, OpenExpression.complete?_empty_eq_some_iff] at accepted
  case configurar.refl =>
    rcases accepted with
      ⟨_, _, pin, rfl, rfl, _, rfl, _, _, direction, rfl, ⟨word, rfl, named⟩, rfl, rfl⟩
    exact .configurePin named
  case configurarPWM.refl =>
    rcases accepted with
      ⟨_, _, pin, rfl, rfl, _, rfl, _, rfl, _, _, frequency, rfl, rfl,
        ⟨_, rfl, _, rfl, _, _, resolution, rfl, rfl, rfl, rfl⟩ |
        ⟨_, rfl, _, _, resolution, rfl, rfl, rfl, rfl⟩⟩
    · exact .configurePwmWithComma pin frequency resolution
    · exact .configurePwm pin frequency resolution
  case ajustarPWM.refl =>
    rcases accepted with
      ⟨_, _, pin, rfl, rfl, _, rfl, _, rfl, _, _, value, rfl, derivation, rfl, rfl⟩
    exact .adjustPwm derivation
  case conectarWifi.refl =>
    rcases accepted with ⟨_, _, ssid, rfl, first, _, _, password, rfl, second, rfl, rfl⟩
    exact .connectWifi first second
  case esperar.refl =>
    rcases accepted with ⟨_, _, value, rfl, derivation, rfl, rfl⟩
    exact .wait derivation
  case ligar.refl =>
    rcases accepted with ⟨_, _, pin, rfl, rfl, rfl, rfl⟩
    exact .turnOn pin
  case desligar.refl =>
    rcases accepted with ⟨_, _, pin, rfl, rfl, rfl, rfl⟩
    exact .turnOff pin
  case enviarHttp.refl =>
    rcases accepted with ⟨_, _, url, rfl, first, _, _, data, rfl, second, rfl, rfl⟩
    exact .sendHttp first second
  case configurarSerial.refl =>
    rcases accepted with ⟨_, _, baud, rfl, rfl, rfl, rfl⟩
    exact .configureSerial baud
  case escreverSerial.refl =>
    rcases accepted with ⟨_, _, value, rfl, derivation, rfl, rfl⟩
    exact .writeSerial derivation
  case lerSerial.refl =>
    rcases accepted with ⟨rfl, rfl⟩
    exact .readSerial
  case se.refl =>
    rcases accepted with ⟨_, _, value, rfl, derivation, _, rfl, rfl, rfl⟩
    exact .conditional derivation
  case enquanto.refl =>
    rcases accepted with ⟨_, _, value, rfl, derivation, rfl, rfl⟩
    exact .whileLoop derivation

theorem accepts_of_expression {α : Type} {tokens others : List Token} {value : Expr}
    {text : String} {rest : String → Form α} {result : α}
    (derivation : Phrase.expression.Derives tokens value text)
    (accepted : (rest text).Accepts others result) :
    (Form.expression .empty rest).Accepts (tokens ++ others) result := by
  rcases derivation.text_eq_render with rfl
  exact ⟨tokens, others, value, rfl,
    (OpenExpression.complete?_empty_eq_some_iff _ _).mpr derivation, accepted⟩

theorem form_accepts_of_derives {word : Keyword} {tokens : List Token} {command : Command}
    (derivation : Derives (.keyword word :: tokens) command) :
    ∃ form, Command.form word = some form ∧ form.Accepts tokens command := by
  cases derivation with
  | configurePin named =>
      have direction := (Form.directionOf_eq_some_iff _ _).mpr ⟨_, rfl, named⟩
      exact ⟨_, rfl, _, _, _, rfl, rfl, _, rfl, _, _, _, rfl, direction, rfl, rfl⟩
  | configurePwm =>
      exact ⟨_, rfl, _, _, _, rfl, rfl, _, rfl, _, rfl, _, _, _, rfl, rfl,
        .inr ⟨_, rfl, _, _, _, rfl, rfl, rfl, rfl⟩⟩
  | configurePwmWithComma =>
      exact ⟨_, rfl, _, _, _, rfl, rfl, _, rfl, _, rfl, _, _, _, rfl, rfl,
        .inl ⟨_, rfl, _, rfl, _, _, _, rfl, rfl, rfl, rfl⟩⟩
  | adjustPwm derivation =>
      exact ⟨_, rfl, _, _, _, rfl, rfl, _, rfl, _, rfl,
        accepts_of_expression derivation ⟨rfl, rfl⟩⟩
  | connectWifi first second =>
      exact ⟨_, rfl, _, _, _, rfl, (Form.operandText_eq_some_iff _ _).mpr first,
        _, _, _, rfl, (Form.operandText_eq_some_iff _ _).mpr second, rfl, rfl⟩
  | wait derivation => exact ⟨_, rfl, accepts_of_expression derivation ⟨rfl, rfl⟩⟩
  | turnOn => exact ⟨_, rfl, _, _, _, rfl, rfl, rfl, rfl⟩
  | turnOff => exact ⟨_, rfl, _, _, _, rfl, rfl, rfl, rfl⟩
  | sendHttp first second =>
      exact ⟨_, rfl, _, _, _, rfl, (Form.operandText_eq_some_iff _ _).mpr first,
        _, _, _, rfl, (Form.operandText_eq_some_iff _ _).mpr second, rfl, rfl⟩
  | configureSerial => exact ⟨_, rfl, _, _, _, rfl, rfl, rfl, rfl⟩
  | writeSerial derivation => exact ⟨_, rfl, accepts_of_expression derivation ⟨rfl, rfl⟩⟩
  | readSerial => exact ⟨_, rfl, rfl, rfl⟩
  | conditional derivation =>
      exact ⟨_, rfl, accepts_of_expression derivation ⟨_, rfl, rfl, rfl⟩⟩
  | whileLoop derivation => exact ⟨_, rfl, accepts_of_expression derivation ⟨rfl, rfl⟩⟩

/-- No expression begins with a token that the reader refuses at once. -/
theorem not_begins_expression {α : Type} {rest : String → Form α} {token : Token}
    {error : SyntaxError} (refused : OpenExpression.empty.step token = .error error) :
    ¬ (Form.expression .empty rest).Begins token := by
  rintro ⟨tokens, result, inside, others, value, split, completed, -⟩
  cases inside with
  | nil => cases (OpenExpression.complete?_nil _ _).mp completed
  | cons first inside =>
      cases split
      rcases (OpenExpression.complete?_cons _ _ _ _).mp completed with ⟨next, stepped, -⟩
      rw [refused] at stepped
      cases stepped

theorem assignment_deterministic (target : String) : (assignment target).Deterministic := by
  have expressionDeterministic : (Form.expression .empty fun value =>
      .closing .semicolon (Command.assign target value)).Deterministic := by
    intro text
    refine ⟨trivial, ?_⟩
    rintro operator ⟨tokens, result, split, -⟩
    cases split
  refine ⟨fun pin => trivial, ⟨fun pin => trivial, expressionDeterministic, ?_⟩, ?_⟩
  · exact not_begins_expression rfl
  · rintro ⟨tokens, result, ⟨others, split, -⟩ | accepted⟩
    · cases split
    · exact not_begins_expression rfl ⟨tokens, result, accepted⟩

theorem form_deterministic {word : Keyword} {form : Form Command}
    (known : Command.form word = some form) : form.Deterministic := by
  cases word <;> cases known <;>
    simp [Form.Deterministic, Form.Begins, Form.Accepts]

end Command

end Firmware
