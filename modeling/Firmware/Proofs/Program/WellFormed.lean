import Firmware.Build
import Firmware.Proofs.Expression.RoundTrip
import Firmware.Proofs.Program.EarliestError

/-! # The programs that sources write

A program can hold any texts in its commands. One that is read from a source holds words as
names, and elsewhere the texts of expressions and operands with well-formed tokens. -/

namespace Firmware

/-- The text of an expression of well-formed tokens. -/
def IsExpression (text : String) : Prop :=
  ∃ expression : Expr, expression.render = text ∧
    ∀ token ∈ expression.printed, token.WellFormed

/-- The text of a well-formed operand. -/
def IsOperand (text : String) : Prop :=
  ∃ token : Token, token.WellFormed ∧ token.IsOperand text

def Declaration.WellFormed (declaration : Declaration) : Prop :=
  IsWord declaration.name.toList ∧ declaration.type ≠ .undefined

def Command.WellFormed : Command → Prop
  | .assign name text | .adjustPwm name text => IsWord name.toList ∧ IsExpression text
  | .configurePin pin _ | .configurePwm pin _ _ | .turnOn pin | .turnOff pin =>
      IsWord pin.toList
  | .readDigital target pin | .readAnalog target pin =>
      IsWord target.toList ∧ IsWord pin.toList
  | .connectWifi first second | .sendHttp first second => IsOperand first ∧ IsOperand second
  | .wait text | .writeSerial text | .conditional text | .whileLoop text => IsExpression text
  | .configureSerial _ | .readSerial => True
  | .undefined => False

structure Program.WellFormed (program : Program) : Prop where
  declarations : ∀ declaration ∈ program.declarations, declaration.WellFormed
  setup : ∀ command ∈ program.setup, command.WellFormed
  loop : ∀ command ∈ program.loop, command.WellFormed

/-! ## From tokens to texts -/

theorem Phrase.Derives.isExpression {tokens : List Token} {value : Expr} {text : String}
    (derivation : Phrase.expression.Derives tokens value text)
    (wellFormed : ∀ token ∈ tokens, token.WellFormed) : IsExpression text :=
  ⟨value, derivation.text_eq_render.symm, derivation.printed_wellFormed wellFormed⟩

theorem Declaration.Names.isWord {tokens : List Token} {names : List String}
    (derivation : Names tokens names) (wellFormed : ∀ token ∈ tokens, token.WellFormed) :
    ∀ name ∈ names, IsWord name.toList := by
  induction derivation with
  | single name => simpa using (wellFormed _ List.mem_cons_self).1
  | more _ induction =>
      rw [List.forall_mem_cons, List.forall_mem_cons] at wellFormed
      rw [List.forall_mem_cons]
      exact ⟨wellFormed.1.1, induction wellFormed.2.2⟩

theorem Declaration.Line.wellFormed {tokens : List Token} {declarations : List Declaration}
    (line : Line tokens declarations) (wellFormed : ∀ token ∈ tokens, token.WellFormed) :
    ∀ declaration ∈ declarations, declaration.WellFormed := by
  cases line with
  | @intro word type nameTokens names named derivation =>
      intro declaration member
      rcases List.mem_map.mp member with ⟨name, listed, rfl⟩
      refine ⟨derivation.isWord (fun token inside => wellFormed token ?_) name listed, ?_⟩
      · simp [inside]
      · cases named <;> simp

theorem Command.Derives.wellFormed {tokens : List Token} {command : Command}
    (derivation : Derives tokens command) (wellFormed : ∀ token ∈ tokens, token.WellFormed) :
    command.WellFormed := by
  cases derivation <;>
    simp only [List.cons_append, List.forall_mem_cons, List.forall_mem_append] at wellFormed
  case assign inner => exact ⟨wellFormed.1.1, inner.isExpression wellFormed.2.2.1⟩
  case adjustPwm inner => exact ⟨wellFormed.2.1.1, inner.isExpression wellFormed.2.2.2.2.1⟩
  case readDigital | readAnalog => exact ⟨wellFormed.1.1, wellFormed.2.2.2.1.1⟩
  case configurePin | configurePwm | configurePwmWithComma | turnOn | turnOff =>
    exact wellFormed.2.1.1
  case connectWifi first second | sendHttp first second =>
    exact ⟨⟨_, wellFormed.2.1, first⟩, ⟨_, wellFormed.2.2.1, second⟩⟩
  case wait inner | writeSerial inner | conditional inner | whileLoop inner =>
    exact inner.isExpression wellFormed.2.1
  case configureSerial | readSerial => trivial

theorem Sequence.forall_mem {α : Type} {Piece : List Token → α → Prop} {Good : α → Prop}
    {tokens : List Token} {values : List α} (sequence : Sequence Piece tokens values)
    (each : ∀ {tokens value}, Piece tokens value → (∀ token ∈ tokens, token.WellFormed) →
      Good value)
    (wellFormed : ∀ token ∈ tokens, token.WellFormed) : ∀ value ∈ values, Good value := by
  induction sequence with
  | nil => simp
  | cons piece _ induction =>
      rw [List.forall_mem_append] at wellFormed
      rw [List.forall_mem_cons]
      exact ⟨each piece wellFormed.1, induction wellFormed.2⟩

theorem Program.Derives.wellFormed {tokens : List Token} {program : Program}
    (derivation : Derives tokens program) (wellFormed : ∀ token ∈ tokens, token.WellFormed) :
    program.WellFormed := by
  cases derivation with
  | @intro heading lines setupTokens setup loopTokens loop lineSequence setupSequence
      loopSequence =>
      simp only [List.append_assoc, List.cons_append, List.forall_mem_append,
        List.forall_mem_cons] at wellFormed
      rcases wellFormed with ⟨inHeading, -, inSetup, -, -, inLoop, -⟩
      refine ⟨?_, ?_, ?_⟩
      · intro declaration member
        rcases List.mem_flatten.mp member with ⟨line, listed, inLine⟩
        exact lineSequence.forall_mem Declaration.Line.wellFormed inHeading
          line listed declaration inLine
      · exact setupSequence.forall_mem Command.Derives.wellFormed inSetup
      · exact loopSequence.forall_mem Command.Derives.wellFormed inLoop

theorem parse_eq_ok_iff (start : Location) (tokens : List (Located Token)) (program : Program) :
    parse start tokens = .ok program ↔ Program.Derives (tokens.map Located.value) program := by
  rw [parse, Draft.read_eq_ok_iff {} Draft.deterministic_empty, Draft.completes_empty_iff]

/-- Every program that is read from a source is well formed. -/
theorem Source.program_wellFormed {source : Source} {program : Program}
    (read : source.program = .ok program) : program.WellFormed := by
  rw [Source.program] at read
  cases lexed : source.tokens with
  | error =>
      rw [lexed] at read
      cases read
  | ok tokens =>
      rw [lexed] at read
      change (parse source.start tokens).mapError Rejection.syntactic = .ok program at read
      cases parsed : parse source.start tokens with
      | error =>
          rw [parsed] at read
          cases read
      | ok result =>
          rw [parsed] at read
          obtain rfl : result = program := Except.ok.inj read
          apply ((parse_eq_ok_iff _ _ _).mp parsed).wellFormed
          intro token member
          rcases List.mem_map.mp member with ⟨located, delivered, rfl⟩
          exact Source.tokens_wellFormed lexed located delivered

end Firmware
