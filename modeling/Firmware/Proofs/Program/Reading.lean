import Firmware.Program.Reading
import Firmware.Proofs.Program.CommandForm

/-! # The reader of programs follows the grammar

Every stage of the reader stands for the lists of tokens that complete a program from
there, each with the part of the program that it adds. A step over a token leaves the
stage that stands for what may follow it. Main statement: tokens are read as a program
exactly if the grammar derives that program from them. -/

namespace Firmware

namespace Program

/-- A program that goes on with the declarations and commands of another one. -/
def followedBy (first second : Program) : Program where
  declarations := first.declarations ++ second.declarations
  setup := first.setup ++ second.setup
  loop := first.loop ++ second.loop

/-- A program with commands in front of those of a block. -/
def prepend (program : Program) (commands : List Command) : Block → Program
  | .setup => { program with setup := commands ++ program.setup }
  | .loop => { program with loop := commands ++ program.loop }

theorem followedBy_empty (program : Program) : program.followedBy {} = program := by
  simp [followedBy]

theorem append_followedBy (program rest : Program) (command : Command) (block : Block) :
    (program.append command block).followedBy rest =
      program.followedBy (rest.prepend [command] block) := by
  cases block <;> simp [append, prepend, followedBy]

theorem prepend_cons (program : Program) (command : Command) (commands : List Command)
    (block : Block) :
    program.prepend (command :: commands) block =
      (program.prepend commands block).prepend [command] block := by
  cases block <;> rfl

end Program

/-- The tokens that may follow at a stage, and the part of the program that they add. -/
inductive Stage.Rest : Stage → List Token → Program → Prop
  | complete : Rest .complete [] {}
  | repita {tokens rest} :
      Rest (.commands .loop) tokens rest → Rest .separator (.keyword .repita :: tokens) rest
  | fim {block tokens rest} :
      Rest (.afterBlock block) tokens rest →
      Rest (.commands block) (.keyword .fim :: tokens) rest
  | command {block first command tokens rest} :
      Command.Derives first command → Rest (.commands block) tokens rest →
      Rest (.commands block) (first ++ tokens) (rest.prepend [command] block)
  | insideCommand {block form first command tokens rest} :
      form.Accepts first command → Rest (.commands block) tokens rest →
      Rest (.command block form) (first ++ tokens) (rest.prepend [command] block)
  | config {tokens rest} :
      Rest (.commands .setup) tokens rest → Rest .heading (.keyword .config :: tokens) rest
  | line {first declarations tokens rest} :
      Declaration.Line first declarations → Rest .heading tokens rest →
      Rest .heading (first ++ tokens)
        { rest with declarations := declarations ++ rest.declarations }
  | insideLine {form first declarations tokens rest} :
      form.Accepts first declarations → Rest .heading tokens rest →
      Rest (.declaration form) (first ++ tokens)
        { rest with declarations := declarations ++ rest.declarations }

/-! ## The stages and the grammar -/

namespace Stage.Rest

theorem of_commands {block : Block} {first tokens : List Token} {commands : List Command}
    {rest : Program} (sequence : Sequence Command.Derives first commands)
    (after : Rest (.afterBlock block) tokens rest) :
    Rest (.commands block) (first ++ .keyword .fim :: tokens) (rest.prepend commands block) := by
  induction sequence with
  | nil =>
      have ended := Rest.fim after
      cases block <;> exact ended
  | cons derivation _ induction =>
      rw [List.append_assoc, Program.prepend_cons]
      exact .command derivation induction

theorem commands_inversion {stage : Stage} {block : Block} {tokens : List Token} {rest : Program}
    (rests : Rest stage tokens rest) (here : stage = .commands block) :
    ∃ first others commands after, Sequence Command.Derives first commands ∧
      Rest (.afterBlock block) others after ∧ tokens = first ++ .keyword .fim :: others ∧
        rest = after.prepend commands block := by
  induction rests with
  | @fim block tokens rest after =>
      cases here
      refine ⟨[], tokens, [], rest, .nil, after, rfl, ?_⟩
      cases block <;> rfl
  | command derivation _ induction =>
      cases here
      rcases induction rfl with ⟨first, others, commands, after, sequence, afterRests, rfl, rfl⟩
      refine ⟨_, others, _, after, .cons derivation sequence, afterRests, ?_, ?_⟩
      · rw [List.append_assoc]
      · exact (Program.prepend_cons ..).symm
  | _ => cases here

theorem of_lines {first tokens : List Token} {lines : List (List Declaration)} {rest : Program}
    (sequence : Sequence Declaration.Line first lines)
    (after : Rest (.commands .setup) tokens rest) :
    Rest .heading (first ++ .keyword .config :: tokens)
      { rest with declarations := lines.flatten ++ rest.declarations } := by
  induction sequence with
  | nil => exact .config after
  | cons derivation _ induction =>
      rw [List.append_assoc, List.flatten_cons, List.append_assoc]
      exact .line derivation induction

theorem heading_inversion {stage : Stage} {tokens : List Token} {rest : Program}
    (rests : Rest stage tokens rest) (here : stage = .heading) :
    ∃ first others lines after, Sequence Declaration.Line first lines ∧
      Rest (.commands .setup) others after ∧ tokens = first ++ .keyword .config :: others ∧
        rest = { after with declarations := lines.flatten ++ after.declarations } := by
  induction rests with
  | @config tokens rest after => exact ⟨[], tokens, [], rest, .nil, after, rfl, rfl⟩
  | line derivation _ induction =>
      rcases induction rfl with ⟨first, others, lines, after, sequence, afterRests, rfl, rfl⟩
      refine ⟨_, others, _, after, .cons derivation sequence, afterRests, ?_, ?_⟩
      · rw [List.append_assoc]
      · rw [List.flatten_cons, List.append_assoc]
  | _ => cases here

theorem heading_iff (tokens : List Token) (program : Program) :
    Rest .heading tokens program ↔ Program.Derives tokens program := by
  constructor
  · intro rests
    rcases heading_inversion rests rfl with
      ⟨heading, _, lines, _, linesDerived, setupRests, rfl, rfl⟩
    rcases commands_inversion setupRests rfl with
      ⟨setupTokens, _, setup, _, setupDerived, separatorRests, rfl, rfl⟩
    cases separatorRests with
    | repita loopRests =>
        rcases commands_inversion loopRests rfl with
          ⟨loopTokens, _, loop, _, loopDerived, completeRests, rfl, rfl⟩
        cases completeRests
        have derivation := Program.Derives.intro linesDerived setupDerived loopDerived
        simpa [Program.prepend] using derivation
  · intro derivation
    cases derivation with
    | intro linesDerived setupDerived loopDerived =>
        have rests := of_lines linesDerived
          (of_commands setupDerived (.repita (of_commands loopDerived .complete)))
        simpa [Program.prepend] using rests

end Stage.Rest

/-! ## Steps -/

/-- The next token decides how a declaration or a command goes on. -/
def Stage.Deterministic : Stage → Prop
  | .declaration form => form.Deterministic
  | .command _ form => form.Deterministic
  | _ => True

namespace Draft

def Completes (draft : Draft) (tokens : List Token) (program : Program) : Prop :=
  ∃ rest, draft.stage.Rest tokens rest ∧ program = draft.program.followedBy rest

theorem command_head {tokens : List Token} {command : Command}
    (derivation : Command.Derives tokens command) :
    (∃ target others, tokens = .identifier target :: others) ∨
      ∃ word others, tokens = .keyword word :: others := by
  cases derivation with
  | assign | readDigital | readAnalog => exact .inl ⟨_, _, rfl⟩
  | _ => exact .inr ⟨_, _, rfl⟩

theorem enterCommand_keyword {word : Keyword} {form : Form Command}
    (known : Command.form word = some form) (program : Program) (block : Block) :
    enterCommand program block (.keyword word) =
      .ok { program, stage := .command block form } := by
  cases word <;> cases known <;> rfl

/-- What the first token behind a command can begin. -/
theorem enterCommand_cases {program : Program} {block : Block} {token : Token} {next : Draft}
    (entered : enterCommand program block token = .ok next) :
    (token = .keyword .fim ∧ next = { program, stage := .afterBlock block }) ∨
      (∃ target, token = .identifier target ∧
        next = { program, stage := .command block (Command.assignment target) }) ∨
      ∃ word form, token = .keyword word ∧ Command.form word = some form ∧
        next = { program, stage := .command block form } := by
  cases token with
  | identifier target =>
      cases entered
      exact .inr (.inl ⟨target, rfl, rfl⟩)
  | keyword word =>
      by_cases ended : word = .fim
      · subst ended
        cases entered
        exact .inl ⟨rfl, rfl⟩
      · cases known : Command.form word with
        | none =>
            rw [enterCommand, known] at entered
            · cases entered
            · exact ended
        | some form =>
            rw [enterCommand_keyword known] at entered
            cases entered
            exact .inr (.inr ⟨word, form, rfl, known, rfl⟩)
  | _ => cases entered

theorem enterCommand_iff (program result : Program) (block : Block) (token : Token)
    (tokens : List Token) :
    Completes { program, stage := .commands block } (token :: tokens) result ↔
      ∃ next, enterCommand program block token = .ok next ∧ next.Completes tokens result := by
  constructor
  · rintro ⟨rest, rests, rfl⟩
    generalize split : token :: tokens = all at rests
    cases rests with
    | fim after =>
        cases split
        exact ⟨_, rfl, rest, after, rfl⟩
    | command derivation after =>
        rcases command_head derivation with ⟨target, others, rfl⟩ | ⟨word, others, rfl⟩
        · cases split
          have accepted := (Command.assignment_accepts_iff _ _ _).mpr derivation
          exact ⟨_, rfl, _, .insideCommand accepted after, rfl⟩
        · cases split
          rcases Command.form_accepts_of_derives derivation with ⟨form, known, accepted⟩
          exact ⟨_, enterCommand_keyword known _ _, _, .insideCommand accepted after, rfl⟩
  · rintro ⟨next, entered, rest, rests, rfl⟩
    rcases enterCommand_cases entered with
      ⟨rfl, rfl⟩ | ⟨target, rfl, rfl⟩ | ⟨word, form, rfl, known, rfl⟩
    · exact ⟨rest, .fim rests, rfl⟩
    · cases rests with
      | insideCommand accepted after =>
          have derivation := (Command.assignment_accepts_iff _ _ _).mp accepted
          exact ⟨_, .command derivation after, rfl⟩
    · cases rests with
      | insideCommand accepted after =>
          have derivation := Command.derives_of_form_accepts known accepted
          exact ⟨_, .command derivation after, rfl⟩

theorem completes_command_iff (program result : Program) (block : Block) (form : Form Command)
    (tokens : List Token) :
    Completes { program, stage := .command block form } tokens result ↔
      form.AcceptsThen (fun command others =>
        Completes { program := program.append command block, stage := .commands block }
          others result) tokens := by
  constructor
  · rintro ⟨rest, rests, rfl⟩
    cases rests with
    | insideCommand accepted after =>
        exact ⟨_, _, _, rfl, accepted, _, after, (Program.append_followedBy ..).symm⟩
  · rintro ⟨first, others, command, rfl, accepted, rest, after, rfl⟩
    exact ⟨_, .insideCommand accepted after, Program.append_followedBy ..⟩

theorem completes_declaration_iff (program result : Program) (form : Form (List Declaration))
    (tokens : List Token) :
    Completes { program, stage := .declaration form } tokens result ↔
      form.AcceptsThen (fun declarations others =>
        Completes { program :=
            { program with declarations := program.declarations ++ declarations } }
          others result) tokens := by
  constructor
  · rintro ⟨rest, rests, rfl⟩
    cases rests with
    | insideLine accepted after =>
        refine ⟨_, _, _, rfl, accepted, _, after, ?_⟩
        simp [Program.followedBy]
  · rintro ⟨first, others, declarations, rfl, accepted, rest, after, rfl⟩
    refine ⟨_, .insideLine accepted after, ?_⟩
    simp [Program.followedBy]

theorem completes_heading_iff (program result : Program) (token : Token) (tokens : List Token) :
    Completes { program } (token :: tokens) result ↔
      (token = .keyword .var ∧
          Completes { program, stage := .declaration Declaration.form } tokens result) ∨
        (token = .keyword .config ∧
          Completes { program, stage := .commands .setup } tokens result) := by
  constructor
  · rintro ⟨rest, rests, rfl⟩
    generalize split : token :: tokens = all at rests
    cases rests with
    | config after =>
        cases split
        exact .inr ⟨rfl, rest, after, rfl⟩
    | line derivation after =>
        cases derivation with
        | intro named names =>
            cases split
            have accepted := (Declaration.form_accepts_iff _ _).mpr (.intro named names)
            exact .inl ⟨rfl, _, .insideLine accepted after, rfl⟩
  · rintro (⟨rfl, rest, rests, rfl⟩ | ⟨rfl, rest, rests, rfl⟩)
    · cases rests with
      | insideLine accepted after =>
          have derivation := (Declaration.form_accepts_iff _ _).mp accepted
          exact ⟨_, .line derivation after, rfl⟩
    · exact ⟨_, .config rests, rfl⟩

/-- A step inside a form leaves what the form may go on with. -/
theorem completes_form_iff {α : Type} {form : Form α} (deterministic : form.Deterministic)
    {inside : Form α → Draft} {after : α → Draft} {result : Program}
    (completes : ∀ form tokens, (inside form).Completes tokens result ↔
      form.AcceptsThen (fun value others => (after value).Completes others result) tokens)
    (token : Token) (tokens : List Token) :
    (inside form).Completes (token :: tokens) result ↔
      ∃ next, (match form.step token with
        | .ok (.more form) => .ok (inside form)
        | .ok (.done value) => .ok (after value)
        | .error error => .error error : Except SyntaxError Draft) = .ok next ∧
          next.Completes tokens result := by
  rw [completes, deterministic.acceptsThen_cons_iff]
  constructor
  · rintro ⟨next, stepped, accepted⟩
    rw [stepped]
    cases next with
    | more form => exact ⟨_, rfl, (completes ..).mpr accepted⟩
    | done value => exact ⟨_, rfl, accepted⟩
  · rintro ⟨next, stepped, completed⟩
    split at stepped
    · next form here =>
        cases stepped
        exact ⟨_, here, (completes ..).mp completed⟩
    · next value here =>
        cases stepped
        exact ⟨_, here, completed⟩
    · cases stepped

/-- A step leaves what may stand behind its token. -/
theorem completes_cons_iff (draft : Draft) (deterministic : draft.stage.Deterministic)
    (token : Token) (tokens : List Token) (result : Program) :
    draft.Completes (token :: tokens) result ↔
      ∃ next, draft.step token = .ok next ∧ next.Completes tokens result := by
  rcases draft with ⟨program, stage⟩
  cases stage with
  | heading =>
      rw [completes_heading_iff]
      simp only [step]
      constructor
      · rintro (⟨rfl, completes⟩ | ⟨rfl, completes⟩)
        · exact ⟨_, rfl, completes⟩
        · exact ⟨_, rfl, completes⟩
      · rintro ⟨next, stepped, completes⟩
        split at stepped
        · next here =>
            cases stepped
            exact .inl ⟨here, completes⟩
        · split at stepped
          · next here =>
              cases stepped
              exact .inr ⟨here, completes⟩
          · cases stepped
  | declaration form =>
      rw [completes_form_iff deterministic (completes_declaration_iff program result)]
      simp only [step]
      rcases form.step token with error | (next | declarations) <;> rfl
  | commands block => exact enterCommand_iff program result block token tokens
  | command block form =>
      rw [completes_form_iff deterministic (completes_command_iff program result block)]
      simp only [step]
      rcases form.step token with error | (next | command) <;> rfl
  | separator =>
      simp only [step]
      constructor
      · rintro ⟨rest, rests, rfl⟩
        cases rests with
        | repita after => exact ⟨_, rfl, rest, after, rfl⟩
      · rintro ⟨next, stepped, rest, rests, rfl⟩
        split at stepped
        · next here =>
            subst here
            cases stepped
            exact ⟨rest, .repita rests, rfl⟩
        · cases stepped
  | complete =>
      constructor
      · rintro ⟨rest, rests, -⟩
        cases rests
      · rintro ⟨next, stepped, -⟩
        cases stepped

theorem deterministic_step {draft next : Draft} {token : Token}
    (deterministic : draft.stage.Deterministic) (stepped : draft.step token = .ok next) :
    next.stage.Deterministic := by
  rcases draft with ⟨program, stage⟩
  cases stage with
  | heading =>
      simp only [step] at stepped
      split at stepped
      · cases stepped
        exact Declaration.form_deterministic
      · split at stepped <;> cases stepped
        trivial
  | declaration form =>
      simp only [step] at stepped
      split at stepped <;> cases stepped
      · next here => exact deterministic.step here
      · trivial
  | commands block =>
      rcases enterCommand_cases stepped with
        ⟨-, rfl⟩ | ⟨target, -, rfl⟩ | ⟨word, form, -, known, rfl⟩
      · cases block <;> trivial
      · exact Command.assignment_deterministic target
      · exact Command.form_deterministic known
  | command block form =>
      simp only [step] at stepped
      split at stepped <;> cases stepped
      · next here => exact deterministic.step here
      · trivial
  | separator =>
      simp only [step] at stepped
      split at stepped <;> cases stepped
      trivial
  | complete => cases stepped

/-! ## Whole lists of tokens -/

/-- Nothing has to follow once the second block is complete, and only then. -/
theorem rest_nil_iff (stage : Stage) (rest : Program) :
    stage.Rest [] rest ↔ stage.missing = none ∧ rest = {} := by
  constructor
  · intro rests
    generalize ended : [] = tokens at rests
    cases rests with
    | complete => exact ⟨rfl, rfl⟩
    | repita | fim | config => cases ended
    | command derivation =>
        rcases command_head derivation with ⟨target, others, rfl⟩ | ⟨word, others, rfl⟩ <;>
          cases ended
    | line derivation =>
        cases derivation
        cases ended
    | insideCommand accepted | insideLine accepted =>
        rcases List.append_eq_nil_iff.mp ended.symm with ⟨rfl, -⟩
        exact absurd accepted (Form.not_accepts_nil _ _)
  · rintro ⟨finished, rfl⟩
    cases stage with
    | complete => exact .complete
    | _ => cases finished

theorem completes_nil_iff (draft : Draft) (result : Program) :
    draft.Completes [] result ↔ draft.stage.missing = none ∧ draft.program = result := by
  simp only [Completes, rest_nil_iff]
  constructor
  · rintro ⟨rest, ⟨finished, rfl⟩, rfl⟩
    exact ⟨finished, draft.program.followedBy_empty.symm⟩
  · rintro ⟨finished, rfl⟩
    exact ⟨{}, ⟨finished, rfl⟩, draft.program.followedBy_empty.symm⟩

theorem read_eq_ok_iff (draft : Draft) (deterministic : draft.stage.Deterministic)
    (last : Location) (tokens : List (Located Token)) (result : Program) :
    draft.read last tokens = .ok result ↔
      draft.Completes (tokens.map Located.value) result := by
  induction tokens generalizing draft last with
  | nil =>
      rw [read, List.map_nil, completes_nil_iff]
      cases draft.stage.missing <;> simp
  | cons token tokens induction =>
      rw [read, List.map_cons, completes_cons_iff draft deterministic]
      cases stepped : draft.step token.value with
      | error error => simp
      | ok next => simp [induction next (deterministic_step deterministic stepped)]

end Draft

/-- Tokens are read as a program exactly if the grammar derives it from them, and it
derives no other program. -/
theorem parse_eq_ok_iff_derives (start : Location) (tokens : List (Located Token)) :
    (∀ program, parse start tokens = .ok program ↔
      Program.Derives (tokens.map Located.value) program) ∧
    ∀ first second, Program.Derives (tokens.map Located.value) first →
      Program.Derives (tokens.map Located.value) second → first = second := by
  have reads : ∀ program, parse start tokens = .ok program ↔
      Program.Derives (tokens.map Located.value) program := by
    intro program
    rw [parse, Draft.read_eq_ok_iff {} trivial, ← Stage.Rest.heading_iff]
    constructor
    · rintro ⟨rest, rests, rfl⟩
      exact rests
    · intro rests
      exact ⟨program, rests, rfl⟩
  refine ⟨reads, ?_⟩
  intro first second firstDerivation secondDerivation
  have firstRead := (reads first).mpr firstDerivation
  rw [(reads second).mpr secondDerivation] at firstRead
  cases firstRead
  rfl

/-- A product inside a sum, compared with a negated name, is one expression. -/
theorem parse_comparison_of_sum :
    let tokens := [.keyword .config, .identifier "x", .assign, .integer 1, .operator .plus,
      .integer 2, .operator .times, .integer 3, .operator .less, .operator .minus,
      .identifier "y", .semicolon, .keyword .fim, .keyword .repita, .keyword .fim].map
        fun token => ({ value := token, location := .single "" {} } : Located Token)
    let program : Program := { setup := [.assign "x" "((1+(2*3))<(-y))"] }
    parse (.single "" {}) tokens = .ok program ∧
      Program.Derives (tokens.map Located.value) program ∧
      ∀ other, Program.Derives (tokens.map Located.value) other → other = program := by
  intro tokens program
  have read : parse (.single "" {}) tokens = .ok program := by rfl
  have derivation := ((parse_eq_ok_iff_derives _ _).1 _).mp read
  refine ⟨read, derivation, ?_⟩
  intro other otherDerivation
  exact (parse_eq_ok_iff_derives (.single "" {}) tokens).2 _ _ otherDerivation derivation

end Firmware
