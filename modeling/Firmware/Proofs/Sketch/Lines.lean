import Firmware.Proofs.Program.WellFormed
import Firmware.Proofs.Sketch.Channels
import Mathlib.Data.List.TakeDrop

/-! # The lines of a sketch

The sketch of a program that is read from a source can be taken apart into its lines: no
line holds a newline, and none begins with a blank of its own, so that the blanks in front
of a line say how deep it is nested. -/

namespace Firmware

/-! ## Taking lists apart -/

/-- What satisfies a test up to the first item that does not is read off the whole. -/
theorem span_append {α : Type} {test : α → Bool} {front back : List α}
    (inside : ∀ item ∈ front, test item = true)
    (ends : ∀ mark ∈ back.head?, test mark = false) :
    (front ++ back).span test = (front, back) := by
  rw [List.span_eq_takeWhile_dropWhile, List.takeWhile_append_of_pos inside,
    List.dropWhile_append_of_pos inside]
  cases back with
  | nil => simp
  | cons mark back =>
      have marked : test mark = false := ends mark rfl
      simp [marked]

/-- Pieces that can be told apart at the beginning of a list are read off their sequence. -/
theorem map_eq_of_flatMap_eq {α β γ : Type} {code : α → List β} (view : α → γ)
    {Good : α → Prop} (nonempty : ∀ piece, Good piece → code piece ≠ [])
    (readable : ∀ piece other rest otherRest, Good piece → Good other →
      code piece ++ rest = code other ++ otherRest → view piece = view other ∧ rest = otherRest)
    {pieces others : List α} (good : ∀ piece ∈ pieces, Good piece)
    (otherGood : ∀ piece ∈ others, Good piece)
    (same : pieces.flatMap code = others.flatMap code) :
    pieces.map view = others.map view := by
  induction pieces generalizing others with
  | nil =>
      cases others with
      | nil => rfl
      | cons other others =>
          have empty := (List.append_eq_nil_iff.mp same.symm).1
          exact absurd empty (nonempty other (otherGood other List.mem_cons_self))
  | cons piece pieces induction =>
      cases others with
      | nil =>
          have empty := (List.append_eq_nil_iff.mp same).1
          exact absurd empty (nonempty piece (good piece List.mem_cons_self))
      | cons other others =>
          rw [List.forall_mem_cons] at good otherGood
          rcases readable _ _ _ _ good.1 otherGood.1 same with ⟨first, rest⟩
          rw [List.map_cons, List.map_cons, first, induction good.2 otherGood.2 rest]

/-! ## Characters of names and values -/

theorem IsWord.not_mem {characters : List Char} (isWord : IsWord characters) {mark : Char}
    (noPart : isWordPart mark = false) : mark ∉ characters := by
  intro member
  rw [isWordPart_of_mem_isWord isWord mark member] at noPart
  cases noPart

theorem IsWord.append_parts {first second : List Char} (isWord : IsWord first)
    (parts : ∀ character ∈ second, isWordPart character = true) : IsWord (first ++ second) := by
  match first, isWord with
  | start :: rest, ⟨starts, others⟩ => exact ⟨starts, List.forall_mem_append.mpr ⟨others, parts⟩⟩

theorem PwmChannel.isWord_of_mem_names {pin name : String} (isWord : IsWord pin.toList)
    (member : name ∈ names pin) : IsWord name.toList := by
  have parts := isWordPart_of_mem_isWord isWord
  simp only [names, List.mem_cons, List.not_mem_nil, or_false] at member
  rcases member with rfl | rfl | rfl
  · rw [numberName, String.toList_append]
    exact IsWord.append_parts (by decide) parts
  · rw [frequencyName, String.toList_append]
    exact IsWord.append_parts (by decide) parts
  · rw [resolutionName, String.toList_append]
    exact IsWord.append_parts (by decide) parts

theorem IsExpression.newline_not_mem {text : String} (isExpression : IsExpression text) :
    '\n' ∉ text.toList := by
  rcases isExpression with ⟨expression, rfl, wellFormed⟩
  exact Expr.newline_not_mem_render wellFormed

theorem IsOperand.isExpression {text : String} (isOperand : IsOperand text) :
    IsExpression text := by
  rcases isOperand with ⟨token, wellFormed, operand⟩
  cases operand with
  | text content => exact ⟨.text content, rfl, by simpa [Expr.printed] using wellFormed⟩
  | identifier =>
      exact ⟨.reference text, rfl, by simpa [Expr.printed] using wellFormed⟩
  | integer value => exact ⟨.integer value, rfl, by simpa [Expr.printed] using wellFormed⟩

/-! ## The text of lines -/

namespace CodeLine

/-- The text of some lines. -/
def joined (lines : List CodeLine) : String :=
  String.join (lines.map render)

theorem joined_append (lines others : List CodeLine) :
    joined (lines ++ others) = joined lines ++ joined others := by
  rw [joined, List.map_append, String.join_append, joined, joined]

theorem joined_cons (line : CodeLine) (lines : List CodeLine) :
    joined (line :: lines) = line.render ++ joined lines :=
  String.join_cons

theorem eq_newline_of_getLast?_joined (lines : List CodeLine) :
    ∀ character ∈ (joined lines).toList.getLast?, character = '\n' := by
  induction lines with
  | nil => simp [joined]
  | cons line lines induction =>
      intro character last
      rw [joined_cons, String.toList_append, List.getLast?_append] at last
      rcases Option.or_eq_some_iff.mp last with inRest | ⟨-, inLine⟩
      · exact induction character inRest
      · simpa [render, eq_comm] using inLine

end CodeLine

theorem Program.generate_eq_joined (program : Program) :
    program.generate = CodeLine.joined program.code :=
  rfl

/-! ## Clean lines -/

/-- A line that is read back from its characters. -/
@[mk_iff]
structure CodeLine.Clean (line : CodeLine) : Prop where
  newline : '\n' ∉ line.text.toList
  blank : line.text.toList.head? ≠ some ' '

namespace CodeLine

theorem clean_of_isWord {depth : Nat} {name rest : String} (isWord : IsWord name.toList)
    (noNewline : '\n' ∉ rest.toList) : Clean { depth, text := name ++ rest } := by
  refine ⟨?_, ?_⟩
  · simpa using ⟨isWord.not_mem (by decide), noNewline⟩
  · rw [String.toList_append]
    match name.toList, isWord with
    | first :: others, ⟨starts, _⟩ =>
        intro blank
        obtain rfl : first = ' ' := by simpa using blank
        cases starts

theorem clean_nested {lines : List CodeLine} (clean : ∀ line ∈ lines, line.Clean) :
    ∀ line ∈ nested lines, line.Clean := by
  intro line member
  rcases List.mem_map.mp member with ⟨inner, inside, rfl⟩
  exact ⟨(clean inner inside).newline, (clean inner inside).blank⟩

theorem clean_block {opening : String} {body : List CodeLine}
    (opens : Clean { text := opening ++ "\x7b" }) (clean : ∀ line ∈ body, line.Clean) :
    ∀ line ∈ block opening body, line.Clean := by
  rw [block, List.forall_mem_append, List.forall_mem_cons, List.forall_mem_singleton]
  exact ⟨⟨opens, clean_nested clean⟩, by decide, by decide⟩

/-- A clean line is read back from the characters that begin with it. -/
theorem render_append_inj {line other : CodeLine} (clean : line.Clean) (otherClean : other.Clean)
    {rest otherRest : List Char}
    (same : line.render.toList ++ rest = other.render.toList ++ otherRest) :
    line = other ∧ rest = otherRest := by
  have blanks : ∀ {line : CodeLine}, line.Clean → ∀ rest : List Char,
      (line.render.toList ++ rest).span (· == ' ') =
        (List.replicate (indentation * line.depth) ' ', line.text.toList ++ '\n' :: rest) := by
    intro line clean rest
    have parts : line.render.toList ++ rest = List.replicate (indentation * line.depth) ' ' ++
        (line.text.toList ++ '\n' :: rest) := by
      simp [render]
    rw [parts]
    apply span_append
    · simp
    · have noBlank := clean.blank
      cases text : line.text.toList with
      | nil => simp
      | cons first others => simpa [text] using noBlank
  have texts : ∀ {line : CodeLine}, line.Clean → ∀ rest : List Char,
      (line.text.toList ++ '\n' :: rest).span (· != '\n') = (line.text.toList, '\n' :: rest) := by
    intro line clean rest
    apply span_append
    · intro character member
      simpa using ne_of_mem_of_not_mem member clean.newline
    · simp
  have inLine := congrArg (List.span (· == ' ')) same
  rw [blanks clean, blanks otherClean, Prod.mk.injEq] at inLine
  have inText := congrArg (List.span (· != '\n')) inLine.2
  rw [texts clean, texts otherClean, Prod.mk.injEq, List.cons.injEq] at inText
  have depths : indentation * line.depth = indentation * other.depth := by
    simpa using congrArg List.length inLine.1
  have depth : line.depth = other.depth := by
    rw [indentation] at depths
    omega
  have text : line.text = other.text := String.toList_inj.mp inText.1
  refine ⟨?_, inText.2.2⟩
  rcases line with ⟨lineDepth, lineText⟩
  rcases other with ⟨otherDepth, otherText⟩
  rw [mk.injEq]
  exact ⟨depth, text⟩

/-- Nothing of a clean line follows a newline. -/
theorem Clean.eq_nil_of_render_eq {line : CodeLine} (clean : line.Clean)
    {before rest : List Char} (split : line.render.toList = before ++ rest)
    (newline : '\n' ∈ before) : rest = [] := by
  cases rest using List.reverseRecOn with
  | nil => rfl
  | append_singleton rest last =>
      have characters : line.render.toList =
          (List.replicate (indentation * line.depth) ' ' ++ line.text.toList) ++ ['\n'] := by
        simp [render]
      rw [characters, ← List.append_assoc] at split
      have inLine : '\n' ∈ List.replicate (indentation * line.depth) ' ' ++ line.text.toList := by
        rw [(List.append_inj_left' split rfl)]
        exact List.mem_append_left rest newline
      rcases List.mem_append.mp inLine with blank | inText
      · cases List.eq_of_mem_replicate blank
      · exact absurd inText clean.newline

/-- A clean line is one of some clean lines if their text holds it behind a newline. -/
theorem mem_of_joined_eq {lines : List CodeLine} {line : CodeLine}
    (clean : ∀ other ∈ lines, other.Clean) (isClean : line.Clean) {before after : List Char}
    (starts : ∀ character ∈ before.getLast?, character = '\n')
    (whole : (joined lines).toList = before ++ (line.render.toList ++ after)) :
    line ∈ lines := by
  induction lines generalizing before with
  | nil => simp [joined, render] at whole
  | cons first lines induction =>
      rw [List.forall_mem_cons] at clean
      rw [joined_cons, String.toList_append] at whole
      rcases List.append_eq_append_iff.mp whole with ⟨rest, rfl, inRest⟩ | ⟨rest, split, ofRest⟩
      · refine List.mem_cons_of_mem first (induction clean.2 ?_ inRest)
        intro character last
        apply starts
        rw [List.getLast?_append, Option.mem_def.mp last]
        rfl
      · cases last : before.getLast? with
        | none =>
            obtain rfl : before = [] := List.getLast?_eq_none_iff.mp last
            rw [List.nil_append] at split
            rw [← split] at ofRest
            rw [(render_append_inj isClean clean.1 ofRest).1]
            exact List.mem_cons_self
        | some character =>
            obtain rfl : character = '\n' := starts character last
            have newline : '\n' ∈ before := List.mem_of_getLast? last
            obtain rfl : rest = [] := clean.1.eq_nil_of_render_eq split newline
            have remains : (joined lines).toList = [] ++ (line.render.toList ++ after) := by
              exact ofRest.symm
            exact List.mem_cons_of_mem first (induction clean.2 (by simp) remains)

end CodeLine

theorem PinDirection.newline_not_mem_code (direction : PinDirection) :
    '\n' ∉ direction.code.toList := by
  cases direction <;> decide

theorem repr_networkPoll : networkPoll.repr = "500" := rfl

theorem Command.WellFormed.code_clean {command : Command} (wellFormed : command.WellFormed) :
    ∀ line ∈ command.code, line.Clean := by
  cases command with
  | assign target value =>
      have noNewline := wellFormed.2.newline_not_mem
      simp only [code, List.forall_mem_singleton, String.append_assoc]
      apply CodeLine.clean_of_isWord wellFormed.1
      simpa using noNewline
  | readDigital target pin | readAnalog target pin =>
      have noNewline : '\n' ∉ pin.toList := wellFormed.2.not_mem (by decide)
      simp only [code, List.forall_mem_singleton, String.append_assoc]
      apply CodeLine.clean_of_isWord wellFormed.1
      simpa using noNewline
  | configurePin pin direction =>
      have noNewline : '\n' ∉ pin.toList := wellFormed.not_mem (by decide)
      simp [code, CodeLine.clean_iff, noNewline, direction.newline_not_mem_code]
  | configurePwm pin | turnOn pin | turnOff pin =>
      have noNewline : '\n' ∉ pin.toList := wellFormed.not_mem (by decide)
      simp [code, CodeLine.clean_iff, PwmChannel.numberName, PwmChannel.frequencyName,
        PwmChannel.resolutionName, noNewline]
  | adjustPwm pin value =>
      have noNewline : '\n' ∉ pin.toList := wellFormed.1.not_mem (by decide)
      have valueNewline := wellFormed.2.newline_not_mem
      simp [code, CodeLine.clean_iff, PwmChannel.numberName, noNewline, valueNewline]
  | connectWifi first second | sendHttp first second =>
      have noNewline := wellFormed.1.isExpression.newline_not_mem
      have otherNewline := wellFormed.2.isExpression.newline_not_mem
      simp [code, CodeLine.clean_iff, CodeLine.block, CodeLine.nested, repr_networkPoll,
        noNewline, otherNewline]
  | wait text | writeSerial text | conditional text | whileLoop text =>
      have noNewline := IsExpression.newline_not_mem wellFormed
      simp [code, CodeLine.clean_iff, noNewline]
  | configureSerial baud =>
      have noNewline : '\n' ∉ baud.repr.toList := not_mem_toString (by decide) (by decide) baud
      simp [code, CodeLine.clean_iff, noNewline]
  | readSerial => simp [code, CodeLine.clean_iff, CodeLine.block, CodeLine.nested]
  | undefined => exact wellFormed.elim

theorem Declaration.WellFormed.code_clean {declaration : Declaration}
    (wellFormed : declaration.WellFormed) : declaration.code.Clean := by
  rcases declaration with ⟨name, type⟩
  have noNewline : '\n' ∉ name.toList := wellFormed.1.not_mem (by decide)
  cases type <;> simp [code, VarType.code, CodeLine.clean_iff, noNewline]

theorem PwmChannel.constant_clean {name : String} (noNewline : '\n' ∉ name.toList) (value : Int) :
    (constant name (toString value)).Clean := by
  have valueNewline : '\n' ∉ value.repr.toList := not_mem_toString (by decide) (by decide) value
  simp [constant, CodeLine.clean_iff, noNewline, valueNewline]

theorem PwmChannel.code_clean {pin : String} (isWord : IsWord pin.toList) (channel : PwmChannel) :
    ∀ line ∈ channel.code pin, line.Clean := by
  have noNewline : ∀ name ∈ names pin, '\n' ∉ name.toList := by
    intro name member
    exact (isWord_of_mem_names isWord member).not_mem (by decide)
  have number : toString channel.number = toString (channel.number : Int) := rfl
  simp only [names, List.forall_mem_cons] at noNewline
  simp only [code, number, List.forall_mem_cons]
  exact ⟨constant_clean noNewline.1 _, constant_clean noNewline.2.1 _,
    constant_clean noNewline.2.2.1 _, List.forall_mem_nil _⟩

theorem PwmChannels.isWord_of_mem_allocate {commands : List Command}
    (wellFormed : ∀ command ∈ commands, command.WellFormed) {pin : String} {channel : PwmChannel}
    (bound : (pin, channel) ∈ (allocate commands).bindings) : IsWord pin.toList := by
  have isSome := (isSome_get?_iff _ _).mpr ⟨channel, bound⟩
  rw [isSome_get?_allocate, SymbolTable.any_configuresPwm_iff] at isSome
  rcases isSome with ⟨frequency, resolution, member⟩
  exact wellFormed _ member

namespace Program.WellFormed

variable {program other : Program}

/-- The sketch of a program from a source has clean lines only. -/
theorem code_clean (wellFormed : program.WellFormed) : ∀ line ∈ program.code, line.Clean := by
  have blank : CodeLine.Clean {} := ⟨by decide, by decide⟩
  have functions : ∀ {opening : String} {commands : List Command},
      CodeLine.Clean { text := "void " ++ opening ++ "() " ++ "\x7b" } →
      (∀ command ∈ commands, command.WellFormed) →
      ∀ line ∈ Sketch.function opening commands, line.Clean := by
    intro opening commands opens wellFormed
    rw [Sketch.function, List.forall_mem_cons]
    refine ⟨blank, CodeLine.clean_block opens ?_⟩
    intro line member
    rcases List.mem_flatMap.mp member with ⟨command, listed, inside⟩
    exact (wellFormed command listed).code_clean line inside
  simp only [code, List.forall_mem_append]
  refine ⟨⟨⟨⟨?_, ?_⟩, ?_⟩, functions ?_ wellFormed.setup⟩, functions ?_ wellFormed.loop⟩
  · simp [Sketch.headers, CodeLine.clean_iff]
  · simp only [Sketch.globals, List.forall_mem_cons, List.forall_mem_map]
    refine ⟨blank, ?_, ?_⟩
    · simp [CodeLine.clean_iff]
    · intro declaration member
      exact (wellFormed.declarations declaration member).code_clean
  · intro line member
    unfold Sketch.channels at member
    split at member
    · cases member
    · simp only [List.mem_cons, List.mem_flatMap] at member
      rcases member with rfl | rfl | ⟨⟨pin, channel⟩, bound, inside⟩
      · exact blank
      · simp [CodeLine.clean_iff]
      · exact channel.code_clean (PwmChannels.isWord_of_mem_allocate wellFormed.setup bound)
          line inside
  · simp [CodeLine.clean_iff]
  · simp [CodeLine.clean_iff]

theorem code_eq_of_generate_eq (wellFormed : program.WellFormed)
    (otherWellFormed : other.WellFormed) (same : program.generate = other.generate) :
    program.code = other.code := by
  have characters : ∀ program : Program,
      program.generate.toList = program.code.flatMap fun line => line.render.toList := by
    intro program
    rw [generate, String.toList_join, List.flatMap_map]
  have texts := congrArg String.toList same
  rw [characters, characters] at texts
  have lines := map_eq_of_flatMap_eq id (fun line _ => by simp [CodeLine.render])
    (fun line other rest otherRest clean otherClean => CodeLine.render_append_inj clean otherClean)
    wellFormed.code_clean otherWellFormed.code_clean texts
  simpa using lines

end Program.WellFormed

end Firmware
