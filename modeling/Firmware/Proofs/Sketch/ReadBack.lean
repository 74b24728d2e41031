import Firmware.Proofs.Sketch.Lines
import Mathlib.Data.List.DropRight

/-! # Reading a sketch back

The code of a command says which command it is, and all that it holds except for the settings
of PWM. The reader below finds both at the beginning of any lines; texts that a source can
write between quotes do not mislead it, whatever code they look like. -/

namespace Firmware

/-- A command without the settings of PWM, which its own code does not mention. -/
def Command.withoutSettings : Command → Command
  | .configurePwm pin _ _ => .configurePwm pin 0 0
  | command => command

/-! ## A reader for code -/

namespace CodeReader

/-- A character of a name, or the point between an object and a member of it. -/
def isNamePart (character : Char) : Bool :=
  isWordPart character || character == '.'

/-- A text without what stands in front of it and behind it. -/
def between (front back text : String) : String :=
  String.ofList ((text.toList.drop front.length).rdrop back.length)

/-- The characters of a text up to the quote that ends it, and those behind the quote. -/
def untilQuote : List Char → List Char × List Char
  | [] => ([], [])
  | '"' :: behind => ([], behind)
  | '\\' :: character :: rest =>
      let (content, behind) := untilQuote rest
      ('\\' :: character :: content, behind)
  | character :: rest =>
      let (content, behind) := untilQuote rest
      (character :: content, behind)

/-- The integer that some characters write, with a minus in front of it if it is negative. -/
def integer : List Char → Int
  | '-' :: digits => -Nat.ofDigitChars 10 digits 0
  | digits => Nat.ofDigitChars 10 digits 0

/-- The operand at the beginning of some characters, and what follows it. -/
def operand : List Char → List Char × List Char
  | '"' :: rest =>
      let (content, behind) := untilQuote rest
      ('"' :: content ++ ['"'], behind)
  | characters => characters.span isWordPart

/-- The command that gives a variable a value, which may be what a pin shows. -/
def assignment (target value : String) : Command :=
  match value.toList.span isWordPart with
  | (callee, '(' :: _) =>
      if callee = "digitalRead".toList then
        .readDigital target (between "digitalRead(" ");" value)
      else if callee = "analogRead".toList then
        .readAnalog target (between "analogRead(" ");" value)
      else
        .assign target (between "" ";" value)
  | _ => .assign target (between "" ";" value)

/-- The command that calls a function with a name and further arguments. -/
def callOnName (callee name others : String) (lines : List CodeLine) :
    Option (Command × List CodeLine) :=
  match callee with
  | "pinMode" =>
      some (.configurePin name (if others = ", OUTPUT);" then .output else .input), lines)
  | "ledcSetup" => some (.configurePwm (between "canal_" "" name) 0 0, lines.drop 1)
  | "ledcWrite" => some (.adjustPwm (between "canal_" "" name) (between ", " ");" others), lines)
  | "digitalWrite" =>
      some (if others = ", HIGH);" then .turnOn name else .turnOff name, lines)
  | _ => none

/-- The command that calls a function on its first line, and the lines behind it. -/
def call (callee arguments : String) (lines : List CodeLine) :
    Option (Command × List CodeLine) :=
  match callee with
  | "WiFi.begin" =>
      let (ssid, others) := operand arguments.toList
      some (.connectWifi (String.ofList ssid)
        (between ".c_str(), " ".c_str());" (String.ofList others)), lines.drop 3)
  | "delay" => some (.wait (between "" ");" arguments), lines)
  | "Serial.begin" => some (.configureSerial (integer (between "" ");" arguments).toList), lines)
  | "Serial.println" => some (.writeSerial (between "" ");" arguments), lines)
  | _ =>
      let (name, others) := arguments.toList.span isWordPart
      callOnName callee (String.ofList name) (String.ofList others) lines

/-- The command that opens a block, read from the lines inside. -/
def block : List CodeLine → Option (Command × List CodeLine)
  | ⟨_, "HTTPClient http;"⟩ :: url :: _ :: data :: _ :: _ :: lines =>
      some (.sendHttp (between "http.begin(" ");" url.text)
        (between "http.POST(" ");" data.text), lines)
  | _ :: _ :: lines => some (.readSerial, lines)
  | _ => none

def unexpanded : String := ": comandos aninhados não expandidos"

/-- The command that is left out of the code, and only mentioned. -/
def remark (text : String) : Command :=
  if text.toList.head? = some 's' then .conditional (between "se " unexpanded text)
  else .whileLoop (between "enquanto " unexpanded text)

/-- The command that the first lines write, and the other lines. -/
def command : List CodeLine → Option (Command × List CodeLine)
  | [] => none
  | line :: lines =>
      match line.text.toList.span isNamePart with
      | (target, ' ' :: '=' :: ' ' :: value) =>
          some (assignment (String.ofList target) (String.ofList value), lines)
      | (callee, '(' :: arguments) =>
          call (String.ofList callee) (String.ofList arguments) lines
      | (_, '/' :: '/' :: ' ' :: text) => some (remark (String.ofList text), lines)
      | (_, '\x7b' :: _) => block lines
      | _ => none

/-! ## Parts of a line -/

theorem between_append (front text back : String) :
    between front back (front ++ text ++ back) = text := by
  rw [between, String.append_assoc, String.toList_append, String.toList_append,
    ← String.length_toList, ← String.length_toList, List.drop_left, List.rdrop,
    List.length_append, Nat.add_sub_cancel, List.take_left, String.ofList_toList]

theorem untilQuote_append {content : List Char} (isContent : IsContent content)
    (behind : List Char) : untilQuote (content ++ '"' :: behind) = (content, behind) := by
  induction isContent with
  | nil => simp [untilQuote]
  | plain noQuote noBackslash _ _ induction =>
      rw [List.cons_append, untilQuote.eq_4 _ _ noQuote, induction]
      intro character rest backslash
      exact absurd backslash noBackslash
  | escaped _ _ induction => simp [untilQuote, induction]

theorem integer_toString (value : Int) : integer (toString value).toList = value := by
  cases value with
  | ofNat magnitude =>
      have characters : (toString (Int.ofNat magnitude)).toList = magnitude.repr.toList := rfl
      rw [characters, integer.eq_2, ofDigitChars_repr]
      · rfl
      · intro digits minus
        cases isDigit_of_mem_repr (minus ▸ List.mem_cons_self)
  | negSucc magnitude =>
      rw [toList_toString_negSucc, integer, ofDigitChars_repr]
      rfl

theorem operand_of_isWordPart {characters others : List Char}
    (parts : ∀ character ∈ characters, isWordPart character = true)
    (point : others.head? = some '.') : operand (characters ++ others) = (characters, others) := by
  rw [operand.eq_2]
  · apply span_append parts
    simp [point, isWordPart]
  · intro rest quote
    cases characters with
    | nil =>
        rw [List.nil_append] at quote
        rw [quote] at point
        cases point
    | cons first _ =>
        obtain rfl : first = '"' := by simpa using congrArg List.head? quote
        cases parts '"' List.mem_cons_self

theorem operand_append {text others : String} (isOperand : IsOperand text)
    (point : others.toList.head? = some '.') :
    operand (text ++ others).toList = (text.toList, others.toList) := by
  rw [String.toList_append]
  rcases isOperand with ⟨token, wellFormed, spelled⟩
  cases spelled with
  | text content =>
      have quoted : ("\"" ++ content ++ "\"").toList ++ others.toList =
          '"' :: (content.toList ++ '"' :: others.toList) := by
        simp
      rw [quoted, operand, untilQuote_append wellFormed]
      simp
  | identifier => exact operand_of_isWordPart (isWordPart_of_mem_isWord wellFormed.1) point
  | integer value =>
      rcases Int.eq_ofNat_of_zero_le wellFormed.1 with ⟨magnitude, rfl⟩
      apply operand_of_isWordPart (fun character member => ?_) point
      rw [isWordPart_eq, isDigit_of_mem_repr member, Bool.or_true]

/-- The text of an expression is one word, or does not begin with one. -/
theorem isWordPart_or_of_isExpression {text : String} (isExpression : IsExpression text) :
    (∀ character ∈ text.toList, isWordPart character = true) ∨
      ∃ first rest, text.toList = first :: rest ∧ isWordPart first = false := by
  rcases isExpression with ⟨expression, rfl, wellFormed⟩
  cases expression with
  | integer value =>
      left
      rcases Int.eq_ofNat_of_zero_le (wellFormed _ List.mem_cons_self).1 with ⟨magnitude, rfl⟩
      intro character member
      rw [isWordPart_eq, isDigit_of_mem_repr member, Bool.or_true]
  | reference name =>
      left
      exact isWordPart_of_mem_isWord (wellFormed _ List.mem_cons_self).1
  | boolean value =>
      left
      rw [Expr.render_boolean]
      exact isWordPart_of_mem_isWord (wellFormed _ List.mem_cons_self).1
  | text content =>
      right
      exact ⟨'"', content.toList ++ ['"'], by simp [Expr.render, Expr.quote], by decide⟩
  | parens inner =>
      right
      exact ⟨'(', (inner.render ++ ")").toList, by simp [Expr.render], by decide⟩
  | negate operand =>
      right
      exact ⟨'(', ("-" ++ operand.render ++ ")").toList, by simp [Expr.render], by decide⟩
  | binary operator left right =>
      right
      exact ⟨'(', (left.render ++ operator.symbol ++ right.render ++ ")").toList,
        by simp [Expr.render], by decide⟩

/-- No expression is taken for a call. -/
theorem assignment_of_isExpression (target : String) {value : String}
    (isExpression : IsExpression value) :
    assignment target ("" ++ value ++ ";") = .assign target value := by
  have characters : ("" ++ value ++ ";").toList = value.toList ++ [';'] := by simp
  rw [assignment, characters]
  rcases isWordPart_or_of_isExpression isExpression with parts | ⟨first, rest, text, noPart⟩
  · have span : (value.toList ++ [';']).span isWordPart = (value.toList, [';']) := by
      apply span_append parts
      simp [isWordPart]
    rw [span, between_append]
    simp
  · have span : (value.toList ++ [';']).span isWordPart = ([], value.toList ++ [';']) := by
      apply span_append (List.forall_mem_nil _)
      simpa [text] using noPart
    rw [span]
    -- A parenthesis may come first, but a call has a name in front of it.
    split
    · next callee behind same =>
        obtain rfl : [] = callee := congrArg Prod.fst same
        rw [if_neg (by decide), if_neg (by decide), between_append]
    · rw [between_append]

theorem command_assignment {line : CodeLine} {target : String} (isWord : IsWord target.toList)
    (value : String) (text : line.text = target ++ (" = " ++ value)) (lines : List CodeLine) :
    command (line :: lines) = some (assignment target value, lines) := by
  have span : line.text.toList.span isNamePart = (target.toList, (" = " ++ value).toList) := by
    rw [text, String.toList_append]
    apply span_append
    · intro character member
      rw [isNamePart, isWordPart_of_mem_isWord isWord character member, Bool.true_or]
    · simp [isNamePart, isWordPart]
  simp only [command, span]
  simp

theorem span_callee {test : Char → Bool} (ends : test '(' = false) (callee arguments : String)
    (named : callee.toList.all test = true) :
    (callee ++ ("(" ++ arguments)).toList.span test =
      (callee.toList, ("(" ++ arguments).toList) := by
  rw [String.toList_append]
  apply span_append
  · simpa using named
  · simpa using ends

theorem command_call {line : CodeLine} (callee arguments : String)
    (named : callee.toList.all isNamePart = true) (text : line.text = callee ++ ("(" ++ arguments))
    (lines : List CodeLine) :
    command (line :: lines) = call callee arguments lines := by
  simp only [command, text, span_callee (by decide) callee arguments named]
  simp

/-- The functions that are called with something else than a name. -/
def withoutName : List String :=
  ["WiFi.begin", "delay", "Serial.begin", "Serial.println"]

theorem command_callOnName {line : CodeLine} (callee name others : String)
    (named : callee.toList.all isNamePart = true) (onName : callee ∉ withoutName)
    (parts : ∀ character ∈ name.toList, isWordPart character = true)
    (comma : others.toList.head? = some ',')
    (text : line.text = callee ++ ("(" ++ (name ++ others))) (lines : List CodeLine) :
    command (line :: lines) = callOnName callee name others lines := by
  have span : (name ++ others).toList.span isWordPart = (name.toList, others.toList) := by
    rw [String.toList_append]
    apply span_append parts
    simp [comma, isWordPart]
  simp only [withoutName, List.mem_cons, List.not_mem_nil, not_or, or_false] at onName
  rw [command_call callee (name ++ others) named text, call.eq_5 _ _ _ onName.1 onName.2.1
    onName.2.2.1 onName.2.2.2, span]
  simp only [String.ofList_toList]

theorem assignment_digitalRead (target pin : String) :
    assignment target ("digitalRead(" ++ pin ++ ");") = .readDigital target pin := by
  have text : "digitalRead(" ++ pin ++ ");" = "digitalRead" ++ ("(" ++ (pin ++ ");")) := by
    simp [← String.toList_inj]
  rw [assignment, between_append, text, span_callee (by decide) _ _ (by decide)]
  simp

theorem assignment_analogRead (target pin : String) :
    assignment target ("analogRead(" ++ pin ++ ");") = .readAnalog target pin := by
  have text : "analogRead(" ++ pin ++ ");" = "analogRead" ++ ("(" ++ (pin ++ ");")) := by
    simp [← String.toList_inj]
  rw [assignment, between_append, text, span_callee (by decide) _ _ (by decide)]
  simp

theorem command_remark {line : CodeLine} (text : String) (opens : line.text = "// " ++ text)
    (lines : List CodeLine) : command (line :: lines) = some (remark text, lines) := by
  have characters : line.text.toList = '/' :: '/' :: ' ' :: text.toList := by simp [opens]
  have span : line.text.toList.span isNamePart = ([], '/' :: '/' :: ' ' :: text.toList) := by
    rw [characters]
    apply span_append (List.forall_mem_nil _)
    simp [isNamePart, isWordPart]
  simp only [command, span]
  simp

theorem command_block {line : CodeLine} (opens : line.text = "\x7b") (lines : List CodeLine) :
    command (line :: lines) = block lines := by
  have span : line.text.toList.span isNamePart = ([], ['\x7b']) := by
    rw [opens]
    decide
  simp only [command, span]

theorem between_numberName (pin : String) :
    between "canal_" "" (PwmChannel.numberName pin) = pin := by
  have read := between_append "canal_" pin ""
  rwa [String.append_empty] at read

theorem isWordPart_of_mem_numberName {pin : String} (isWord : IsWord pin.toList) :
    ∀ character ∈ (PwmChannel.numberName pin).toList, isWordPart character = true :=
  isWordPart_of_mem_isWord (PwmChannel.isWord_of_mem_names isWord List.mem_cons_self)

end CodeReader

open CodeReader in
/-- The code of a command is read back, whatever follows it. -/
theorem Command.WellFormed.read_code {command : Command} (wellFormed : command.WellFormed)
    (rest : List CodeLine) :
    CodeReader.command (command.code ++ rest) = some (command.withoutSettings, rest) := by
  cases command with
  | assign target value =>
      rw [code, List.singleton_append, command_assignment wellFormed.1 ("" ++ value ++ ";")
        (by simp [← String.toList_inj]), assignment_of_isExpression _ wellFormed.2]
      rfl
  | wait value =>
      rw [code, List.singleton_append, command_call "delay" ("" ++ value ++ ");") (by decide)
        (by simp [← String.toList_inj])]
      simp only [call, between_append, withoutSettings]
  | writeSerial message =>
      rw [code, List.singleton_append, command_call "Serial.println" ("" ++ message ++ ");")
        (by decide) (by simp [← String.toList_inj])]
      simp only [call, between_append, withoutSettings]
  | configureSerial baud =>
      rw [code, List.singleton_append, command_call "Serial.begin" ("" ++ toString baud ++ ");")
        (by decide) (by simp [← String.toList_inj])]
      simp only [call, between_append, withoutSettings, integer_toString]
  | configurePin pin direction =>
      rw [code, List.singleton_append, command_callOnName "pinMode" pin
        (", " ++ direction.code ++ ");") (by decide) (by decide)
        (isWordPart_of_mem_isWord wellFormed) (by simp) (by simp [← String.toList_inj])]
      cases direction <;> rfl
  | turnOn pin =>
      rw [code, List.singleton_append, command_callOnName "digitalWrite" pin ", HIGH);"
        (by decide) (by decide) (isWordPart_of_mem_isWord wellFormed) (by simp)
        (by simp [← String.toList_inj])]
      rfl
  | turnOff pin =>
      rw [code, List.singleton_append, command_callOnName "digitalWrite" pin ", LOW);"
        (by decide) (by decide) (isWordPart_of_mem_isWord wellFormed) (by simp)
        (by simp [← String.toList_inj])]
      rfl
  | configurePwm pin frequency resolution =>
      rw [code, List.cons_append, command_callOnName "ledcSetup" (PwmChannel.numberName pin)
        (", " ++ PwmChannel.frequencyName pin ++ ", " ++ PwmChannel.resolutionName pin ++ ");")
        (by decide) (by decide) (isWordPart_of_mem_numberName wellFormed) (by simp)
        (by simp [← String.toList_inj])]
      simp only [callOnName, between_numberName]
      rfl
  | adjustPwm pin value =>
      rw [code, List.singleton_append, command_callOnName "ledcWrite" (PwmChannel.numberName pin)
        (", " ++ value ++ ");") (by decide) (by decide)
        (isWordPart_of_mem_numberName wellFormed.1) (by simp) (by simp [← String.toList_inj])]
      simp only [callOnName, between_numberName, between_append]
      rfl
  | connectWifi ssid password =>
      have arguments : operand (ssid ++ (".c_str(), " ++ password ++ ".c_str());")).toList = _ :=
        operand_append wellFormed.1 (by simp)
      rw [code, List.cons_append, command_call "WiFi.begin"
        (ssid ++ (".c_str(), " ++ password ++ ".c_str());")) (by decide)
        (by simp [← String.toList_inj])]
      simp only [call, arguments, String.ofList_toList, between_append]
      rfl
  | sendHttp url data =>
      rw [code, CodeLine.block, List.cons_append, List.cons_append, command_block (by simp)]
      simp only [CodeLine.nested, List.map_cons, List.map_nil, List.cons_append, List.nil_append,
        CodeReader.block, between_append, withoutSettings]
  | readSerial =>
      rw [code, CodeLine.block, List.cons_append, List.cons_append, command_block (by simp)]
      simp [CodeReader.block, CodeLine.nested, withoutSettings]
  | readDigital target pin =>
      rw [code, List.singleton_append, command_assignment wellFormed.1
        ("digitalRead(" ++ pin ++ ");") (by simp [← String.toList_inj]), assignment_digitalRead]
      rfl
  | readAnalog target pin =>
      rw [code, List.singleton_append, command_assignment wellFormed.1
        ("analogRead(" ++ pin ++ ");") (by simp [← String.toList_inj]), assignment_analogRead]
      rfl
  | conditional condition =>
      have first : ("se " ++ condition ++ unexpanded).toList.head? = some 's' := by simp
      rw [code, List.singleton_append, command_remark ("se " ++ condition ++ unexpanded)
        (by simp [← String.toList_inj, unexpanded]), remark, if_pos first, between_append]
      rfl
  | whileLoop condition =>
      have first : ("enquanto " ++ condition ++ unexpanded).toList.head? ≠ some 's' := by simp
      rw [code, List.singleton_append, command_remark ("enquanto " ++ condition ++ unexpanded)
        (by simp [← String.toList_inj, unexpanded]), remark, if_neg first, between_append]
      rfl
  | undefined => exact wellFormed.elim

end Firmware
