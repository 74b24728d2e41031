import Firmware.Proofs.Expression.RoundTrip

/-! # Operators that stand next to each other

Every operation of a rendered expression has parentheses around it, so none of its operators
touches another one. Two neighbouring characters of operators are therefore the characters of
one operator of the source, unless they stand inside of a text. Main statement: from the
rendered text no operator and no comment can be read that the source does not have. -/

namespace Firmware

/-- A character that operators are made of. -/
def isOperatorPart (character : Char) : Bool :=
  character ∈ ['+', '-', '*', '/', '<', '>', '=', '!']

/-- The operators of two characters. -/
def Operator.double : List Operator :=
  [.equal, .notEqual, .lessOrEqual, .greaterOrEqual]

/-- The characters of an operator of two characters. -/
def Token.pair? : Token → Option (List Char)
  | .operator kind => if kind ∈ Operator.double then some kind.symbol.toList else none
  | _ => none

/-- Where a character stands: outside of all texts, inside of one, or behind a backslash
inside of one. -/
inductive Quoting where
  | outside
  | inside
  | escaped
  deriving DecidableEq, Repr

namespace Quoting

def after : Quoting → Char → Quoting
  | .outside, character => if character = '"' then .inside else .outside
  | .inside, character =>
      if character = '"' then .outside else if character = '\\' then .escaped else .inside
  | .escaped, _ => .inside

def past (quoting : Quoting) (characters : List Char) : Quoting :=
  characters.foldl after quoting

/-- A character and the one behind it, if both are parts of operators outside of texts. -/
def pair (quoting : Quoting) (first : Char) : Option Char → List (List Char)
  | some second =>
      if quoting = .outside ∧ isOperatorPart first ∧ isOperatorPart second then [[first, second]]
      else []
  | none => []

/-- The neighbouring characters that are parts of operators outside of texts, in their
order. -/
def pairs (quoting : Quoting) : List Char → List (List Char)
  | [] => []
  | first :: rest => quoting.pair first rest.head? ++ (quoting.after first).pairs rest

/-! ## Characters one behind the other -/

theorem past_append (quoting : Quoting) (front back : List Char) :
    quoting.past (front ++ back) = (quoting.past front).past back :=
  List.foldl_append

theorem pair_of_outside {first second : Char} (isPart : isOperatorPart first = true)
    (secondIsPart : isOperatorPart second = true) :
    outside.pair first (some second) = [[first, second]] :=
  if_pos ⟨rfl, isPart, secondIsPart⟩

theorem pair_of_not_outside (quoting : Quoting) (within : quoting ≠ .outside) (first : Char)
    (second : Option Char) : quoting.pair first second = [] := by
  cases second with
  | none => rfl
  | some second => exact if_neg fun both => within both.1

/-- The first character, or the one behind it, is no part of an operator. -/
theorem pair_of_apart {first : Char} {second : Option Char}
    (apart : isOperatorPart first = false ∨ ∀ other ∈ second, isOperatorPart other = false)
    (quoting : Quoting) : quoting.pair first second = [] := by
  cases second with
  | none => rfl
  | some second =>
      apply if_neg
      intro both
      rcases both with ⟨-, isPart, secondIsPart⟩
      rcases apart with noPart | noSecondPart
      · rw [noPart] at isPart
        cases isPart
      · rw [noSecondPart second rfl] at secondIsPart
        cases secondIsPart

theorem pairs_append_cons (quoting : Quoting) (before : List Char) (last : Char)
    (back : List Char) :
    quoting.pairs (before ++ last :: back) = quoting.pairs (before ++ [last]) ++
      ((quoting.past before).pair last back.head? ++
        (quoting.past (before ++ [last])).pairs back) := by
  induction before generalizing quoting with
  | nil => rfl
  | cons first before induction =>
      have follows : (before ++ last :: back).head? = (before ++ [last]).head? := by
        cases before <;> rfl
      rw [List.cons_append, pairs, induction, follows, List.cons_append, pairs,
        List.append_assoc]
      rfl

/-- Characters that are apart have no pair where they meet. -/
theorem pairs_append {front back : List Char}
    (apart : (∀ last ∈ front.getLast?, isOperatorPart last = false) ∨
      ∀ first ∈ back.head?, isOperatorPart first = false) (quoting : Quoting) :
    quoting.pairs (front ++ back) =
      quoting.pairs front ++ (quoting.past front).pairs back := by
  rcases List.eq_nil_or_concat front with rfl | ⟨before, last, rfl⟩
  · rfl
  · rw [List.concat_eq_append] at apart ⊢
    rw [List.getLast?_concat] at apart
    have separate : (quoting.past before).pair last back.head? = [] := by
      apply pair_of_apart
      exact apart.imp (fun ends => ends last rfl) id
    rw [List.append_assoc, List.singleton_append, pairs_append_cons, separate, List.nil_append]

/-! ## The pieces of a rendered expression -/

theorem forall_mem_some {character : Char} (noPart : isOperatorPart character = false) :
    ∀ other ∈ some character, isOperatorPart other = false := by
  intro other same
  cases same
  exact noPart

/-- The characters have the given pairs. They leave no text open, and neither the first one nor
the last one is a part of an operator. -/
structure Shows (characters : List Char) (shown : List (List Char)) : Prop where
  begins : ∀ first ∈ characters.head?, isOperatorPart first = false
  ends : ∀ last ∈ characters.getLast?, isOperatorPart last = false
  closes : outside.past characters = .outside
  pairs_eq : outside.pairs characters = shown

namespace Shows

variable {characters left right : List Char} {shown leftShown rightShown : List (List Char)}

theorem nil : Shows [] [] :=
  ⟨nofun, nofun, rfl, rfl⟩

/-- Characters without quotes and operators. -/
theorem of_plain
    (plain : ∀ character ∈ characters, isOperatorPart character = false ∧ character ≠ '"') :
    Shows characters [] := by
  induction characters with
  | nil => exact nil
  | cons first rest induction =>
      rw [List.forall_mem_cons] at plain
      rcases plain with ⟨⟨noPart, noQuote⟩, restPlain⟩
      have restShows := induction restPlain
      have stays : outside.after first = .outside := if_neg noQuote
      refine ⟨forall_mem_some noPart, ?_, ?_, ?_⟩
      · intro last isLast
        rcases List.mem_cons.mp (List.mem_of_getLast? isLast) with rfl | member
        · exact noPart
        · exact (restPlain last member).1
      · rw [past, List.foldl_cons, stays]
        exact restShows.closes
      · rw [pairs, pair_of_apart (.inl noPart), stays, restShows.pairs_eq]
        rfl

/-- The rest of a text has no pairs, and its quote closes it. -/
theorem inside_content {content : List Char} (isContent : IsContent content) :
    inside.past (content ++ ['"']) = .outside ∧ inside.pairs (content ++ ['"']) = [] := by
  induction isContent with
  | nil => exact ⟨rfl, rfl⟩
  | @plain character rest noQuote noBackslash _ _ induction =>
      have stays : inside.after character = .inside := by
        rw [after, if_neg noQuote, if_neg noBackslash]
      rw [List.cons_append, past, List.foldl_cons, pairs, stays,
        pair_of_not_outside inside nofun]
      exact induction
  | @escaped character rest _ _ induction =>
      have escapes : inside.after '\\' = .escaped := rfl
      have returns : escaped.after character = .inside := rfl
      rw [List.cons_append, List.cons_append, past, List.foldl_cons, List.foldl_cons, pairs, pairs,
        escapes, returns, pair_of_not_outside inside nofun, pair_of_not_outside escaped nofun]
      exact induction

theorem quote {content : String} (isContent : IsContent content.toList) :
    Shows (Expr.quote content).toList [] := by
  have characters : (Expr.quote content).toList = '"' :: (content.toList ++ ['"']) := by
    simp [Expr.quote]
  rcases inside_content isContent with ⟨closes, noPairs⟩
  rw [characters]
  refine ⟨forall_mem_some rfl, ?_, closes, ?_⟩
  · rw [← List.cons_append, List.getLast?_concat]
    exact forall_mem_some rfl
  · rw [pairs, pair_of_apart (.inl rfl)]
    exact noPairs

/-- Parentheses keep apart from all around them what they enclose. -/
theorem enclosed (closes : outside.past characters = .outside)
    (pairs_eq : outside.pairs characters = shown) :
    Shows ('(' :: (characters ++ [')'])) shown := by
  refine ⟨forall_mem_some rfl, ?_, ?_, ?_⟩
  · rw [← List.cons_append, List.getLast?_concat]
    exact forall_mem_some rfl
  · change outside.past (characters ++ [')']) = .outside
    rw [past_append, closes]
    rfl
  · have apart : ∀ first ∈ [')'].head?, isOperatorPart first = false := forall_mem_some rfl
    rw [pairs, pair_of_apart (.inl rfl), List.nil_append]
    change outside.pairs (characters ++ [')']) = shown
    rw [pairs_append (.inr apart), pairs_eq, closes]
    exact List.append_nil shown

theorem parens (inner : Shows characters shown) : Shows ('(' :: (characters ++ [')'])) shown :=
  enclosed inner.closes inner.pairs_eq

theorem symbol_outside (operator : Operator) :
    outside.past operator.symbol.toList = .outside ∧
      outside.pairs operator.symbol.toList = (Token.operator operator).pair?.toList := by
  cases operator <;> decide

/-- An operator shows no other pair than itself. There may be nothing to its left. -/
theorem operation (leftShows : Shows left leftShown) (operator : Operator)
    (rightShows : Shows right rightShown) :
    Shows ('(' :: (left ++ (operator.symbol.toList ++ right) ++ [')']))
      (leftShown ++ ((Token.operator operator).pair?.toList ++ rightShown)) := by
  rcases symbol_outside operator with ⟨closes, symbol⟩
  apply enclosed
  · rw [past_append, past_append, leftShows.closes, closes, rightShows.closes]
  · rw [pairs_append (.inl leftShows.ends), pairs_append (.inr rightShows.begins),
      leftShows.closes, closes, leftShows.pairs_eq, symbol, rightShows.pairs_eq]

/-- The text of an operation shows the pairs of its tokens. -/
theorem binary {leftText symbol rightText : String} {leftTokens rightTokens : List Token}
    {operator : Operator} (known : symbol = operator.symbol)
    (leftShows : Shows leftText.toList (leftTokens.filterMap Token.pair?))
    (rightShows : Shows rightText.toList (rightTokens.filterMap Token.pair?)) :
    Shows ("(" ++ leftText ++ symbol ++ rightText ++ ")").toList
      ((leftTokens ++ .operator operator :: rightTokens).filterMap Token.pair?) := by
  subst known
  have pairs_eq : (Token.operator operator :: rightTokens).filterMap Token.pair? =
      (Token.operator operator).pair?.toList ++ rightTokens.filterMap Token.pair? := by
    rw [List.filterMap_cons]
    cases (Token.operator operator).pair? <;> rfl
  rw [List.filterMap_append, pairs_eq]
  simpa using operation leftShows operator rightShows

end Shows

end Quoting

/-! ## Expressions -/

theorem isOperatorPart_of_isWordPart {character : Char} (isPart : isWordPart character = true) :
    isOperatorPart character = false ∧ character ≠ '"' := by
  constructor
  · rw [← Bool.not_eq_true]
    intro ofOperator
    simp only [isOperatorPart, decide_eq_true_eq, List.mem_cons, List.not_mem_nil,
      or_false] at ofOperator
    rcases ofOperator with rfl | rfl | rfl | rfl | rfl | rfl | rfl | rfl <;> cases isPart
  · intro quote
    subst quote
    cases isPart

theorem Quoting.Shows.of_isWord {characters : List Char} (isWord : IsWord characters) :
    Shows characters [] := by
  apply of_plain
  intro character member
  exact isOperatorPart_of_isWordPart (isWordPart_of_mem_isWord isWord character member)

theorem Phrase.Derives.shows {phrase : Phrase} {tokens : List Token} {value : Expr}
    {text : String} (derivation : phrase.Derives tokens value text)
    (wellFormed : ∀ token ∈ tokens, token.WellFormed) :
    Quoting.Shows text.toList (tokens.filterMap Token.pair?) := by
  induction derivation with
  | integer value =>
      rcases Int.eq_ofNat_of_zero_le (wellFormed _ List.mem_cons_self).1 with ⟨magnitude, rfl⟩
      apply Quoting.Shows.of_plain
      intro character member
      apply isOperatorPart_of_isWordPart
      rw [isWordPart_eq, isDigit_of_mem_repr member, Bool.or_true]
  | text content => exact .quote (wellFormed _ List.mem_cons_self)
  | reference name => exact .of_isWord (wellFormed _ List.mem_cons_self).1
  | verdadeiro => exact .of_isWord (Expr.wellFormed_truthName true).1
  | falso => exact .of_isWord (Expr.wellFormed_truthName false).1
  | parens _ induction =>
      have inside := induction fun token member => wellFormed token (by simp [member])
      rw [List.cons_append, List.filterMap_cons_none rfl, List.filterMap_append,
        List.filterMap_cons_none rfl, List.filterMap_nil, List.append_nil]
      simpa using inside.parens
  | negate _ induction =>
      have operand := induction fun token member => wellFormed token (by simp [member])
      have noPair : (Token.operator .minus).pair? = none := rfl
      rw [List.filterMap_cons_none noPair]
      simpa [Operator.symbol, noPair] using Quoting.Shows.nil.operation .minus operand
  | atom _ induction | unary _ induction | product _ induction | sum _ induction =>
      exact induction wellFormed
  | multiply member _ _ leftInduction rightInduction =>
      rw [List.forall_mem_append, List.forall_mem_cons] at wellFormed
      exact .binary ((mem_products_iff _ _).mp member).2 (leftInduction wellFormed.1)
        (rightInduction wellFormed.2.2)
  | add member _ _ leftInduction rightInduction =>
      rw [List.forall_mem_append, List.forall_mem_cons] at wellFormed
      exact .binary ((mem_sums_iff _ _).mp member).2 (leftInduction wellFormed.1)
        (rightInduction wellFormed.2.2)
  | compare member _ _ leftInduction rightInduction =>
      rw [List.forall_mem_append, List.forall_mem_cons] at wellFormed
      exact .binary ((mem_comparisons_iff _ _).mp member).2 (leftInduction wellFormed.1)
        (rightInduction wellFormed.2.2)

theorem Token.exists_operator_of_pair? {token : Token} {characters : List Char}
    (known : token.pair? = some characters) :
    ∃ operator ∈ Operator.double, token = .operator operator ∧
      operator.symbol.toList = characters := by
  cases token with
  | operator kind =>
      rw [pair?] at known
      split at known <;> cases known
      exact ⟨kind, by assumption, rfl, rfl⟩
  | _ => cases known

theorem exists_split_of_filterMap {α β : Type} {choose : α → Option β} {values : List α}
    {before after : List β} {chosen : β}
    (split : values.filterMap choose = before ++ chosen :: after) :
    ∃ earlier value later, values = earlier ++ value :: later ∧ choose value = some chosen ∧
      earlier.filterMap choose = before := by
  rcases List.filterMap_eq_append_iff.mp split with ⟨front, back, rfl, rfl, fromBack⟩
  rcases List.filterMap_eq_cons_iff.mp fromBack with
    ⟨skipped, value, later, rfl, none, chosen, -⟩
  refine ⟨front ++ skipped, value, later, by simp, chosen, ?_⟩
  rw [List.filterMap_append, List.filterMap_eq_nil_iff.mpr none, List.append_nil]

/-- Two characters behind `before` are those of one operator of some tokens, with the same
operators of two characters before it. -/
def Operator.Forms (tokens : List Token) (before : List Char) (first second : Char) : Prop :=
  ∃ earlier operator later, tokens = earlier ++ .operator operator :: later ∧
    operator ∈ Operator.double ∧ operator.symbol.toList = [first, second] ∧
    earlier.filterMap Token.pair? = Quoting.outside.pairs (before ++ [first])

theorem Quoting.Shows.forms {characters before after : List Char} {tokens : List Token}
    {first second : Char} (shows : Shows characters (tokens.filterMap Token.pair?))
    (split : characters = before ++ first :: second :: after)
    (outside : Quoting.outside.past before = .outside) (isPart : isOperatorPart first = true)
    (secondIsPart : isOperatorPart second = true) :
    Operator.Forms tokens before first second := by
  have pairs_eq := shows.pairs_eq
  rw [split, pairs_append_cons, outside, List.head?_cons,
    pair_of_outside isPart secondIsPart] at pairs_eq
  rcases exists_split_of_filterMap pairs_eq.symm with ⟨earlier, token, later, rfl, chosen, same⟩
  rcases Token.exists_operator_of_pair? chosen with ⟨operator, double, rfl, symbol⟩
  exact ⟨earlier, operator, later, rfl, double, symbol, same⟩

/-- What could be read as another operator of a sketch, or as a comment. -/
def misreadings : List String :=
  ["--", "++", "//", "/*", "<<", ">>", "->"]

theorem exists_of_mem_misreadings {sequence : String} (listed : sequence ∈ misreadings) :
    ∃ first second, sequence.toList = [first, second] ∧ isOperatorPart first = true ∧
      isOperatorPart second = true ∧
      ∀ operator ∈ Operator.double, operator.symbol.toList ≠ [first, second] := by
  simp only [misreadings, List.mem_cons, List.not_mem_nil, or_false] at listed
  rcases listed with rfl | rfl | rfl | rfl | rfl | rfl | rfl <;>
    exact ⟨_, _, rfl, by decide, by decide, by decide⟩

/-- Outside of texts, two neighbouring characters of operators in the text of an expression are
the characters of one operator of the source. So nothing can be misread there. -/
theorem Expr.adjacent_operators_of_source {source : Source} {tokens : List Token}
    {expression : Expr} (held : source.Holds tokens)
    (read : OpenExpression.empty.complete? tokens = some expression) :
    (∀ before first second after,
      expression.render.toList = before ++ first :: second :: after →
      Quoting.outside.past before = .outside →
      isOperatorPart first = true → isOperatorPart second = true →
      Operator.Forms tokens before first second) ∧
    ∀ sequence ∈ misreadings, ∀ before after,
      expression.render.toList = before ++ sequence.toList ++ after →
      Quoting.outside.past before ≠ .outside := by
  have derivation := (OpenExpression.complete?_empty_eq_some_iff _ _).mp read
  have shows := derivation.shows held.wellFormed
  refine ⟨fun before first second after => shows.forms, ?_⟩
  intro sequence listed before after split outside
  rcases exists_of_mem_misreadings listed with
    ⟨first, second, characters, isPart, secondIsPart, noSymbol⟩
  rw [characters, List.append_assoc] at split
  rcases shows.forms split outside isPart secondIsPart with
    ⟨earlier, operator, later, -, double, symbol, -⟩
  exact noSymbol operator double symbol

/-- The slashes of a text are no comment, and two minus signs have a parenthesis between
them. -/
theorem Expr.slashes_compared_with_difference :
    let tokens : List Token := [.text "//", .operator .equal, .integer 1, .operator .minus,
      .operator .minus, .identifier "x"]
    let rendered := "(\"//\"==(1-(-x)))"
    Operator.Forms tokens "(\"//\"".toList '=' '=' ∧
      ∀ sequence ∈ misreadings, ∀ before after,
        rendered.toList = before ++ sequence.toList ++ after →
        Quoting.outside.past before ≠ .outside := by
  intro tokens rendered
  have held : Source.Holds { name := "blink", lines := [some "\"//\" == 1 - -x"] } tokens :=
    ⟨_, rfl, List.infix_rfl⟩
  have read : OpenExpression.empty.complete? tokens = some (.binary .equal (.text "//")
      (.binary .minus (.integer 1) (.negate (.reference "x")))) := rfl
  rcases adjacent_operators_of_source held read with ⟨ofSource, noMisreading⟩
  exact ⟨ofSource _ '=' '=' "(1-(-x)))".toList rfl (by decide) rfl rfl, noMisreading⟩

end Firmware
