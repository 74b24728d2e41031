import Firmware.Expression.Reading
import Firmware.Proofs.Expression.Grammar

/-! # The reader of expressions follows the grammar

An open expression stands for the tokens read so far: every operand that waits is a
phrase, and so is the operand just read. A step adds its token to them, hence what
the reader completes is derived by the grammar. Conversely the tokens of any phrase
lead the reader to the expression that the phrase stands for, whatever waits for it.
Main statement: reading tokens to their end gives an expression exactly if they are
one in the grammar. -/

namespace Firmware

/-! ## Reading all tokens -/

namespace OpenExpression

/-- Reads tokens that all go on with the expression. -/
def feed (reading : OpenExpression) : List Token → Option OpenExpression
  | [] => some reading
  | token :: rest =>
      match reading.step token with
      | .ok (.extended next) => next.feed rest
      | _ => none

/-- The expression that some tokens complete, if all of them belong to it. -/
def complete? (reading : OpenExpression) (tokens : List Token) : Option Expr :=
  (reading.feed tokens).bind fun final => final.finish.toOption

@[simp] theorem feed_nil (reading : OpenExpression) : reading.feed [] = some reading := rfl

theorem feed_cons {reading next : OpenExpression} {token : Token}
    (step : reading.step token = .ok (.extended next)) (rest : List Token) :
    reading.feed (token :: rest) = next.feed rest := by
  rw [feed, step]

theorem feed_append (reading : OpenExpression) (first second : List Token) :
    reading.feed (first ++ second) =
      (reading.feed first).bind fun middle => middle.feed second := by
  induction first generalizing reading with
  | nil => rfl
  | cons token rest induction =>
      rw [List.cons_append, feed, feed]
      split
      · exact induction _
      · rfl

/-- What a step that goes on with the expression can be. -/
inductive Advances : OpenExpression → Token → OpenExpression → Prop
  | negation {gap outer} :
      Advances (.due gap outer) (.operator .minus)
        (.due { gap with negations := gap.negations + 1 } outer)
  | opening {gap outer} :
      Advances (.due gap outer) .openParen (.due {} (gap :: outer))
  | operand {gap outer token value} :
      Expr.ofToken? token = some value →
      Advances (.due gap outer) token (fill gap value outer)
  | closing {pending operand gap outer} :
      Advances (.read pending operand (gap :: outer)) .closeParen
        (fill gap (.parens (pending.join operand)) outer)
  | operation {pending operand outer operator next} :
      pending.push operand operator = some next →
      Advances (.read pending operand outer) (.operator operator)
        (.due { pending := next } outer)

/-- A step goes on with the expression, or ends it outside of all parentheses, or fails. -/
theorem step_cases (reading : OpenExpression) (token : Token) :
    (∃ next, reading.step token = .ok (.extended next) ∧ Advances reading token next) ∨
      (∃ value, reading.step token = .ok (.ended value) ∧ reading.finish = .ok value) ∨
      ∃ error, reading.step token = .error error := by
  have closed : ∀ pending operand token outer,
      (∃ value, close pending operand token outer = .ok (.ended value) ∧
        (OpenExpression.read pending operand outer).finish = .ok value) ∨
      ∃ error, close pending operand token outer = .error error := by
    intro pending operand token outer
    cases outer with
    | nil => exact .inl ⟨_, rfl, rfl⟩
    | cons => exact .inr ⟨_, rfl⟩
  fun_cases OpenExpression.step reading token with
  | case1 => exact .inl ⟨_, rfl, .negation⟩
  | case2 => exact .inl ⟨_, rfl, .opening⟩
  | case3 gap outer token notMinus notOpening operand known => exact .inl ⟨_, rfl, .operand known⟩
  | case4 => exact .inr (.inr ⟨_, rfl⟩)
  | case5 => exact .inl ⟨_, rfl, .closing⟩
  | case6 pending operand outer operator pushed push => exact .inl ⟨_, rfl, .operation push⟩
  | case7 | case8 => exact .inr (closed ..)

theorem advances_of_step {reading next : OpenExpression} {token : Token}
    (step : reading.step token = .ok (.extended next)) : Advances reading token next := by
  rcases step_cases reading token with
    ⟨other, extended, advances⟩ | ⟨value, ended, -⟩ | ⟨error, failed⟩
  · rw [step] at extended
    cases extended
    exact advances
  · rw [step] at ended
    cases ended
  · rw [step] at failed
    cases failed

/-- A token that ends the expression ends it where it could also have been complete. -/
theorem finish_of_ended {reading : OpenExpression} {token : Token} {value : Expr}
    (step : reading.step token = .ok (.ended value)) : reading.finish = .ok value := by
  rcases step_cases reading token with
    ⟨next, extended, -⟩ | ⟨other, ended, finished⟩ | ⟨error, failed⟩
  · rw [step] at extended
    cases extended
  · rw [step] at ended
    cases ended
    exact finished
  · rw [step] at failed
    cases failed

theorem step_of_advances {reading next : OpenExpression} {token : Token}
    (advances : Advances reading token next) :
    reading.step token = .ok (.extended next) := by
  cases advances with
  | negation | opening | closing => rfl
  | operand known =>
      cases token with
      | identifier | integer | text => cases known; rfl
      | keyword word => cases word <;> cases known <;> rfl
      | _ => cases known
  | operation push => rw [OpenExpression.step, push]

end OpenExpression

/-! ## Phrases by rank

An operation of some rank has a phrase on either side and is a phrase itself. -/

namespace Rank

def left : Rank → Phrase
  | .comparison => .sum
  | .sum => .sum
  | .product => .product

def right : Rank → Phrase
  | .comparison => .sum
  | .sum => .product
  | .product => .unary

def whole : Rank → Phrase
  | .comparison => .expression
  | .sum => .sum
  | .product => .product

/-- Without an operator, what stands to the right is the whole phrase. -/
theorem whole_of_right (rank : Rank) {tokens : List Token} {value : Expr} {text : String}
    (derivation : rank.right.Derives tokens value text) :
    rank.whole.Derives tokens value text := by
  cases rank with
  | comparison => exact .sum derivation
  | sum => exact .product derivation
  | product => exact .unary derivation

theorem whole_of_binary (operator : Operator) {leftTokens rightTokens : List Token}
    {left right : Expr} (leftDerivation : operator.rank.left.Derives leftTokens left left.render)
    (rightDerivation : operator.rank.right.Derives rightTokens right right.render) :
    operator.rank.whole.Derives (leftTokens ++ .operator operator :: rightTokens)
      (.binary operator left right) (Expr.binary operator left right).render := by
  cases known : operator.rank with
  | comparison =>
      rw [known] at leftDerivation rightDerivation
      exact .compare ((Phrase.mem_comparisons_iff _ _).mpr ⟨known, rfl⟩)
        leftDerivation rightDerivation
  | sum =>
      rw [known] at leftDerivation rightDerivation
      exact .add ((Phrase.mem_sums_iff _ _).mpr ⟨known, rfl⟩) leftDerivation rightDerivation
  | product =>
      rw [known] at leftDerivation rightDerivation
      exact .multiply ((Phrase.mem_products_iff _ _).mpr ⟨known, rfl⟩)
        leftDerivation rightDerivation

end Rank

/-! ## From the reader to the grammar -/

/-- The tokens of a left operand that waits, and of its operator. -/
inductive Waiting.Spans (rank : Rank) : Waiting → List Token → Prop
  | none : Spans rank none []
  | some {left operator tokens} :
      operator.rank = rank → rank.left.Derives tokens left left.render →
      Spans rank (some (left, operator)) (tokens ++ [.operator operator])

theorem Waiting.Spans.join {rank : Rank} {waiting : Waiting} {tokens operandTokens : List Token}
    {operand : Expr} (spans : waiting.Spans rank tokens)
    (derivation : rank.right.Derives operandTokens operand operand.render) :
    rank.whole.Derives (tokens ++ operandTokens) (waiting.join operand)
      (waiting.join operand).render := by
  cases spans with
  | none => exact rank.whole_of_right derivation
  | some ranked leftDerivation =>
      subst ranked
      rw [List.append_assoc]
      exact Rank.whole_of_binary _ leftDerivation derivation

/-- The tokens of all that waits. -/
inductive Pending.Spans : Pending → List Token → Prop
  | intro {comparison sum product comparisonTokens sumTokens productTokens} :
      Waiting.Spans .comparison comparison comparisonTokens →
      Waiting.Spans .sum sum sumTokens →
      Waiting.Spans .product product productTokens →
      Spans { comparison, sum, product } (comparisonTokens ++ (sumTokens ++ productTokens))

namespace Pending.Spans

theorem empty : Spans {} [] := .intro .none .none .none

variable {pending next : Pending} {tokens operandTokens : List Token} {operand : Expr}
  {operator : Operator}

theorem join (spans : pending.Spans tokens)
    (derivation : Phrase.unary.Derives operandTokens operand operand.render) :
    Phrase.expression.Derives (tokens ++ operandTokens) (pending.join operand)
      (pending.join operand).render := by
  cases spans with
  | intro comparison sum product =>
      rw [List.append_assoc, List.append_assoc]
      exact comparison.join (sum.join (product.join derivation))

theorem push (spans : pending.Spans tokens)
    (derivation : Phrase.unary.Derives operandTokens operand operand.render)
    (pushed : pending.push operand operator = some next) :
    next.Spans (tokens ++ operandTokens ++ [.operator operator]) := by
  cases spans with
  | intro comparison sum product =>
      have productDerivation := product.join derivation
      have sumDerivation := sum.join productDerivation
      unfold Pending.push at pushed
      cases ranked : operator.rank with
      | product =>
          rw [ranked] at pushed
          cases pushed
          simpa only [Pending.joinProduct, List.append_assoc] using
            Spans.intro comparison sum (.some ranked productDerivation)
      | sum =>
          rw [ranked] at pushed
          cases pushed
          simpa only [Pending.joinSum, Pending.joinProduct, List.append_assoc,
            List.append_nil] using
            Spans.intro comparison (.some ranked sumDerivation) .none
      | comparison =>
          rw [ranked] at pushed
          cases comparison with
          | none =>
              cases pushed
              simpa only [Pending.joinSum, Pending.joinProduct, List.append_assoc,
                List.append_nil, List.nil_append] using
                Spans.intro (.some ranked sumDerivation) .none .none
          | some => cases pushed

end Pending.Spans

theorem Expr.negated_negate (count : Nat) (operand : Expr) :
    Expr.negated count (.negate operand) = .negate (Expr.negated count operand) := by
  induction count with
  | zero => rfl
  | succ count induction => rw [Expr.negated, induction]; rfl

/-- The tokens before the place of an operand: what waits, and the minus signs. -/
inductive Gap.Spans : Gap → List Token → Prop
  | intro {pending negations tokens} :
      pending.Spans tokens →
      Spans { pending, negations } (tokens ++ List.replicate negations (.operator .minus))

theorem Gap.Spans.of_pending {pending : Pending} {tokens : List Token}
    (spans : pending.Spans tokens) : Gap.Spans { pending } tokens := by
  have withSigns := @Gap.Spans.intro pending 0 tokens spans
  rwa [List.replicate_zero, List.append_nil] at withSigns

theorem Gap.Spans.negate {gap : Gap} {tokens : List Token} (spans : gap.Spans tokens) :
    Gap.Spans { gap with negations := gap.negations + 1 } (tokens ++ [.operator .minus]) := by
  cases spans with
  | @intro pending negations tokens pendingSpans =>
      have withSigns := @Gap.Spans.intro pending (negations + 1) tokens pendingSpans
      rwa [List.replicate_succ', ← List.append_assoc] at withSigns

theorem Phrase.Derives.negated {tokens : List Token} {operand : Expr}
    (derivation : Phrase.unary.Derives tokens operand operand.render) (count : Nat) :
    Phrase.unary.Derives (List.replicate count (.operator .minus) ++ tokens)
      (operand.negated count) (operand.negated count).render := by
  induction count with
  | zero => exact derivation
  | succ count induction => exact .negate induction

/-- The tokens up to the innermost open parenthesis. -/
inductive Gap.SpansAll : List Gap → List Token → Prop
  | nil : SpansAll [] []
  | cons {gap outer tokens outerTokens} :
      gap.Spans tokens → SpansAll outer outerTokens →
      SpansAll (gap :: outer) (outerTokens ++ tokens ++ [.openParen])

namespace OpenExpression

/-- The tokens that have been read. -/
inductive Spans : OpenExpression → List Token → Prop
  | due {gap outer tokens outerTokens} :
      Gap.SpansAll outer outerTokens → gap.Spans tokens →
      Spans (.due gap outer) (outerTokens ++ tokens)
  | read {pending operand outer tokens operandTokens outerTokens} :
      Gap.SpansAll outer outerTokens → pending.Spans tokens →
      Phrase.unary.Derives operandTokens operand operand.render →
      Spans (.read pending operand outer) (outerTokens ++ (tokens ++ operandTokens))

theorem Spans.fill {gap : Gap} {outer : List Gap} {operand : Expr}
    {tokens outerTokens operandTokens : List Token}
    (outerSpans : Gap.SpansAll outer outerTokens) (spans : gap.Spans tokens)
    (derivation : Phrase.unary.Derives operandTokens operand operand.render) :
    Spans (fill gap operand outer) (outerTokens ++ tokens ++ operandTokens) := by
  cases spans with
  | intro pendingSpans =>
      rw [List.append_assoc, List.append_assoc]
      exact .read outerSpans pendingSpans (derivation.negated _)

theorem derives_ofToken? {token : Token} {value : Expr}
    (known : Expr.ofToken? token = some value) :
    Phrase.unary.Derives [token] value value.render := by
  apply Phrase.Derives.atom
  cases token with
  | identifier name => cases known; exact .reference name
  | integer number => cases known; exact .integer number
  | text content => cases known; exact .text content
  | keyword word =>
      cases word <;> cases known
      · exact .verdadeiro
      · exact .falso
  | _ => cases known

/-- A step adds its token to those that have been read. -/
theorem Spans.step {reading next : OpenExpression} {token : Token} {tokens : List Token}
    (spans : reading.Spans tokens) (step : reading.step token = .ok (.extended next)) :
    next.Spans (tokens ++ [token]) := by
  cases advances_of_step step with
  | negation =>
      cases spans with
      | due outerSpans gapSpans =>
          rw [List.append_assoc]
          exact .due outerSpans gapSpans.negate
  | opening =>
      cases spans with
      | due outerSpans gapSpans =>
          simpa only [List.append_nil] using
            Spans.due (.cons gapSpans outerSpans) (.of_pending .empty)
  | operand known =>
      cases spans with
      | due outerSpans gapSpans => exact .fill outerSpans gapSpans (derives_ofToken? known)
  | closing =>
      cases spans with
      | read outerSpans pendingSpans derivation =>
          cases outerSpans with
          | cons gapSpans outerSpans =>
              have inner := Phrase.Derives.parens (pendingSpans.join derivation)
              simpa [List.append_assoc] using Spans.fill outerSpans gapSpans (.atom inner)
  | operation push =>
      cases spans with
      | read outerSpans pendingSpans derivation =>
          have pushed := pendingSpans.push derivation push
          simpa only [List.append_assoc] using Spans.due outerSpans (.of_pending pushed)

theorem Spans.feed {reading final : OpenExpression} {tokens rest : List Token}
    (spans : reading.Spans tokens) (fed : reading.feed rest = some final) :
    final.Spans (tokens ++ rest) := by
  induction rest generalizing reading tokens with
  | nil =>
      cases fed
      rwa [List.append_nil]
  | cons token rest induction =>
      rw [OpenExpression.feed] at fed
      split at fed
      · next next step =>
          rw [List.append_cons]
          exact induction (spans.step step) fed
      · cases fed

theorem Spans.finish {reading : OpenExpression} {tokens : List Token} {value : Expr}
    (spans : reading.Spans tokens) (finished : reading.finish = .ok value) :
    Phrase.expression.Derives tokens value value.render := by
  cases spans with
  | due => cases finished
  | read outerSpans pendingSpans derivation =>
      cases outerSpans with
      | nil =>
          cases finished
          exact pendingSpans.join derivation
      | cons => cases finished

theorem derives_of_complete? {tokens : List Token} {value : Expr}
    (completed : empty.complete? tokens = some value) :
    Phrase.expression.Derives tokens value value.render := by
  rw [complete?, Option.bind_eq_some_iff] at completed
  rcases completed with ⟨final, fed, finished⟩
  have spans : final.Spans tokens := Spans.feed (.due .nil (.of_pending .empty)) fed
  cases outcome : final.finish with
  | error => rw [outcome] at finished; cases finished
  | ok result =>
      rw [outcome] at finished
      cases finished
      exact spans.finish outcome

end OpenExpression

/-! ## From the grammar to the reader -/

namespace Phrase

/-- Where the tokens of a phrase lead the reader: to the expression of the phrase, in
front of which the same operands wait as before. Only a unary phrase may stand behind
minus signs, and an operand of some rank may wait only for a phrase of tighter ones. -/
def Leads : Phrase → List Token → Expr → Prop
  | .expression, tokens, value => ∀ outer, ∃ pending operand,
      (OpenExpression.due {} outer).feed tokens = some (.read pending operand outer) ∧
        pending.join operand = value
  | .sum, tokens, value => ∀ comparison outer, ∃ pending operand,
      (OpenExpression.due { pending := { comparison } } outer).feed tokens =
          some (.read pending operand outer) ∧
        pending.comparison = comparison ∧ pending.joinSum operand = value
  | .product, tokens, value => ∀ comparison sum outer, ∃ pending operand,
      (OpenExpression.due { pending := { comparison, sum } } outer).feed tokens =
          some (.read pending operand outer) ∧
        pending.comparison = comparison ∧ pending.sum = sum ∧
        pending.joinProduct operand = value
  | .unary, tokens, value | .atom, tokens, value => ∀ gap outer,
      (OpenExpression.due gap outer).feed tokens =
        some (OpenExpression.fill gap value outer)

namespace Leads

open OpenExpression

variable {operator : Operator} {tokens leftTokens rightTokens : List Token}
  {value left right : Expr}

theorem of_token {token : Token} (known : Expr.ofToken? token = some value) :
    Leads .atom [token] value := by
  intro gap outer
  rw [feed_cons (step_of_advances (.operand known)), feed_nil]

theorem parens (inner : Leads .expression tokens value) :
    Leads .atom (.openParen :: tokens ++ [.closeParen]) (.parens value) := by
  intro gap outer
  rcases inner (gap :: outer) with ⟨pending, operand, fed, joined⟩
  rw [List.cons_append, feed_cons (step_of_advances .opening), feed_append, fed,
    Option.bind_some, feed_cons (step_of_advances .closing), feed_nil, joined]

theorem negate (operand : Leads .unary tokens value) :
    Leads .unary (.operator .minus :: tokens) (.negate value) := by
  intro gap outer
  rw [feed_cons (step_of_advances .negation), operand]
  simp only [fill, Expr.negated_negate]
  rfl

theorem unary (operand : Leads .unary tokens value) : Leads .product tokens value := by
  intro comparison sum outer
  exact ⟨_, _, operand _ outer, rfl, rfl, rfl⟩

theorem multiply (ranked : operator.rank = .product) (leftLeads : Leads .product leftTokens left)
    (rightLeads : Leads .unary rightTokens right) :
    Leads .product (leftTokens ++ .operator operator :: rightTokens)
      (.binary operator left right) := by
  intro comparison sum outer
  rcases leftLeads comparison sum outer with ⟨pending, operand, fed, rfl, rfl, rfl⟩
  have pushed : pending.push operand operator =
      some { pending with product := some (pending.joinProduct operand, operator) } := by
    rw [Pending.push, ranked]
  rw [feed_append, fed, Option.bind_some, feed_cons (step_of_advances (.operation pushed)),
    rightLeads]
  exact ⟨_, _, rfl, rfl, rfl, rfl⟩

theorem product (operand : Leads .product tokens value) : Leads .sum tokens value := by
  intro comparison outer
  rcases operand comparison none outer with ⟨pending, operand, fed, compared, summed, joined⟩
  refine ⟨pending, operand, fed, compared, ?_⟩
  rw [Pending.joinSum, summed, joined]
  rfl

theorem add (ranked : operator.rank = .sum) (leftLeads : Leads .sum leftTokens left)
    (rightLeads : Leads .product rightTokens right) :
    Leads .sum (leftTokens ++ .operator operator :: rightTokens)
      (.binary operator left right) := by
  intro comparison outer
  rcases leftLeads comparison outer with ⟨pending, operand, fed, rfl, rfl⟩
  have pushed : pending.push operand operator =
      some { comparison := pending.comparison
             sum := some (pending.joinSum operand, operator) } := by
    rw [Pending.push, ranked]
  rcases rightLeads pending.comparison (some (pending.joinSum operand, operator)) outer with
    ⟨after, last, rightFed, compared, summed, joined⟩
  rw [feed_append, fed, Option.bind_some, feed_cons (step_of_advances (.operation pushed)),
    rightFed]
  refine ⟨after, last, rfl, compared, ?_⟩
  rw [Pending.joinSum, summed, joined]
  rfl

theorem sum (operand : Leads .sum tokens value) : Leads .expression tokens value := by
  intro outer
  rcases operand none outer with ⟨pending, operand, fed, compared, joined⟩
  refine ⟨pending, operand, fed, ?_⟩
  rw [Pending.join, compared, joined]
  rfl

theorem compare (ranked : operator.rank = .comparison) (leftLeads : Leads .sum leftTokens left)
    (rightLeads : Leads .sum rightTokens right) :
    Leads .expression (leftTokens ++ .operator operator :: rightTokens)
      (.binary operator left right) := by
  intro outer
  rcases leftLeads none outer with ⟨pending, operand, fed, compared, rfl⟩
  have pushed : pending.push operand operator =
      some { comparison := some (pending.joinSum operand, operator) } := by
    rw [Pending.push, ranked, compared]
  rcases rightLeads (some (pending.joinSum operand, operator)) outer with
    ⟨after, last, rightFed, comparedAfter, joined⟩
  rw [feed_append, fed, Option.bind_some, feed_cons (step_of_advances (.operation pushed)),
    rightFed]
  refine ⟨after, last, rfl, ?_⟩
  rw [Pending.join, comparedAfter, joined]
  rfl

end Leads

theorem Derives.leads {phrase : Phrase} {tokens : List Token} {value : Expr} {text : String}
    (derivation : phrase.Derives tokens value text) : phrase.Leads tokens value := by
  induction derivation with
  | integer | text | reference | verdadeiro | falso => exact .of_token rfl
  | parens _ inner => exact .parens inner
  | atom _ operand => exact operand
  | negate _ operand => exact .negate operand
  | unary _ operand => exact .unary operand
  | multiply member _ _ left right =>
      exact .multiply ((mem_products_iff _ _).mp member).1 left right
  | product _ operand => exact .product operand
  | add member _ _ left right => exact .add ((mem_sums_iff _ _).mp member).1 left right
  | sum _ operand => exact .sum operand
  | compare member _ _ left right =>
      exact .compare ((mem_comparisons_iff _ _).mp member).1 left right

end Phrase

/-- Reading tokens to their end gives an expression exactly if the grammar derives it. -/
theorem OpenExpression.complete?_empty_eq_some_iff (tokens : List Token) (value : Expr) :
    OpenExpression.empty.complete? tokens = some value ↔
      Phrase.expression.Derives tokens value value.render := by
  constructor
  · exact derives_of_complete?
  · intro derivation
    rcases derivation.leads [] with ⟨pending, operand, fed, joined⟩
    rw [complete?, empty, fed]
    exact congrArg some joined

end Firmware
