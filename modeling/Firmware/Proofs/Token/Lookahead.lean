import Firmware.Proofs.Token.OnDemand

/-! # How far the lexer looks ahead

In each turn the lexer looks at one item, and it decides what to do whatever stands behind that
item. So an answer depends on the items that have been consumed for it and on the next one
alone. Main statement: streams that agree up to there give the same answer, and if a stream is
cut off anywhere, only the last of its tokens and errors can change. -/

namespace Firmware

/-- The lexer is between tokens behind a token, and skips what follows an error. -/
def Lexed.modeBehind : Lexed → LexerMode
  | .ok _ => .between
  | .error _ => .recovering

/-- What a turn makes of the item that it looks at. -/
inductive LexerDecision where
  | goes (mode : LexerMode) (here : Location) (consumes : Bool)
  | delivers (outcome : Lexed) (consumes : Bool)
  | ends

/-- The items left by a turn, which consumes the first one or none. -/
def Item.left (consumes : Bool) (rest : List Item) : List Item :=
  if consumes then rest.tail else rest

def LexerDecision.turn (reader : LexerReader) : LexerDecision → LexerTurn
  | .goes mode here consumes => .goes { mode, here, rest := Item.left consumes reader.rest }
  | .delivers outcome consumes =>
      .delivers outcome
        { reader with mode := outcome.modeBehind, rest := Item.left consumes reader.rest }
  | .ends => .ends

/-- The same lexer in front of other items. -/
def LexerReader.facing (reader : LexerReader) (rest : List Item) : LexerReader :=
  { reader with rest }

namespace LexerTurn

/-- The items left by a turn in front of `rest`. -/
def left (rest : List Item) : LexerTurn → List Item
  | .goes after => after.rest
  | .delivers _ after => after.rest
  | .ends => rest

/-- The same turn with other items left. -/
def facing (others : List Item) : LexerTurn → LexerTurn
  | .goes after => .goes (after.facing others)
  | .delivers outcome after => .delivers outcome (after.facing others)
  | .ends => .ends

end LexerTurn

/-- A turn leaves items such that, were others left of which the first is the same, the turn
would have been the same. -/
theorem Item.exists_piece (consumes : Bool) (rest : List Item) :
    ∃ piece, rest = piece ++ left consumes rest ∧
      ∀ others, others.head? = (left consumes rest).head? →
        (piece ++ others).head? = rest.head? ∧ left consumes (piece ++ others) = others := by
  cases consumes with
  | false => exact ⟨[], rfl, fun others same => ⟨same, rfl⟩⟩
  | true =>
      cases rest with
      | nil =>
          refine ⟨[], rfl, ?_⟩
          intro others nothing
          rw [List.head?_eq_none_iff.mp nothing]
          exact ⟨rfl, rfl⟩
      | cons item rest => exact ⟨[item], rfl, fun others _ => ⟨rfl, rfl⟩⟩

namespace LexerReader

/-! ## One turn -/

/-- The token or the error of a lexeme that grows no more is delivered without consuming an
item. -/
theorem exists_decision_settle (lexeme : Lexeme) (first last here : Location) :
    ∃ decision : LexerDecision, ∀ mode rest,
      settle ⟨mode, here, rest⟩ lexeme first last = decision.turn ⟨mode, here, rest⟩ := by
  cases settled : lexeme.settle with
  | ok token =>
      refine ⟨.delivers (.ok { value := token, location := first.span last }) false, ?_⟩
      intro mode rest
      simp only [settle, settled]
      rfl
  | error error =>
      refine ⟨.delivers (.error { value := error, location := here }) false, ?_⟩
      intro mode rest
      simp only [settle, settled]
      rfl

theorem exists_decision_end (mode : LexerMode) (here : Location) :
    ∃ decision : LexerDecision, turn ⟨mode, here, []⟩ = decision.turn ⟨mode, here, []⟩ := by
  cases mode with
  | between | recovering => exact ⟨.ends, rfl⟩
  | comment => exact ⟨.goes .between here false, rfl⟩
  | within lexeme first last =>
      rcases exists_decision_settle lexeme first last here with ⟨decision, settles⟩
      exact ⟨decision, settles _ _⟩

theorem exists_decision_between (here : Location) (value : Char) (next : Location) :
    ∃ decision : LexerDecision, ∀ rest,
      turn ⟨.between, here, .character value next :: rest⟩ =
        decision.turn ⟨.between, here, .character value next :: rest⟩ := by
  by_cases isDigit : value.isDigit = true
  · refine ⟨.goes (.within (.integer 0) here here) here false, ?_⟩
    intro rest
    simp only [turn, isDigit, if_true]
    rfl
  · cases started : Lexeme.start value with
    | some lexeme =>
        refine ⟨.goes (.within lexeme here here) next true, ?_⟩
        intro rest
        simp only [turn, isDigit, started]
        rfl
    | none =>
        by_cases blank : isBlank value = true
        · refine ⟨.goes .between next true, ?_⟩
          intro rest
          simp only [turn, isDigit, started, blank]
          rfl
        · refine ⟨.delivers (.error { value := .badCharacter value, location := here }) false, ?_⟩
          intro rest
          simp only [turn, isDigit, started, blank]
          rfl

theorem exists_decision_within (lexeme : Lexeme) (first last here : Location) (value : Char)
    (next : Location) :
    ∃ decision : LexerDecision, ∀ rest,
      turn ⟨.within lexeme first last, here, .character value next :: rest⟩ =
        decision.turn ⟨.within lexeme first last, here, .character value next :: rest⟩ := by
  cases extended : lexeme.extend value with
  | grown extension =>
      refine ⟨.goes (.within extension first here) next true, ?_⟩
      intro rest
      simp only [turn, extended]
      rfl
  | comment =>
      refine ⟨.goes .comment next true, ?_⟩
      intro rest
      simp only [turn, extended]
      rfl
  | refused error =>
      refine ⟨.delivers (.error { value := error, location := here }) false, ?_⟩
      intro rest
      simp only [turn, extended]
      rfl
  | ended =>
      rcases exists_decision_settle lexeme first last here with ⟨decision, settles⟩
      refine ⟨decision, ?_⟩
      intro rest
      simp only [turn, extended]
      exact settles _ _

/-- What a turn does is decided by the item in front, if there is one. -/
theorem exists_decision (reader : LexerReader) :
    ∃ decision : LexerDecision, ∀ others, others.head? = reader.rest.head? →
      (reader.facing others).turn = decision.turn (reader.facing others) := by
  rcases reader with ⟨mode, here, rest⟩
  cases rest with
  | nil =>
      rcases exists_decision_end mode here with ⟨decision, decides⟩
      refine ⟨decision, ?_⟩
      intro others nothing
      rw [List.head?_eq_none_iff.mp nothing]
      exact decides
  | cons item rest =>
      have ahead : ∃ decision : LexerDecision, ∀ behind,
          turn ⟨mode, here, item :: behind⟩ = decision.turn ⟨mode, here, item :: behind⟩ := by
        match item, mode with
        | .failure error, _ =>
            exact ⟨.delivers (.error { value := .input error, location := here }) true,
              fun _ => rfl⟩
        | .character value next, .recovering =>
            exact ⟨.goes (.recover value) next true, fun _ => rfl⟩
        | .character value next, .comment =>
            exact ⟨.goes (if value = '\n' then .between else .comment) next true, fun _ => rfl⟩
        | .character value next, .between => exact exists_decision_between here value next
        | .character value next, .within lexeme first last =>
            exact exists_decision_within lexeme first last here value next
      rcases ahead with ⟨decision, decides⟩
      refine ⟨decision, ?_⟩
      intro others starts
      rcases List.head?_eq_some_iff.mp starts with ⟨behind, rfl⟩
      exact decides behind

/-- A turn consumes an item or none. It is the same whenever this is followed by the same item. -/
theorem exists_turned (reader : LexerReader) :
    ∃ piece, reader.rest = piece ++ reader.turn.left reader.rest ∧
      ∀ others, others.head? = (reader.turn.left reader.rest).head? →
        (reader.facing (piece ++ others)).turn = reader.turn.facing others := by
  rcases reader.exists_decision with ⟨decision, decides⟩
  have now : reader.turn = decision.turn reader := decides reader.rest rfl
  rw [now]
  cases decision with
  | goes _ _ consumes | delivers _ consumes =>
      rcases Item.exists_piece consumes reader.rest with ⟨piece, front, alike⟩
      refine ⟨piece, front, ?_⟩
      intro others first
      rcases alike others first with ⟨looksAt, leaves⟩
      rw [decides _ looksAt]
      simp only [LexerDecision.turn, LexerTurn.facing, facing, leaves]
  | ends =>
      refine ⟨[], rfl, ?_⟩
      intro others first
      exact decides others first

theorem mode_of_delivers {reader after : LexerReader} {outcome : Lexed}
    (turned : reader.turn = .delivers outcome after) : after.mode = outcome.modeBehind := by
  rcases reader.exists_decision with ⟨decision, decides⟩
  have now : reader.turn = decision.turn reader := decides reader.rest rfl
  rw [turned] at now
  cases decision with
  | delivers =>
      cases now
      rfl
  | goes | ends => cases now

/-! ## One question -/

/-- A question consumes some items. Its answer is the same whenever these are followed by the
same item. -/
theorem exists_consumed (reader : LexerReader) :
    ∃ consumed, reader.rest = consumed ++ reader.next.2.rest ∧
      ∀ others, others.head? = reader.next.2.rest.head? →
        (reader.facing (consumed ++ others)).next =
          (reader.next.1, reader.next.2.facing others) := by
  fun_induction next reader with
  | case1 reader after turned _ induction =>
      rcases induction with ⟨consumed, split, same⟩
      rcases reader.exists_turned with ⟨piece, front, alike⟩
      rw [turned] at front alike
      refine ⟨piece ++ consumed, ?_, ?_⟩
      · rw [List.append_assoc, ← split]
        exact front
      · intro others first
        -- The turn looks at what the later ones consume or, if that is nothing, at the same
        -- item as they do.
        have begins : (consumed ++ others).head? = after.rest.head? := by
          rw [split, List.head?_append, List.head?_append, first]
        rw [next_eq, List.append_assoc, alike _ begins]
        exact same others first
  | case2 reader outcome after turned =>
      rcases reader.exists_turned with ⟨piece, front, alike⟩
      rw [turned] at front alike
      refine ⟨piece, front, ?_⟩
      intro others first
      rw [next_eq, alike others first]
      rfl
  | case3 reader turned =>
      rcases reader.exists_turned with ⟨piece, front, alike⟩
      rw [turned] at front alike
      refine ⟨piece, front, ?_⟩
      intro others first
      rw [next_eq, alike others first, List.self_eq_append_left.mp front]
      rfl

theorem mode_of_next {reader after : LexerReader} {outcome : Lexed}
    (asked : reader.next = (some outcome, after)) : after.mode = outcome.modeBehind := by
  fun_induction next reader with
  | case1 reader _ _ _ induction => exact induction asked
  | case2 reader delivered after turned =>
      cases asked
      exact mode_of_delivers turned
  | case3 => cases asked

/-! ## All questions -/

/-- Questions consume some items. The answers are the same whenever these are followed by the
same item. -/
theorem exists_consumed_after (reader : LexerReader) (questions : Nat) :
    ∃ consumed, reader.rest = consumed ++ (reader.after questions).rest ∧
      ∀ others, others.head? = (reader.after questions).rest.head? →
        (reader.facing (consumed ++ others)).after questions =
          (reader.after questions).facing others ∧
        ∀ question < questions,
          ((reader.facing (consumed ++ others)).after question).next.1 =
            (reader.after question).next.1 := by
  induction questions with
  | zero =>
      refine ⟨[], rfl, ?_⟩
      intro others _
      exact ⟨rfl, fun question less => absurd less (Nat.not_lt_zero question)⟩
  | succ questions induction =>
      rcases induction with ⟨consumed, split, same⟩
      rcases exists_consumed (reader.after questions) with ⟨more, next, sameNext⟩
      refine ⟨consumed ++ more, ?_, ?_⟩
      · rw [List.append_assoc, after, ← next]
        exact split
      · intro others first
        rw [after] at first
        have begins : (more ++ others).head? = (reader.after questions).rest.head? := by
          rw [next, List.head?_append, List.head?_append, first]
        rcases same _ begins with ⟨reached, earlier⟩
        rw [List.append_assoc]
        refine ⟨by rw [after, reached, sameNext others first, after], ?_⟩
        intro question less
        rcases Nat.lt_succ_iff_lt_or_eq.mp less with before | rfl
        · exact earlier question before
        · rw [reached, sameNext others first]

/-- All answers, up to the first question that has none. -/
def answers (reader : LexerReader) : List Lexed :=
  match asked : reader.next with
  | (none, _) => []
  | (some outcome, after) =>
      have := (next_of_some asked).2
      outcome :: answers after
termination_by reader.effort

theorem answers_eq (reader : LexerReader) : reader.answers = reader.remaining := by
  fun_induction answers reader with
  | case1 reader after asked => rw [next_of_none asked]
  | case2 reader outcome after asked _ induction => rw [(next_of_some asked).1, induction]

/-- Nothing is delivered when a stream ends right behind a token or an error. -/
theorem answers_of_ended {reader after : LexerReader} {outcome : Lexed}
    (asked : reader.next = (some outcome, after)) (ended : after.rest = []) :
    after.answers = [] := by
  rw [answers_eq, remaining, mode_of_next asked, ended]
  cases outcome <;> rfl

/-- Were a stream to go on, all answers but the last one would be the same. -/
theorem dropLast_answers_prefix (reader : LexerReader) (more : List Item) :
    reader.answers.dropLast <+: (reader.facing (reader.rest ++ more)).answers := by
  fun_induction answers reader with
  | case1 => exact List.nil_prefix
  | case2 reader outcome after asked _ induction =>
      -- Only a question that has come to the end of the stream could be answered differently,
      -- and it is the last one that is answered.
      by_cases ended : after.rest = []
      · rw [answers_of_ended asked ended]
        exact List.nil_prefix
      · rcases reader.exists_consumed with ⟨consumed, split, same⟩
        rw [asked] at split same
        have begins : (after.rest ++ more).head? = after.rest.head? := by
          rw [List.head?_append, Option.or_of_isSome (List.isSome_head?.mpr ended)]
        have askedAgain := same _ begins
        rw [← List.append_assoc, ← split] at askedAgain
        have continued : (reader.facing (reader.rest ++ more)).answers =
            outcome :: (after.facing (after.rest ++ more)).answers := by
          rw [answers_eq, (next_of_some askedAgain).1, answers_eq]
        rw [continued]
        cases answered : after.answers with
        | nil => exact List.nil_prefix
        | cons first others =>
            rw [answered] at induction
            rw [List.dropLast_cons_of_ne_nil (List.cons_ne_nil first others)]
            exact List.cons_prefix_cons.mpr ⟨rfl, induction⟩

/-- How far the lexer looks ahead in a stream. -/
structure LooksOneAhead (start : Location) (items : List Item) : Prop where
  /-- Answers depend on the items consumed for them and on the next one alone. -/
  settled : ∀ questions, ∃ consumed,
    items = consumed ++ ((opened start items).after questions).rest ∧
    ∀ others, others.head? = ((opened start items).after questions).rest.head? →
      ∀ question < questions,
        ((opened start (consumed ++ others)).after question).next.1 =
          ((opened start items).after question).next.1
  /-- If the stream is cut off, what is delivered stays the same, except for the last. -/
  cut : ∀ count, (lex start (items.take count)).dropLast <+: lex start items

/-- Whatever a stream holds, what stands further on than the next item cannot change an answer. -/
theorem looksOneAhead (start : Location) (items : List Item) : LooksOneAhead start items where
  settled := by
    intro questions
    rcases (opened start items).exists_consumed_after questions with ⟨consumed, split, same⟩
    refine ⟨consumed, split, ?_⟩
    intro others first
    exact (same others first).2
  cut := by
    intro count
    have continued := dropLast_answers_prefix (opened start (items.take count)) (items.drop count)
    rw [answers_eq, answers_eq] at continued
    change _ <+: lex start (items.take count ++ items.drop count) at continued
    rwa [List.take_append_drop] at continued

end LexerReader

end Firmware
