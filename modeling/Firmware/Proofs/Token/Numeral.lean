import Firmware.Proofs.Source.Streaming
import Firmware.Proofs.Token.OnDemand
import Mathlib.Data.Nat.Find
import Mathlib.Logic.Relation

/-! # Integers in a stream

The digits of an integer are added up in a word of 32 bits: it is multiplied by ten, and then
the digit is added to it. Both operations fail rather than wrap around. Main statement: where
the lexer meets a run of digits between two tokens, it delivers their decimal value as one token
if that is at most the largest integer, and otherwise an error at the first digit that makes it
too large, behind which nothing of the line is delivered. -/

namespace Firmware

/-! ## Words -/

namespace Word

/-- The word of an integer, if words reach that far. -/
def ofInt? (value : Int) : Option Int32 :=
  if Int32.minValue.toInt ≤ value ∧ value ≤ Int32.maxValue.toInt then some (.ofInt value) else none

def times? (first second : Int32) : Option Int32 :=
  ofInt? (first.toInt * second.toInt)

def plus? (first second : Int32) : Option Int32 :=
  ofInt? (first.toInt + second.toInt)

/-- The word behind one more digit. -/
def accumulate (accumulated : Int32) (digit : Char) : Option Int32 := do
  let shifted ← times? accumulated 10
  plus? shifted (.ofNat digit.toNat - .ofNat '0'.toNat)

/-- A word that is found is exact. -/
theorem ofInt?_eq_some_iff {value : Int} {word : Int32} :
    ofInt? value = some word ↔ word.toInt = value := by
  have least := word.minValue_le_toInt
  have greatest := word.toInt_le
  unfold ofInt?
  split
  · next inside =>
      have reached : (Int32.ofInt value).toInt = value := by
        rw [Int32.toInt_minValue, Int32.toInt_maxValue] at inside
        exact Int32.toInt_ofInt_of_le (by omega) (by omega)
      rw [Option.some_inj, ← Int32.toInt_inj, reached]
      exact eq_comm
  · next outside =>
      constructor
      · intro found
        cases found
      · intro same
        rw [same] at least greatest
        exact absurd ⟨least, greatest⟩ outside

theorem toInt_digit {digit : Char} (isDigit : digit.isDigit = true) :
    (Int32.ofNat digit.toNat - Int32.ofNat '0'.toNat).toInt = digitValue digit := by
  have bounds : 48 ≤ digit.toNat ∧ digit.toNat ≤ 57 := Char.isDigit_iff_toNat.mp isDigit
  have zero : '0'.toNat = 48 := rfl
  have code : (Int32.ofNat digit.toNat).toInt = digit.toNat :=
    Int32.toInt_ofNat_of_lt (by omega)
  have zeroCode : (Int32.ofNat '0'.toNat).toInt = 48 := rfl
  rw [Int32.toInt_sub_of_le, code, zeroCode, digitValue, zero]
  · omega
  · decide
  · rw [Int32.le_iff_toInt_le, code, zeroCode]
    omega

/-- A digit is added to a word exactly if the sum has a word. The product cannot fail before,
since the digit does not make it smaller. -/
theorem accumulate_eq_some_iff {accumulated word : Int32} {digit : Char}
    (nonneg : 0 ≤ accumulated.toInt) (isDigit : digit.isDigit = true) :
    accumulate accumulated digit = some word ↔
      word.toInt = 10 * accumulated.toInt + digitValue digit := by
  have ten : (10 : Int32).toInt = 10 := rfl
  simp only [accumulate, Option.bind_eq_bind, Option.bind_eq_some_iff, times?, plus?,
    ofInt?_eq_some_iff, toInt_digit isDigit, ten]
  constructor
  · intro found
    rcases found with ⟨shifted, product, sum⟩
    omega
  · intro sum
    have greatest := word.toInt_le
    rw [Int32.toInt_maxValue] at greatest
    have product : (Int32.ofInt (accumulated.toInt * 10)).toInt = accumulated.toInt * 10 :=
      Int32.toInt_ofInt_of_le (by omega) (by omega)
    exact ⟨_, product, by omega⟩

/-- Digits are added up to a word exactly if their decimal value has one. -/
theorem foldlM_accumulate_eq_some_iff {digits : List Char}
    (areDigits : ∀ digit ∈ digits, digit.isDigit = true) {word : Int32} :
    digits.foldlM accumulate 0 = some word ↔ word.toInt = Nat.ofDigitChars 10 digits 0 := by
  induction digits using List.reverseRecOn generalizing word with
  | nil =>
      change some 0 = some word ↔ word.toInt = 0
      rw [Option.some_inj, ← Int32.toInt_inj]
      exact eq_comm
  | append_singleton digits digit induction =>
      have isDigit := areDigits digit (by simp)
      have before : ∀ accumulated : Int32, digits.foldlM accumulate 0 = some accumulated ↔
          accumulated.toInt = Nat.ofDigitChars 10 digits 0 := fun accumulated =>
        induction fun other member => areDigits other (List.mem_append_left _ member)
      have value : Nat.ofDigitChars 10 (digits ++ [digit]) 0 =
          10 * Nat.ofDigitChars 10 digits 0 + digitValue digit := by
        rw [Nat.ofDigitChars_append, Nat.ofDigitChars_cons]
        rfl
      simp only [List.foldlM_append, List.foldlM_cons, List.foldlM_nil, bind_pure,
        Option.bind_eq_bind, Option.bind_eq_some_iff, before, value]
      constructor
      · intro found
        rcases found with ⟨accumulated, value, added⟩
        rw [accumulate_eq_some_iff (by omega) isDigit] at added
        omega
      · intro same
        have greatest := word.toInt_le
        rw [Int32.toInt_maxValue] at greatest
        have accumulated : (Int32.ofNat (Nat.ofDigitChars 10 digits 0)).toInt =
            Nat.ofDigitChars 10 digits 0 := Int32.toInt_ofNat_of_lt (by omega)
        refine ⟨_, accumulated, ?_⟩
        rw [accumulate_eq_some_iff (by omega) isDigit]
        omega

end Word

/-! ## The items of a line -/

namespace Item

/-- The location of what stands behind some items, the first of which stands at `here`. -/
def past (here : Location) : List Item → Location
  | [] => here
  | .character _ next :: rest => past next rest
  | .failure _ :: rest => past here rest

/-- The items up to the end of their line. -/
def restOfLine (items : List Item) : List Item :=
  items.takeWhile fun item => item.value? ≠ some '\n'

/-- The items from the end of their line on. -/
def nextLines (items : List Item) : List Item :=
  items.dropWhile fun item => item.value? ≠ some '\n'

section

variable {item : Item} (sameLine : item.value? ≠ some '\n') (rest : List Item)
include sameLine

theorem restOfLine_cons : restOfLine (item :: rest) = item :: restOfLine rest :=
  List.takeWhile_cons_of_pos (by simpa)

theorem nextLines_cons : nextLines (item :: rest) = nextLines rest :=
  List.dropWhile_cons_of_pos (by simpa)

end

theorem exists_character {item : Item} {value : Char} (same : item.value? = some value) :
    ∃ next, item = .character value next := by
  cases item with
  | failure => cases same
  | character other next =>
      cases same
      exact ⟨next, rfl⟩

end Item

/-- The error that answers a read that has failed. -/
def Lexed.input (failure : Located InputError) : Lexed :=
  .error { value := .input failure.value, location := failure.location }

/-- Behind an error nothing of the line is delivered but errors for failed reads, and then the
lexer goes on with the next line. -/
theorem LexerMode.run_recovering (here : Location) (items : List Item) :
    recovering.run here items =
      (Item.failures here (Item.restOfLine items)).map Lexed.input ++
        lex (Item.past here (Item.restOfLine items)) (Item.nextLines items) := by
  induction items generalizing here with
  | nil => rfl
  | cons item rest induction =>
      cases item with
      | failure =>
          rw [run, induction here]
          rfl
      | character value next =>
          by_cases newline : value = '\n'
          · subst newline
            rfl
          · have sameLine : Item.value? (.character value next) ≠ some '\n' := by
              simpa [Item.value?] using newline
            rw [run, Item.restOfLine_cons sameLine, Item.nextLines_cons sameLine]
            simp only [step, recover, if_neg newline, List.nil_append]
            exact induction next

/-- Characters of a line are skipped behind an error. -/
theorem LexerMode.run_recovering_append {characters : List Char} (noNewline : '\n' ∉ characters)
    {front : List Item} (spelled : front.map Item.value? = characters.map some) (here : Location)
    (rest : List Item) :
    recovering.run here (front ++ rest) = recovering.run (Item.past here front) rest := by
  induction characters generalizing front here with
  | nil =>
      cases List.map_eq_nil_iff.mp spelled
      rfl
  | cons character characters induction =>
      rcases List.map_eq_cons_iff.mp spelled with ⟨item, others, rfl, same, later⟩
      rcases Item.exists_character same with ⟨next, rfl⟩
      rw [List.mem_cons, not_or] at noNewline
      rw [List.cons_append, run]
      simp only [step, recover, if_neg (Ne.symm noNewline.1), List.nil_append]
      exact induction noNewline.2 later next

namespace LexerReader

/-! ## Turns -/

/-- A lexer comes to a later state without delivering anything. -/
def Passes (reader later : LexerReader) : Prop :=
  Relation.ReflTransGen (fun before after => before.turn = .goes after) reader later

theorem Passes.next_eq {reader later : LexerReader} (passes : reader.Passes later) :
    reader.next = later.next := by
  induction passes with
  | refl => rfl
  | tail _ turned induction => rw [induction, LexerReader.next_eq, turned]

/-- Characters that extend a lexeme are consumed one by one. -/
theorem passes_grow? {lexeme grown : Lexeme} {characters : List Char}
    (grows : lexeme.grow? characters = some grown) {run : List Item}
    (spelled : run.map Item.value? = characters.map some) (first last here : Location)
    (behind : List Item) :
    Passes ⟨.within lexeme first last, here, run ++ behind⟩
      ⟨.within grown first (if run = [] then last else Item.past here run.dropLast),
        Item.past here run, behind⟩ := by
  induction characters generalizing lexeme run last here with
  | nil =>
      cases List.map_eq_nil_iff.mp spelled
      cases grows
      exact .refl
  | cons character characters induction =>
      rcases List.map_eq_cons_iff.mp spelled with ⟨item, others, rfl, same, later⟩
      rcases Item.exists_character same with ⟨next, rfl⟩
      rw [Lexeme.grow?] at grows
      split at grows
      · next extended extends_ =>
          have turned : turn ⟨.within lexeme first last, here,
              .character character next :: (others ++ behind)⟩ =
                .goes ⟨.within extended first here, next, others ++ behind⟩ := by
            simp only [turn, extends_]
          have passes := induction grows later here next
          cases others with
          | nil => exact .head turned passes
          | cons => exact .head turned passes
      · cases grows

/-! ## A run of digits -/

/-- The lexer is between tokens, in front of a run of digits that goes no further. -/
structure AtNumeral (reader : LexerReader) (digits : List Char) (run behind : List Item) :
    Prop where
  between : reader.mode = .between
  ahead : reader.rest = run ++ behind
  spelled : run.map Item.value? = digits.map some
  numeral : IsNumeral digits
  ends : ∀ next, behind.head?.bind Item.value? = some next → next.isDigit = false

/-- What the lexer makes of a run of digits. -/
structure TakesNumeral (reader : LexerReader) (digits : List Char) (run behind : List Item) :
    Prop where
  /-- A value that is not too large is delivered at the location of all digits. -/
  fits : Nat.ofDigitChars 10 digits 0 ≤ largestInteger →
    (∀ error, behind.head? ≠ some (.failure error)) →
    reader.next =
      (some (.ok { value := .integer (Nat.ofDigitChars 10 digits 0)
                   location := reader.here.span (Item.past reader.here run.dropLast) }),
        ⟨.between, Item.past reader.here run, behind⟩)
  /-- It is given up if the read behind the digits fails. -/
  interrupted : Nat.ofDigitChars 10 digits 0 ≤ largestInteger →
    ∀ error, behind.head? = some (.failure error) →
    reader.next =
      (some (Lexed.input { value := error, location := Item.past reader.here run }),
        ⟨.recovering, Item.past reader.here run, behind.tail⟩)
  /-- A value that is too large is an error at the first digit that makes it so. -/
  exceeds : largestInteger < Nat.ofDigitChars 10 digits 0 → ∃ count < digits.length,
    (∀ fewer ≤ count, Nat.ofDigitChars 10 (digits.take fewer) 0 ≤ largestInteger) ∧
    largestInteger < Nat.ofDigitChars 10 (digits.take (count + 1)) 0 ∧
    reader.next =
      (some (.error { value := .integerOverflow
                      location := Item.past reader.here (run.take count) }),
        ⟨.recovering, Item.past reader.here (run.take count), run.drop count ++ behind⟩)
  /-- Nothing else of its line is delivered but errors for failed reads, and then the lexer goes
  on with the next line. -/
  skipped : largestInteger < Nat.ofDigitChars 10 digits 0 →
    reader.next.2.remaining =
      (Item.failures reader.here (Item.restOfLine reader.rest)).map Lexed.input ++
        lex (Item.past reader.here (Item.restOfLine reader.rest)) (Item.nextLines reader.rest)
  /-- In a source no read fails before the line has ended, so nothing of this sort is met. -/
  uninterrupted : ∀ source : Source, reader.rest <:+ source.items →
    (∀ error, behind.head? ≠ some (.failure error)) ∧
      Item.failures reader.here (Item.restOfLine reader.rest) = []
  /-- The words that hold the digits read so far are exact, and there is one unless the value is
  out of their reach. -/
  words : ∀ count word, (digits.take count).foldlM Word.accumulate 0 = some word ↔
    word.toInt = Nat.ofDigitChars 10 (digits.take count) 0
  /-- They are what the lexer holds while it goes over the digits. -/
  held : ∀ count word, (digits.take count).foldlM Word.accumulate 0 = some word →
    ∃ last, reader.Passes ⟨.within (.integer word.toInt.toNat) reader.here last,
      Item.past reader.here (run.take count), run.drop count ++ behind⟩

variable {reader : LexerReader} {digits : List Char} {run behind : List Item}

namespace AtNumeral

theorem isDigit (atNumeral : reader.AtNumeral digits run behind) :
    ∀ digit ∈ digits, digit.isDigit = true :=
  atNumeral.numeral.2

theorem isDigit_take (atNumeral : reader.AtNumeral digits run behind) (count : Nat) :
    ∀ digit ∈ digits.take count, digit.isDigit = true := by
  intro digit member
  exact atNumeral.isDigit digit (List.mem_of_mem_take member)

theorem spelled_take (atNumeral : reader.AtNumeral digits run behind) (count : Nat) :
    (run.take count).map Item.value? = (digits.take count).map some := by
  rw [List.map_take, atNumeral.spelled, List.map_take]

theorem newline_not_mem (atNumeral : reader.AtNumeral digits run behind) : '\n' ∉ digits := by
  intro newline
  cases atNumeral.isDigit '\n' newline

theorem length_run (atNumeral : reader.AtNumeral digits run behind) :
    run.length = digits.length := by
  rw [← List.length_map Item.value?, atNumeral.spelled, List.length_map]

theorem exists_head (atNumeral : reader.AtNumeral digits run behind) :
    ∃ digit next others, run = .character digit next :: others ∧ digit.isDigit = true := by
  rcases List.exists_cons_of_ne_nil atNumeral.numeral.1 with ⟨digit, others, rfl⟩
  rcases List.map_eq_cons_iff.mp atNumeral.spelled with ⟨item, items, rfl, same, -⟩
  rcases Item.exists_character same with ⟨next, rfl⟩
  exact ⟨digit, next, items, rfl, atNumeral.isDigit digit List.mem_cons_self⟩

/-- The first digit is not consumed when it is noticed. -/
theorem passes_zero (atNumeral : reader.AtNumeral digits run behind) :
    reader.Passes ⟨.within (.integer 0) reader.here reader.here, reader.here, run ++ behind⟩ := by
  rcases atNumeral.exists_head with ⟨digit, next, others, rfl, isDigit⟩
  refine .single ?_
  simp only [turn, atNumeral.ahead, atNumeral.between, List.cons_append, isDigit, if_true]

/-- Digits are consumed as long as their value is not too large. -/
theorem passes_take (atNumeral : reader.AtNumeral digits run behind) (count : Nat)
    (fits : Nat.ofDigitChars 10 (digits.take count) 0 ≤ largestInteger) :
    reader.Passes ⟨.within (.integer (Nat.ofDigitChars 10 (digits.take count) 0)) reader.here
        (if run.take count = [] then reader.here
          else Item.past reader.here (run.take count).dropLast),
      Item.past reader.here (run.take count), run.drop count ++ behind⟩ := by
  have grows := Lexeme.grow?_integer (atNumeral.isDigit_take count) 0 fits
  have passes := passes_grow? grows (atNumeral.spelled_take count) reader.here reader.here
    reader.here (run.drop count ++ behind)
  rw [← List.append_assoc, List.take_append_drop] at passes
  exact atNumeral.passes_zero.trans passes

theorem passes_run (atNumeral : reader.AtNumeral digits run behind)
    (fits : Nat.ofDigitChars 10 digits 0 ≤ largestInteger) :
    reader.Passes ⟨.within (.integer (Nat.ofDigitChars 10 digits 0)) reader.here
        (Item.past reader.here run.dropLast), Item.past reader.here run, behind⟩ := by
  have nonempty : run ≠ [] := by
    rcases atNumeral.exists_head with ⟨digit, next, others, rfl, -⟩
    exact List.cons_ne_nil _ _
  have passes := atNumeral.passes_take digits.length (by rwa [List.take_length])
  rwa [List.take_length, ← atNumeral.length_run, List.take_length, List.drop_length,
    if_neg nonempty] at passes

theorem next_of_fits (atNumeral : reader.AtNumeral digits run behind)
    (fits : Nat.ofDigitChars 10 digits 0 ≤ largestInteger)
    (noFailure : ∀ error, behind.head? ≠ some (.failure error)) :
    reader.next =
      (some (.ok { value := .integer (Nat.ofDigitChars 10 digits 0)
                   location := reader.here.span (Item.past reader.here run.dropLast) }),
        ⟨.between, Item.past reader.here run, behind⟩) := by
  rw [(atNumeral.passes_run fits).next_eq, next_eq]
  cases behind with
  | nil => rfl
  | cons item rest =>
      cases item with
      | failure error => exact absurd rfl (noFailure error)
      | character value next =>
          have noDigit := atNumeral.ends value rfl
          have ended : ∀ accumulated, Lexeme.extend (.integer accumulated) value = .ended := by
            intro accumulated
            simp [Lexeme.extend, noDigit]
          simp only [turn, ended]
          rfl

theorem next_of_interrupted (atNumeral : reader.AtNumeral digits run behind)
    (fits : Nat.ofDigitChars 10 digits 0 ≤ largestInteger) (error : InputError)
    (failure : behind.head? = some (.failure error)) :
    reader.next =
      (some (Lexed.input { value := error, location := Item.past reader.here run }),
        ⟨.recovering, Item.past reader.here run, behind.tail⟩) := by
  rw [(atNumeral.passes_run fits).next_eq, next_eq]
  rcases List.head?_eq_some_iff.mp failure with ⟨rest, rfl⟩
  rfl

/-- Among the values of ever more digits, there is a first one that is too large. -/
theorem exists_first (exceeds : largestInteger < Nat.ofDigitChars 10 digits 0) :
    ∃ count < digits.length,
      (∀ fewer ≤ count, Nat.ofDigitChars 10 (digits.take fewer) 0 ≤ largestInteger) ∧
      largestInteger < Nat.ofDigitChars 10 (digits.take (count + 1)) 0 := by
  have reached : ∃ count, largestInteger < Nat.ofDigitChars 10 (digits.take count) 0 :=
    ⟨digits.length, by rwa [List.take_length]⟩
  have positive : 0 < Nat.find reached := by
    rw [Nat.find_pos]
    exact Nat.not_lt_zero _
  have bound : Nat.find reached ≤ digits.length := Nat.find_min' reached (by rwa [List.take_length])
  refine ⟨Nat.find reached - 1, by omega, ?_, ?_⟩
  · intro fewer le
    exact Nat.le_of_not_lt (Nat.find_min reached (by omega))
  · rw [Nat.sub_add_cancel positive]
    exact Nat.find_spec reached

theorem next_of_exceeds (atNumeral : reader.AtNumeral digits run behind) {count : Nat}
    (inside : count < digits.length)
    (fits : Nat.ofDigitChars 10 (digits.take count) 0 ≤ largestInteger)
    (exceeds : largestInteger < Nat.ofDigitChars 10 (digits.take (count + 1)) 0) :
    reader.next =
      (some (.error { value := .integerOverflow
                      location := Item.past reader.here (run.take count) }),
        ⟨.recovering, Item.past reader.here (run.take count), run.drop count ++ behind⟩) := by
  have isDigit := atNumeral.isDigit digits[count] (List.getElem_mem inside)
  have refused : Lexeme.extend (.integer (Nat.ofDigitChars 10 (digits.take count) 0))
      digits[count] = .refused .integerOverflow := by
    rw [List.take_add_one, List.getElem?_eq_getElem inside, Option.toList_some,
      Nat.ofDigitChars_append, Nat.ofDigitChars_cons] at exceeds
    rw [Lexeme.extend, if_pos isDigit]
    exact if_neg (Nat.not_le_of_lt exceeds)
  have spelled : (run.drop count).map Item.value? = (digits[count] :: digits.drop (count + 1)).map
      some := by
    rw [List.map_drop, atNumeral.spelled, ← List.map_drop, List.drop_eq_getElem_cons inside]
  rcases List.map_eq_cons_iff.mp spelled with ⟨item, others, split, same, -⟩
  rcases Item.exists_character same with ⟨next, rfl⟩
  rw [(atNumeral.passes_take count fits).next_eq, next_eq, split]
  simp only [turn, List.cons_append, refused]
  rfl

theorem remaining_of_exceeds (atNumeral : reader.AtNumeral digits run behind)
    (exceeds : largestInteger < Nat.ofDigitChars 10 digits 0) :
    reader.next.2.remaining =
      (Item.failures reader.here (Item.restOfLine reader.rest)).map Lexed.input ++
        lex (Item.past reader.here (Item.restOfLine reader.rest)) (Item.nextLines reader.rest) := by
  rcases exists_first exceeds with ⟨count, inside, fits, tooLarge⟩
  have noNewline : '\n' ∉ digits.take count := fun member =>
    atNumeral.newline_not_mem (List.mem_of_mem_take member)
  have skipped := LexerMode.run_recovering_append noNewline (atNumeral.spelled_take count)
    reader.here (run.drop count ++ behind)
  rw [← List.append_assoc, List.take_append_drop, ← atNumeral.ahead] at skipped
  rw [atNumeral.next_of_exceeds inside (fits count (Nat.le_refl count)) tooLarge,
    ← LexerMode.run_recovering, skipped]
  rfl

theorem passes_word (atNumeral : reader.AtNumeral digits run behind) {count : Nat} {word : Int32}
    (found : (digits.take count).foldlM Word.accumulate 0 = some word) :
    ∃ last, reader.Passes ⟨.within (.integer word.toInt.toNat) reader.here last,
      Item.past reader.here (run.take count), run.drop count ++ behind⟩ := by
  have value := (Word.foldlM_accumulate_eq_some_iff (atNumeral.isDigit_take count)).mp found
  have fits : Nat.ofDigitChars 10 (digits.take count) 0 ≤ largestInteger := by
    have greatest := word.toInt_le
    rw [Int32.toInt_maxValue] at greatest
    rw [largestInteger]
    omega
  have passes := atNumeral.passes_take count fits
  rw [value, Int.toNat_natCast]
  exact ⟨_, passes⟩

end AtNumeral

end LexerReader

/-! ## Lines of a source -/

/-- The characters of lines end with a newline. -/
theorem Line.newline_mem_of_suffix {lines : List String} {characters : List Char}
    (final : characters <:+ joined lines) (nonempty : characters ≠ []) : '\n' ∈ characters := by
  rcases List.eq_nil_or_concat lines with rfl | ⟨others, line, rfl⟩
  · exact absurd (List.suffix_nil.mp final) nonempty
  · have last : characters.getLast nonempty = '\n' := by
      rw [final.getLast nonempty]
      simp [joined]
    rw [← last]
    exact List.getLast_mem nonempty

namespace Item

theorem failures_of_not_mem {items : List Item} (unfailed : ∀ error, .failure error ∉ items)
    (here : Location) : failures here items = [] := by
  fun_induction failures here items with
  | case1 => rfl
  | case2 here error => exact absurd List.mem_cons_self (unfailed error)
  | case3 here value next rest induction =>
      apply induction
      intro error member
      exact unfailed error (List.mem_cons_of_mem _ member)

/-- If a newline is found before a read fails, no read fails on the line. -/
theorem failure_not_mem_restOfLine {characters : List Char} (newline : '\n' ∈ characters)
    {others : List (Option Char)} {items : List Item}
    (values : items.map value? = characters.map some ++ others) (error : InputError) :
    .failure error ∉ restOfLine items := by
  induction characters generalizing items with
  | nil => cases newline
  | cons character characters induction =>
      rcases List.map_eq_cons_iff.mp values with ⟨item, rest, rfl, same, later⟩
      rcases exists_character same with ⟨next, rfl⟩
      by_cases isNewline : character = '\n'
      · subst isNewline
        exact List.not_mem_nil
      · have behind := (List.mem_cons.mp newline).resolve_left (Ne.symm isNewline)
        have sameLine : value? (.character character next) ≠ some '\n' := by
          simpa [value?] using isNewline
        rw [restOfLine_cons sameLine]
        simpa using induction behind later

end Item

/-- In a source, a newline follows every character before a read can fail. -/
theorem Source.exists_newline {source : Source} {value : Char} {next : Location}
    {rest : List Item} (final : .character value next :: rest <:+ source.items) :
    ∃ (characters : List Char) (others : List (Option Char)), '\n' ∈ characters ∧
      (Item.character value next :: rest).map Item.value? = characters.map some ++ others := by
  rcases Line.characters_eq_append source.lines with ⟨failed, whole, failures⟩
  rcases final with ⟨before, split⟩
  have values := congrArg (List.map Item.value?) split
  rw [Source.items, Item.map_value?_locate, whole, List.map_append] at values
  have unfailed : some value ∉ failed := by
    intro member
    cases failures _ member
  rcases List.append_eq_append_iff.mp values with ⟨read, all, rests⟩ | ⟨read, _, rests⟩
  · rcases List.map_eq_append_iff.mp all with ⟨earlier, characters, joined, -, rfl⟩
    refine ⟨characters, failed, ?_, rests⟩
    apply Line.newline_mem_of_suffix ⟨earlier, joined.symm⟩
    intro nothing
    rw [nothing, List.map_nil, List.nil_append] at rests
    apply unfailed
    rw [← rests]
    exact List.mem_cons_self
  · apply absurd _ unfailed
    rw [rests]
    exact List.mem_append_right _ List.mem_cons_self

namespace LexerReader

variable {reader : LexerReader} {digits : List Char} {run behind : List Item}

theorem AtNumeral.uninterrupted (atNumeral : reader.AtNumeral digits run behind) {source : Source}
    (final : reader.rest <:+ source.items) :
    (∀ error, behind.head? ≠ some (.failure error)) ∧
      Item.failures reader.here (Item.restOfLine reader.rest) = [] := by
  have unfailed : ∀ error, .failure error ∉ Item.restOfLine reader.rest := by
    rcases atNumeral.exists_head with ⟨digit, next, others, rfl, -⟩
    rw [atNumeral.ahead] at final ⊢
    rcases Source.exists_newline final with ⟨characters, failed, newline, values⟩
    exact Item.failure_not_mem_restOfLine newline values
  have sameLine : ∀ item ∈ run, item.value? ≠ some '\n' := by
    intro item member newline
    have read : some '\n' ∈ digits.map some := by
      rw [← atNumeral.spelled, ← newline]
      exact List.mem_map_of_mem member
    exact atNumeral.newline_not_mem (by simpa using read)
  refine ⟨?_, Item.failures_of_not_mem unfailed reader.here⟩
  intro error failure
  rcases List.head?_eq_some_iff.mp failure with ⟨tail, rfl⟩
  apply unfailed error
  rw [atNumeral.ahead, Item.restOfLine, List.takeWhile_append_of_pos (by simpa using sameLine)]
  exact List.mem_append_right _ List.mem_cons_self

/-- A run of digits is taken as it should be, wherever the lexer meets it. -/
theorem takesNumeral_of_atNumeral (atNumeral : reader.AtNumeral digits run behind) :
    reader.TakesNumeral digits run behind where
  fits := atNumeral.next_of_fits
  interrupted := atNumeral.next_of_interrupted
  exceeds := by
    intro exceeds
    rcases AtNumeral.exists_first exceeds with ⟨count, inside, fits, tooLarge⟩
    have next := atNumeral.next_of_exceeds inside (fits count (Nat.le_refl count)) tooLarge
    exact ⟨count, inside, fits, tooLarge, next⟩
  skipped := atNumeral.remaining_of_exceeds
  uninterrupted _ := atNumeral.uninterrupted
  words count _ := Word.foldlM_accumulate_eq_some_iff (atNumeral.isDigit_take count)
  held _ _ := atNumeral.passes_word

/-- Zeros in front do not count. Here it is the last digit that makes the value too large. -/
theorem padded_integer_overflows :
    let source := Source.ofBytes "padded" (utf8 "x=0002147483648 @\n7")
    let reader : LexerReader := ⟨.between, .single "padded" ⟨1, 3⟩, source.items.drop 2⟩
    let run := (source.items.drop 2).take 13
    let behind := (source.items.drop 2).drop 13
    reader.AtNumeral "0002147483648".toList run behind ∧
      reader.TakesNumeral "0002147483648".toList run behind ∧
      reader.next.1 =
        some (.error { value := .integerOverflow, location := .single "padded" ⟨1, 15⟩ }) := by
  intro source reader run behind
  have atNumeral : reader.AtNumeral "0002147483648".toList run behind := by
    refine ⟨rfl, (List.take_append_drop 13 _).symm, by decide +kernel, ?_, ?_⟩
    · exact ⟨by decide +kernel, List.all_eq_true.mp rfl⟩
    · have blank : behind.head?.bind Item.value? = some ' ' := by decide +kernel
      intro next found
      cases blank.symm.trans found
      rfl
  have fits : Nat.ofDigitChars 10 ("0002147483648".toList.take 12) 0 ≤ largestInteger := by
    decide +kernel
  have place : Item.past reader.here (run.take 12) = .single "padded" ⟨1, 15⟩ := by
    decide +kernel
  have next := atNumeral.next_of_exceeds (by decide +kernel) fits (by decide +kernel)
  rw [place] at next
  exact ⟨atNumeral, takesNumeral_of_atNumeral atNumeral, congrArg Prod.fst next⟩

end LexerReader

end Firmware
