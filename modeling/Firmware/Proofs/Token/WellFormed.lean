import Firmware.Token.Lexer

/-! # Well-formed tokens

The tokens that a source can hold. A name is a word and no keyword, an integer is at
most the largest one, and a backslash in a text has a character behind it. The lexer
delivers no others. -/

namespace Firmware

def IsWord : List Char → Prop
  | [] => False
  | first :: rest => isWordStart first = true ∧ ∀ character ∈ rest, isWordPart character = true

instance : DecidablePred IsWord
  | [] => .isFalse id
  | first :: rest =>
      decidable_of_iff ((isWordStart first && rest.all isWordPart) = true) (by simp [IsWord])

/-- Characters that can stand between quotes: plain ones, and pairs of a backslash and
another character, on a single line. -/
inductive IsContent : List Char → Prop
  | nil : IsContent []
  | plain {character rest} :
      character ≠ '"' → character ≠ '\\' → character ≠ '\n' →
      IsContent rest → IsContent (character :: rest)
  | escaped {character rest} :
      character ≠ '\n' → IsContent rest → IsContent ('\\' :: character :: rest)

def Token.WellFormed : Token → Prop
  | .identifier name => IsWord name.toList ∧
      ∀ keyword : Keyword, sameIgnoringCase keyword.spelling name = false
  | .integer value => 0 ≤ value ∧ value ≤ largestInteger
  | .text content => IsContent content.toList
  | _ => True

theorem Keyword.ofWord?_eq_none_iff (word : String) :
    ofWord? word = none ↔ ∀ keyword : Keyword, sameIgnoringCase keyword.spelling word = false := by
  simp [ofWord?, mem_all]

theorem IsWord.append {characters : List Char} {character : Char} (word : IsWord characters)
    (part : isWordPart character = true) : IsWord (characters ++ [character]) := by
  match characters, word with
  | first :: rest, ⟨starts, parts⟩ =>
      refine ⟨starts, ?_⟩
      intro other member
      rcases List.mem_append.mp member with before | last
      · exact parts other before
      · rw [List.mem_singleton.mp last]
        exact part

theorem IsContent.append {first second : List Char} (before : IsContent first)
    (behind : IsContent second) : IsContent (first ++ second) := by
  induction before with
  | nil => exact behind
  | plain noQuote noBackslash noNewline _ induction =>
      exact .plain noQuote noBackslash noNewline induction
  | escaped noNewline _ induction => exact .escaped noNewline induction

theorem IsContent.newline_not_mem {characters : List Char} (content : IsContent characters) :
    '\n' ∉ characters := by
  induction content with
  | nil => exact List.not_mem_nil
  | plain _ _ noNewline _ induction =>
      simpa using ⟨noNewline.symm, induction⟩
  | escaped noNewline _ induction =>
      simpa using ⟨noNewline.symm, induction⟩

/-! ## What the lexer delivers -/

namespace Lexeme

/-- A lexeme that can become a well-formed token. -/
def WellFormed : Lexeme → Prop
  | .complete token => token.WellFormed
  | .slash | .sign _ => True
  | .integer value => value ≤ largestInteger
  | .word letters => IsWord letters.toList
  | .text content => IsContent content.toList
  | .escape content => ∃ before, IsContent before ∧ content.toList = before ++ ['\\']

theorem wellFormed_of_start {character : Char} {lexeme : Lexeme}
    (started : start character = some lexeme) : lexeme.WellFormed := by
  unfold start at started
  split at started
  case h_10 =>
      cases started
      exact .nil
  case h_15 =>
      split at started
      · next starts =>
          cases started
          simpa [WellFormed, IsWord] using starts
      · split at started
        · next digit =>
            cases started
            have bound : character.toNat ≤ 57 := (Char.isDigit_iff_toNat.mp digit).2
            simp only [WellFormed, digitValue, largestInteger]
            omega
        · cases started
  all_goals
    cases started
    trivial

theorem WellFormed.extend {lexeme extended : Lexeme} (wellFormed : lexeme.WellFormed)
    {character : Char} (grown : lexeme.extend character = .grown extended) :
    extended.WellFormed := by
  cases lexeme with
  | complete => cases grown
  | slash =>
      simp only [Lexeme.extend] at grown
      split at grown <;> cases grown
  | sign kind =>
      simp only [Lexeme.extend] at grown
      split at grown <;> cases grown
      cases kind <;> trivial
  | integer value =>
      simp only [Lexeme.extend] at grown
      split at grown
      · split at grown <;> cases grown
        assumption
      · cases grown
  | word letters =>
      simp only [Lexeme.extend] at grown
      split at grown <;> cases grown
      next part => simpa [WellFormed] using IsWord.append wellFormed part
  | text content =>
      simp only [Lexeme.extend] at grown
      split at grown
      · cases grown
      · next noNewline =>
          split at grown
          · cases grown
            exact wellFormed
          · next noQuote =>
              split at grown
              · next backslash =>
                  cases grown
                  exact ⟨content.toList, wellFormed, by simp [backslash]⟩
              · next noBackslash =>
                  cases grown
                  have single := IsContent.plain noQuote noBackslash noNewline .nil
                  simpa [WellFormed] using IsContent.append wellFormed single
  | escape content =>
      rcases wellFormed with ⟨before, closed, ending⟩
      simp only [Lexeme.extend] at grown
      split at grown <;> cases grown
      next noNewline => simpa [WellFormed, ending] using closed.append (.escaped noNewline .nil)

theorem WellFormed.settle {lexeme : Lexeme} (wellFormed : lexeme.WellFormed) {token : Token}
    (settled : lexeme.settle = .ok token) : token.WellFormed := by
  cases lexeme with
  | complete =>
      cases settled
      exact wellFormed
  | slash =>
      cases settled
      trivial
  | sign kind =>
      cases kind <;> cases settled <;> trivial
  | integer value =>
      cases settled
      exact ⟨Int.natCast_nonneg value, Int.ofNat_le.mpr wellFormed⟩
  | word letters =>
      simp only [Lexeme.settle] at settled
      cases known : Keyword.ofWord? letters with
      | some keyword =>
          rw [known] at settled
          cases settled
          trivial
      | none =>
          rw [known] at settled
          cases settled
          exact ⟨wellFormed, (Keyword.ofWord?_eq_none_iff letters).mp known⟩
  | text | escape => cases settled

end Lexeme

namespace LexerMode

def WellFormed : LexerMode → Prop
  | .within lexeme _ _ => lexeme.WellFormed
  | _ => True

theorem wellFormed_recover (character : Char) : (recover character).WellFormed := by
  unfold recover
  split <;> trivial

theorem wellFormed_enter (here : Location) (character : Char) :
    (∀ token, .ok token ∉ (enter here character).1) ∧ (enter here character).2.WellFormed := by
  unfold enter
  split
  · next lexeme started =>
      exact ⟨by simp, Lexeme.wellFormed_of_start started⟩
  · split
    · exact ⟨by simp, trivial⟩
    · exact ⟨by simp, wellFormed_recover character⟩

theorem WellFormed.step {mode : LexerMode} (wellFormed : mode.WellFormed) (here : Location)
    (character : Char) :
    (∀ token, .ok token ∈ (mode.step here character).1 → token.value.WellFormed) ∧
      (mode.step here character).2.WellFormed := by
  rcases wellFormed_enter here character with ⟨noToken, entered⟩
  cases mode with
  | between =>
      exact ⟨fun token member => absurd member (noToken token), entered⟩
  | comment =>
      simp only [LexerMode.step]
      split <;> exact ⟨by simp, trivial⟩
  | recovering => exact ⟨by simp [LexerMode.step], wellFormed_recover character⟩
  | within lexeme first last =>
      simp only [LexerMode.step]
      split
      · next grown =>
          exact ⟨by simp, Lexeme.WellFormed.extend wellFormed grown⟩
      · exact ⟨by simp, trivial⟩
      · exact ⟨by simp, wellFormed_recover character⟩
      · split
        · next token settled =>
            refine ⟨?_, entered⟩
            intro delivered member
            rcases List.mem_cons.mp member with here | later
            · cases here
              exact Lexeme.WellFormed.settle wellFormed settled
            · exact absurd later (noToken delivered)
        · exact ⟨by simp, wellFormed_recover character⟩

theorem WellFormed.finish {mode : LexerMode} (wellFormed : mode.WellFormed) (here : Location)
    (token : Located Token) (member : .ok token ∈ mode.finish here) :
    token.value.WellFormed := by
  cases mode with
  | within lexeme first last =>
      simp only [LexerMode.finish] at member
      split at member
      · next settled =>
          cases List.mem_singleton.mp member
          exact Lexeme.WellFormed.settle wellFormed settled
      · cases List.mem_singleton.mp member
  | _ => cases member

theorem WellFormed.run {mode : LexerMode} (wellFormed : mode.WellFormed) (here : Location)
    (items : List Item) (token : Located Token) (member : .ok token ∈ mode.run here items) :
    token.value.WellFormed := by
  induction items generalizing mode here with
  | nil => exact wellFormed.finish here token member
  | cons item rest induction =>
      cases item with
      | failure =>
          rcases List.mem_cons.mp member with failed | later
          · cases failed
          · exact @induction .recovering trivial here later
      | character value next =>
          rcases wellFormed.step here value with ⟨delivered, stepped⟩
          rcases List.mem_append.mp member with now | later
          · exact delivered token now
          · exact induction stepped next later

end LexerMode

/-- Every token of a source is well formed. -/
theorem Source.tokens_wellFormed {source : Source} {tokens : List (Located Token)}
    (lexed : source.tokens = .ok tokens) : ∀ token ∈ tokens, token.value.WellFormed := by
  intro token member
  unfold Source.tokens Lexed.collect at lexed
  split at lexed
  · cases lexed
    rcases List.mem_filterMap.mp member with ⟨outcome, delivered, ok⟩
    cases outcome with
    | ok located =>
        cases ok
        exact @LexerMode.WellFormed.run .between trivial _ _ token delivered
    | error => cases ok
  · cases lexed

/-- The tokens stand one behind the other in a source. -/
def Source.Holds (source : Source) (tokens : List Token) : Prop :=
  ∃ located, source.tokens = .ok located ∧ tokens <:+: located.map Located.value

theorem Source.Holds.wellFormed {source : Source} {tokens : List Token}
    (held : source.Holds tokens) : ∀ token ∈ tokens, token.WellFormed := by
  rcases held with ⟨located, lexed, inside⟩
  intro token member
  rcases List.mem_map.mp (inside.subset member) with ⟨delivered, listed, rfl⟩
  exact Source.tokens_wellFormed lexed delivered listed

end Firmware
