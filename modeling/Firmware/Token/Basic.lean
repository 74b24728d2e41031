import Firmware.Token.Keyword

/-! # Tokens -/

namespace Firmware

/-- An operator between two operands. The minus sign also stands before one. -/
inductive Operator where
  | equal
  | notEqual
  | less
  | lessOrEqual
  | greater
  | greaterOrEqual
  | plus
  | minus
  | times
  | divide
  deriving DecidableEq, Repr

/-- How tightly an operator binds: products before sums, sums before comparisons. -/
inductive Rank where
  | comparison
  | sum
  | product
  deriving DecidableEq, Repr

namespace Operator

/-- The characters of an operator, both in a source and in a rendered expression. -/
def symbol : Operator → String
  | .equal => "=="
  | .notEqual => "!="
  | .less => "<"
  | .lessOrEqual => "<="
  | .greater => ">"
  | .greaterOrEqual => ">="
  | .plus => "+"
  | .minus => "-"
  | .times => "*"
  | .divide => "/"

def rank : Operator → Rank
  | .plus | .minus => .sum
  | .times | .divide => .product
  | _ => .comparison

end Operator

/-- A token of the language. A text keeps its characters as the source writes them,
escapes included, without the quotes around it. -/
inductive Token where
  | identifier (name : String)
  | keyword (word : Keyword)
  | integer (value : Int)
  | text (content : String)
  | operator (kind : Operator)
  | assign
  | colon
  | semicolon
  | comma
  | openParen
  | closeParen
  deriving DecidableEq, Repr

/-- A token as messages name it. -/
def Token.describe : Token → String
  | .identifier name => "identifier `" ++ name ++ "`"
  | .keyword word => "keyword `" ++ word.spelling ++ "`"
  | .integer value => "literal `" ++ toString value ++ "`"
  | .text content => "literal `\"" ++ content ++ "\"`"
  | .operator kind => "`" ++ kind.symbol ++ "`"
  | .assign => "`=`"
  | .colon => "`:`"
  | .semicolon => "`;`"
  | .comma => "`,`"
  | .openParen => "`(`"
  | .closeParen => "`)`"

end Firmware
