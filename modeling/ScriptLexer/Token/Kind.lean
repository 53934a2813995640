/-!
# Kinds of tokens

Every punctuation mark and keyword has one spelling; the remaining kinds are open classes and the
end of the text. All kinds stand in one order, by which they are compared.

* `Punctuation.text`, `Keyword.text`: the spellings.
* `Keyword.ofText?`: the keyword that a word spells.
* `Kind.all`, `Kind.ordinal`: the order.
-/

namespace ScriptLexer

/-- The brackets, separators and operators. -/
inductive Punctuation
  | leftParen | rightParen | leftBrace | rightBrace | comma | dot | minus | plus | semicolon
  | slash | star | bang | bangEqual | equal | equalEqual | greater | greaterEqual | less
  | lessEqual
  deriving DecidableEq

/-- The reserved words. -/
inductive Keyword
  | and | «class» | «else» | false | «fun» | «for» | «if» | nil | or | print | «return» | super
  | this | true | var | «while»
  deriving DecidableEq

/-- What sort of token a lexeme is. -/
inductive Kind
  | punctuation (mark : Punctuation)
  | identifier
  | string
  | number
  | keyword (word : Keyword)
  | eof
  deriving DecidableEq

/-- All marks, in their order. -/
def Punctuation.all : List Punctuation :=
  [.leftParen, .rightParen, .leftBrace, .rightBrace, .comma, .dot, .minus, .plus, .semicolon,
    .slash, .star, .bang, .bangEqual, .equal, .equalEqual, .greater, .greaterEqual, .less,
    .lessEqual]

/-- The characters of a mark. -/
def Punctuation.text : Punctuation → String
  | .leftParen => "("
  | .rightParen => ")"
  | .leftBrace => "\x7b"
  | .rightBrace => "\x7d"
  | .comma => ","
  | .dot => "."
  | .minus => "-"
  | .plus => "+"
  | .semicolon => ";"
  | .slash => "/"
  | .star => "*"
  | .bang => "!"
  | .bangEqual => "!="
  | .equal => "="
  | .equalEqual => "=="
  | .greater => ">"
  | .greaterEqual => ">="
  | .less => "<"
  | .lessEqual => "<="

/-- The name by which a mark is listed. -/
def Punctuation.name : Punctuation → String
  | .leftParen => "LEFT_PAREN"
  | .rightParen => "RIGHT_PAREN"
  | .leftBrace => "LEFT_BRACE"
  | .rightBrace => "RIGHT_BRACE"
  | .comma => "COMMA"
  | .dot => "DOT"
  | .minus => "MINUS"
  | .plus => "PLUS"
  | .semicolon => "SEMICOLON"
  | .slash => "SLASH"
  | .star => "STAR"
  | .bang => "BANG"
  | .bangEqual => "BANG_EQUAL"
  | .equal => "EQUAL"
  | .equalEqual => "EQUAL_EQUAL"
  | .greater => "GREATER"
  | .greaterEqual => "GREATER_EQUAL"
  | .less => "LESS"
  | .lessEqual => "LESS_EQUAL"

/-- All keywords, in their order. -/
def Keyword.all : List Keyword :=
  [.and, .class, .else, .false, .fun, .for, .if, .nil, .or, .print, .return, .super, .this, .true,
    .var, .while]

/-- The spelling of a keyword. -/
def Keyword.text : Keyword → String
  | .and => "and"
  | .class => "class"
  | .else => "else"
  | .false => "false"
  | .fun => "fun"
  | .for => "for"
  | .if => "if"
  | .nil => "nil"
  | .or => "or"
  | .print => "print"
  | .return => "return"
  | .super => "super"
  | .this => "this"
  | .true => "true"
  | .var => "var"
  | .while => "while"

/-- The name by which a keyword is listed. -/
def Keyword.name : Keyword → String
  | .and => "AND"
  | .class => "CLASS"
  | .else => "ELSE"
  | .false => "FALSE"
  | .fun => "FUN"
  | .for => "FOR"
  | .if => "IF"
  | .nil => "NIL"
  | .or => "OR"
  | .print => "PRINT"
  | .return => "RETURN"
  | .super => "SUPER"
  | .this => "THIS"
  | .true => "TRUE"
  | .var => "VAR"
  | .while => "WHILE"

/-- The keyword that a word spells, if it is reserved. -/
def Keyword.ofText? (word : String) : Option Keyword :=
  all.find? (·.text == word)

namespace Kind

/-- All kinds, in their order: marks, open classes, keywords, end of text. -/
def all : List Kind :=
  Punctuation.all.map punctuation ++ [identifier, string, number] ++ Keyword.all.map keyword ++
    [eof]

/-- The place of a kind in the order, counted from zero. -/
def ordinal (k : Kind) : Nat :=
  all.idxOf k

instance : Ord Kind where
  compare a b := compare a.ordinal b.ordinal

instance : Max Kind where
  max a b := if a.ordinal ≤ b.ordinal then b else a

/-- The name by which a kind is listed. -/
def name : Kind → String
  | punctuation mark => mark.name
  | identifier => "IDENTIFIER"
  | string => "STRING"
  | number => "NUMBER"
  | keyword word => word.name
  | eof => "EOF"

/-- The kind of a name. -/
def ofName? (s : String) : Option Kind :=
  all.find? (·.name == s)

/-- Whether tokens of this kind carry a value. -/
def isLiteral : Kind → Bool
  | string | number => true
  | _ => false

def isKeyword : Kind → Bool
  | keyword _ => true
  | _ => false

def isPunctuation : Kind → Bool
  | punctuation _ => true
  | _ => false

/-- The spelling of a keyword kind. -/
def keywordText? : Kind → Option String
  | keyword word => some word.text
  | _ => none

/-- The spelling of a punctuation kind. -/
def punctuationText? : Kind → Option String
  | punctuation mark => some mark.text
  | _ => none

/-- The keyword kind that a word spells, if it is reserved. -/
def ofKeyword? (word : String) : Option Kind :=
  (Keyword.ofText? word).map keyword

/-- The kind of a word: its keyword, or else an identifier. -/
def ofWord (word : String) : Kind :=
  (ofKeyword? word).getD identifier

end Kind

end ScriptLexer
