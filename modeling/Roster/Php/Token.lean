/-! Tokens of PHP source. A source is a row of glyphs, where bytes that are no character leave a gap; a token keeps
the layout and the comments in front of it, so that the text between two tokens can be told. -/

namespace Roster.Php

/-- A character, or a place where the bytes are none. -/
abbrev Glyph := Option Char

/-- What a token is. -/
inductive TokenKind where
  /-- a name or keyword, in lower case -/
  | word (lower : String)
  | symbol (text : String)
  | number
  /-- a string without code in it -/
  | string
  | templateStart
  | codeStart
  | codeStop
  | templateStop
  /-- a closing tag with the markup behind it, up to and with the next opening tag -/
  | markup
  /-- text that is no token -/
  | stray
deriving DecidableEq, Repr

structure Token where
  kind : TokenKind
  text : List Char
  /-- layout and comments in front -/
  lead : List Char
  row : Nat
deriving Repr

/-- White space between tokens. -/
def isLayout (c : Char) : Bool :=
  let n := c.toNat
  (9 ≤ n && n ≤ 13) || n == 32 || n == 0xA0 || n == 0x200B || n == 0x2060 || n == 0xFEFF

def isNameStart (c : Char) : Bool :=
  c.isAlpha || c == '_' || (0x80 ≤ c.toNat && !isLayout c)

def isNameChar (c : Char) : Bool :=
  isNameStart c || c.isDigit

def lowerCase (cs : List Char) : String :=
  String.ofList (cs.map Char.toLower)

/-- Words that name nothing by themselves. -/
def reservedWords : List String := [
  "abstract", "and", "array", "as", "break", "callable", "case", "catch", "class", "clone", "const",
  "continue", "declare", "default", "do", "echo", "else", "elseif", "empty", "enddeclare", "endfor",
  "endforeach", "endif", "endswitch", "endwhile", "exit", "extends", "final", "finally", "fn", "for",
  "foreach", "function", "global", "goto", "if", "implements", "include", "include_once",
  "instanceof", "insteadof", "interface", "isset", "list", "match", "namespace", "new", "or", "print",
  "private", "protected", "public", "require", "require_once", "return", "static", "switch", "throw",
  "trait", "try", "unset", "use", "var", "while", "xor", "yield"]

/-- Operators and punctuation, longer ones first. -/
def symbols : List String := [
  "===", "!==", "<=>", "**=", "...", "<<=", ">>=", "??=", "?->",
  "==", "!=", "<>", "<=", ">=", "<<", ">>", "&&", "||", "??", "++", "--", "+=", "-=", "*=", "/=",
  ".=", "%=", "&=", "|=", "^=", "->", "=>", "::", "**", "#[",
  "+", "-", "*", "/", "%", "=", "<", ">", "!", ".", ",", ";", ":", "?", "(", ")", "[", "]",
  "\x7b", "\x7d", "&", "|", "^", "~", "@", "$", "\\"]

end Roster.Php
