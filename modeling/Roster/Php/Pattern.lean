import Roster.Php.Token
import Roster.Syntax.Tree

/-! Patterns over tokens. A pattern reads tokens from the front, tries its alternatives in order, and yields the
syntax trees of what it was told to keep. Markup between code may stand before any token, and ends a statement
where a semicolon is due. -/

namespace Roster.Php

open Roster.Syntax

/-- A pattern; `R` names the rules that patterns may refer to. -/
inductive Pattern (R : Type) where
  | empty
  | word (lower : String)
  /-- any word, reserved or not -/
  | anyWord
  /-- a word that is not reserved -/
  | name
  | symbol (text : String)
  | token (kind : TokenKind)
  | semicolon
  | rule (r : R)
  | seq (first second : Pattern R)
  /-- the first alternative that fits -/
  | alt (first second : Pattern R)
  /-- as many items as there are; an item reads at least one token -/
  | many (item : Pattern R)
  /-- looks at what follows without reading it -/
  | ahead (p : Pattern R)
  | notAhead (p : Pattern R)
  /-- keeps what was read as one node -/
  | node (kind : Kind) (p : Pattern R)
  /-- keeps the text that was read as a leaf -/
  | leaf (role : Option String) (p : Pattern R)

namespace Pattern

variable {R : Type}

def seqs : List (Pattern R) → Pattern R
  | [] => empty
  | [p] => p
  | p :: rest => seq p (seqs rest)

def alts : List (Pattern R) → Pattern R
  | [] => notAhead empty
  | [p] => p
  | p :: rest => alt p (alts rest)

def opt (p : Pattern R) : Pattern R :=
  alt p empty

def many1 (p : Pattern R) : Pattern R :=
  seq p (many p)

/-- Items with a separator between them. -/
def sepBy (p sep : Pattern R) : Pattern R :=
  seq p (many (seq sep p))

/-- Items with commas between them, and one behind the last if need be. -/
def commas (p : Pattern R) : Pattern R :=
  seq (sepBy p (symbol ",")) (opt (symbol ","))

def within (opening closing : String) (p : Pattern R) : Pattern R :=
  seq (symbol opening) (seq p (symbol closing))

/-- The next token that is code. -/
def nextCode : List Token → Option (Token × List Token)
  | [] => none
  | t :: ts => if t.kind = .markup then nextCode ts else some (t, ts)

/-- Reads one code token that passes the test. -/
def take (test : TokenKind → Bool) (ts : List Token) : Option (List Tree × List Token) :=
  match nextCode ts with
  | some (t, rest) => if test t.kind then some ([], rest) else none
  | none => none

/-- The text from the first code token up to a later place. -/
def textBetween (ts rest : List Token) : String :=
  match (ts.take (ts.length - rest.length)).dropWhile (·.kind = .markup) with
  | [] => ""
  | t :: more => String.ofList (t.text ++ more.flatMap fun t => t.lead ++ t.text)

/-- Reads a pattern from the front of the tokens. `fuel` bounds the nesting of patterns. -/
def read (grammar : R → Pattern R) : Nat → Pattern R → List Token → Option (List Tree × List Token)
  | 0, _, _ => none
  | fuel + 1, p, ts =>
      match p with
      | empty => some ([], ts)
      | word lower => take (· = .word lower) ts
      | anyWord => take (fun kind => match kind with | .word _ => true | _ => false) ts
      | name => take (fun kind => match kind with
          | .word lower => !reservedWords.contains lower
          | _ => false) ts
      | symbol text => take (· = .symbol text) ts
      | token kind => take (· = kind) ts
      | semicolon =>
          match ts with
          | t :: rest => if t.kind = .markup || t.kind = .symbol ";" then some ([], rest) else none
          | [] => none
      | rule r => read grammar fuel (grammar r) ts
      | seq first second =>
          match read grammar fuel first ts with
          | some (kept, rest) =>
              (read grammar fuel second rest).map fun (more, last) => (kept ++ more, last)
          | none => none
      | alt first second =>
          match read grammar fuel first ts with
          | some found => some found
          | none => read grammar fuel second ts
      | many item =>
          match read grammar fuel item ts with
          | some (kept, rest) =>
              (read grammar fuel (many item) rest).map fun (more, last) => (kept ++ more, last)
          | none => some ([], ts)
      | ahead p => (read grammar fuel p ts).map fun _ => ([], ts)
      | notAhead p =>
          match read grammar fuel p ts with
          | some _ => none
          | none => some ([], ts)
      | node kind p =>
          (read grammar fuel p ts).map fun (kept, rest) => ([.node { kind } kept], rest)
      | leaf role p =>
          (read grammar fuel p ts).map fun (_, rest) =>
            ([.node { role, text := textBetween ts rest } []], rest)

end Pattern

end Roster.Php
