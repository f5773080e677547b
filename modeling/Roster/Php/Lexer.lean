import Roster.Php.Token

/-! Cutting PHP source into tokens. Everything that is read from the front is told by its size, the number of glyphs
that it takes; functions that may read far add to a size so far. Strings with embedded code, and here documents,
are cut at their code, so a stack of modes remembers what encloses the current place. -/

namespace Roster.Php

/-- How a template ends. -/
inductive Ending where
  | quote (c : Char)
  | heredoc (label : List Char)
deriving Repr

/-- What encloses a place in the source. -/
inductive Mode where
  /-- template text, at its very start or behind code -/
  | template (ending : Ending) (fresh : Bool)
  /-- code inside a template, with so many braces open -/
  | code (depth : Nat)
deriving Repr

/-- How many glyphs at the front pass the test. -/
def spanSize (p : Char → Bool) (gs : List Glyph) : Nat :=
  (gs.takeWhile (·.any p)).length

/-- Whether the glyphs start with a text. -/
def isText : List Char → List Glyph → Bool
  | [], _ => true
  | c :: cs, some g :: gs => g = c && isText cs gs
  | _ :: _, _ => false

def startsWith (p : Char → Bool) : List Glyph → Bool
  | some c :: _ => p c
  | _ => false

/-- Where the layout in front of a token is being read. -/
inductive LeadPlace where
  | layout
  | lineComment
  | blockComment

/-- The size of layout and comments; none when a comment is not closed. -/
def leadSize (n : Nat) : LeadPlace → List Glyph → Option Nat
  | .layout, some '/' :: some '*' :: gs => leadSize (n + 2) .blockComment gs
  | .layout, some '/' :: some '/' :: gs => leadSize (n + 2) .lineComment gs
  | .layout, some '#' :: some '[' :: _ => some n
  | .layout, some '#' :: gs => leadSize (n + 1) .lineComment gs
  | .layout, some c :: gs => if isLayout c then leadSize (n + 1) .layout gs else some n
  | .layout, _ => some n
  | .lineComment, some '?' :: some '>' :: _ => some n
  | .lineComment, some '\n' :: gs => leadSize (n + 1) .layout gs
  | .lineComment, some '\r' :: gs => leadSize (n + 1) .layout gs
  | .lineComment, _ :: gs => leadSize (n + 1) .lineComment gs
  | .lineComment, [] => some n
  | .blockComment, some '*' :: some '/' :: gs => leadSize (n + 2) .layout gs
  | .blockComment, _ :: gs => leadSize (n + 1) .blockComment gs
  | .blockComment, [] => none

/-- The size of a string in single quotes behind the first of them. -/
def singleQuotedSize (n : Nat) : List Glyph → Option Nat
  | some '\'' :: _ => some (n + 1)
  | some '\\' :: _ :: gs => singleQuotedSize (n + 2) gs
  | _ :: gs => singleQuotedSize (n + 1) gs
  | [] => none

/-- The size of markup with the opening tag that ends it; all that is left when nothing opens again. -/
def markupSize (n : Nat) : List Glyph → Nat
  | some '<' :: some '?' :: some '=' :: _ => n + 3
  | some '<' :: some '?' :: some p :: some h :: some q :: _ =>
      if lowerCase [p, h, q] = "php" then n + 5 else n + 2
  | some '<' :: some '?' :: _ => n + 2
  | _ :: gs => markupSize (n + 1) gs
  | [] => n

/-- The size of what closes a here document on a line: blanks, the label, and no further name. -/
def closingSize? (label : List Char) (gs : List Glyph) : Option Nat :=
  let blanks := spanSize (fun c => c = ' ' || c = '\t') gs
  if isText label (gs.drop blanks) && !startsWith isNameChar (gs.drop (blanks + label.length)) then
    some (blanks + label.length)
  else none

/-- The size of a raw here document, read at the start of a line or inside one. -/
def rawSize (label : List Char) (n : Nat) : Bool → List Glyph → Option Nat
  | true, gs@(_ :: rest) =>
      match closingSize? label gs with
      | some size => some (n + size)
      | none => rawSize label (n + 1) (gs.head? = some (some '\n')) rest
  | false, some '\n' :: gs => rawSize label (n + 1) true gs
  | false, _ :: gs => rawSize label (n + 1) false gs
  | _, [] => none

/-- Whether a subscript inside a template holds one number, name or variable. -/
def isSimpleSubscript (gs : List Glyph) : Bool :=
  let inside := ((gs.takeWhile (· != some ']')).filterMap id).filter (!isLayout ·)
  let named (cs : List Char) : Bool := cs.head?.any isNameStart && cs.all isNameChar
  gs.contains (some ']') && match inside with
    | '$' :: cs => named cs
    | '-' :: cs => !cs.isEmpty && cs.all Char.isDigit
    | cs => named cs || (cs.head?.any Char.isDigit && cs.all isNameChar)

/-- Where the text of a template is being read. -/
inductive TemplatePlace where
  | lineStart
  | inside
  | variable

/-- What ends a stretch of template text, and the size up to there. -/
inductive TemplateStop where
  | closed (size : Nat)
  | code (size : Nat)
  | broken

def endingSize? (ending : Ending) (place : TemplatePlace) (gs : List Glyph) : Option Nat :=
  match ending, place, gs with
  | .quote q, _, some c :: _ => if c = q then some 1 else none
  | .heredoc label, .lineStart, gs => closingSize? label gs
  | _, _, _ => none

/-- Reads template text up to its end or to embedded code. -/
def readTemplate (ending : Ending) (place : TemplatePlace) (n : Nat) : List Glyph → TemplateStop
  | [] => .broken
  | g :: gs =>
      match endingSize? ending place (g :: gs), g, place with
      | some size, _, _ => .closed (n + size)
      | none, some '\\', _ =>
          match gs with
          | some '\n' :: rest => readTemplate ending .lineStart (n + 2) rest
          | _ :: rest => readTemplate ending .inside (n + 2) rest
          | [] => .broken
      | none, some '\n', _ => readTemplate ending .lineStart (n + 1) gs
      | none, some '\x7b', _ =>
          if startsWith (· = '$') gs then .code (n + 1) else readTemplate ending .inside (n + 1) gs
      | none, some '$', _ =>
          match gs with
          | some '\x7b' :: _ => .code (n + 2)
          | some c :: rest =>
              if isNameStart c then readTemplate ending .variable (n + 2) rest
              else readTemplate ending .inside (n + 1) (some c :: rest)
          | rest => readTemplate ending .inside (n + 1) rest
      | none, some c, .variable =>
          if c = '[' && !isSimpleSubscript gs then .broken
          else readTemplate ending (if isNameChar c then .variable else .inside) (n + 1) gs
      | none, _, _ => readTemplate ending .inside (n + 1) gs

/-- The opening of a here document behind its arrows. -/
structure HeredocStart where
  label : List Char
  raw : Bool
  /-- up to the end of its line -/
  size : Nat

def heredocStart? (gs : List Glyph) : Option HeredocStart :=
  let blanks := spanSize (fun c => c = ' ' || c = '\t') gs
  let quote? := match gs.drop blanks with
    | some '\'' :: _ => some '\''
    | some '"' :: _ => some '"'
    | _ => none
  let start := blanks + if quote?.isSome then 1 else 0
  let named := gs.drop start
  let size := if startsWith isNameStart named then spanSize isNameChar named else 0
  let label := (named.take size).filterMap id
  let stop := start + size + if quote?.isSome then 1 else 0
  let closed := quote?.all fun quote => startsWith (· = quote) (named.drop size)
  if size = 0 || !closed then none
  else
    match gs.drop stop with
    | some '\n' :: _ => some ⟨label, quote? = some '\'', stop + 1⟩
    | some '\r' :: some '\n' :: _ => some ⟨label, quote? = some '\'', stop + 2⟩
    | _ => none

/-- The size of digits, underscores among them. -/
def digitsSize (gs : List Glyph) : Nat :=
  spanSize (fun c => c.isDigit || c = '_') gs

def exponentSize (gs : List Glyph) : Nat :=
  match gs with
  | some 'e' :: some '+' :: some d :: rest | some 'e' :: some '-' :: some d :: rest
  | some 'E' :: some '+' :: some d :: rest | some 'E' :: some '-' :: some d :: rest =>
      if d.isDigit then 3 + digitsSize rest else 0
  | some 'e' :: some d :: rest | some 'E' :: some d :: rest =>
      if d.isDigit then 2 + digitsSize rest else 0
  | _ => 0

/-- The size of what may follow the whole part of a number. A point belongs to it before a digit, or before what can
only follow a whole number. -/
def fractionSize (gs : List Glyph) : Nat :=
  match gs with
  | some '.' :: some c :: rest =>
      if c.isDigit then
        let digits := digitsSize (some c :: rest)
        1 + digits + exponentSize ((some c :: rest).drop digits)
      else if c = ';' || c = ')' || c = ']' || c = ',' then 1
      else 0
  | _ => exponentSize gs

/-- The size of a number that starts with a digit. -/
def numberSize (gs : List Glyph) : Nat :=
  let whole := digitsSize gs
  let decimal := whole + fractionSize (gs.drop whole)
  match gs with
  | some '0' :: some m :: rest =>
      if (m.toLower = 'x' || m.toLower = 'b' || m.toLower = 'o')
          && startsWith (·.isAlphanum) rest then
        2 + spanSize (fun c => c.isDigit || c = '_' || ('a' ≤ c.toLower && c.toLower ≤ 'f')) rest
      else decimal
  | _ => decimal

/-- A token in code, its size, and the modes behind it. -/
structure Cut where
  kind : TokenKind
  size : Nat
  modes : List Mode

def symbol? (gs : List Glyph) : Option String :=
  symbols.find? fun s => isText s.toList gs

/-- Keeps count of the braces of embedded code; the one that closes it leaves the mode. -/
def cutSymbol (modes : List Mode) (s : String) : Cut :=
  let size := s.length
  match s, modes with
  | "\x7b", .code depth :: outer => ⟨.symbol s, size, .code (depth + 1) :: outer⟩
  | "\x7d", .code 0 :: outer => ⟨.codeStop, size, outer⟩
  | "\x7d", .code (depth + 1) :: outer => ⟨.symbol s, size, .code depth :: outer⟩
  | _, _ => ⟨.symbol s, size, modes⟩

/-- Takes all that is left as no token. -/
def cutStray (modes : List Mode) (gs : List Glyph) : Cut :=
  ⟨.stray, gs.length, modes⟩

/-- A string of the given size, `lead` glyphs in front of it included; without a size it is not closed. -/
def cutString (modes : List Mode) (gs : List Glyph) (lead : Nat) (size : Option Nat) : Cut :=
  match size with
  | some size => ⟨.string, lead + size, modes⟩
  | none => cutStray modes gs

def cutHeredoc (modes : List Mode) (gs : List Glyph) : Cut :=
  match heredocStart? (gs.drop 3) with
  | some start =>
      let size := 3 + start.size
      if start.raw then cutString modes gs size (rawSize start.label 0 true (gs.drop size))
      else ⟨.templateStart, size, .template (.heredoc start.label) true :: modes⟩
  | none => cutStray modes gs

/-- Cuts a number, a name or an operator. -/
def cutPlain (modes : List Mode) (gs : List Glyph) : Cut :=
  if startsWith Char.isDigit gs then ⟨.number, numberSize gs, modes⟩
  else if startsWith isNameStart gs then
    let size := spanSize isNameChar gs
    ⟨.word (lowerCase ((gs.take size).filterMap id)), size, modes⟩
  else
    match symbol? gs with
    | some s => cutSymbol modes s
    | none => cutStray modes gs

/-- Cuts the token at the front of code that starts with no layout. -/
def cutCode (markupAllowed : Bool) (modes : List Mode) (gs : List Glyph) : Cut :=
  match gs with
  | some '?' :: some '>' :: rest =>
      if markupAllowed then ⟨.markup, markupSize 2 rest, modes⟩ else cutStray modes gs
  | some '\'' :: rest => cutString modes gs 1 (singleQuotedSize 0 rest)
  | some 'b' :: some '\'' :: rest | some 'B' :: some '\'' :: rest =>
      cutString modes gs 2 (singleQuotedSize 0 rest)
  | some '"' :: _ => ⟨.templateStart, 1, .template (.quote '"') true :: modes⟩
  | some 'b' :: some '"' :: _ | some 'B' :: some '"' :: _ =>
      ⟨.templateStart, 2, .template (.quote '"') true :: modes⟩
  | some '\x60' :: _ => ⟨.templateStart, 1, .template (.quote '\x60') true :: modes⟩
  | some '<' :: some '<' :: some '<' :: _ => cutHeredoc modes gs
  | some '.' :: some d :: rest =>
      if d.isDigit then
        let digits := digitsSize rest
        ⟨.number, 2 + digits + exponentSize (rest.drop digits), modes⟩
      else cutPlain modes gs
  | _ => cutPlain modes gs

/-- The characters among the first glyphs. -/
def front (size : Nat) (gs : List Glyph) : List Char :=
  (gs.take size).filterMap id

def rowsIn (cs : List Char) : Nat :=
  cs.count '\n'

/-- Cuts source into tokens, beginning in code unless a mode says otherwise. Each step takes a glyph or leaves a
mode, so twice the length of the source is `fuel` enough. -/
def cutAll (markupAllowed : Bool) : Nat → List Mode → Nat → List Glyph → List Token
  | 0, _, _, _ => []
  | fuel + 1, .template ending fresh :: outer, row, gs =>
      let place := if fresh then TemplatePlace.lineStart else .inside
      let next (kind : TokenKind) (modes : List Mode) (size : Nat) : List Token :=
        let text := front size gs
        ⟨kind, text, [], row⟩ :: cutAll markupAllowed fuel modes (row + rowsIn text) (gs.drop size)
      match readTemplate ending place 0 gs with
      | .closed size => next .templateStop outer size
      | .code size => next .codeStart (.code 0 :: .template ending false :: outer) size
      | .broken => [⟨.stray, [], [], row⟩]
  | fuel + 1, modes, row, gs =>
      match leadSize 0 .layout gs with
      | none => [⟨.stray, [], [], row⟩]
      | some size =>
          let lead := front size gs
          let start := row + rowsIn lead
          match gs.drop size with
          | [] => match modes with
            | [] => []
            | _ => [⟨.stray, [], [], row⟩]
          | inner =>
              let cut := cutCode markupAllowed modes inner
              let text := front cut.size inner
              ⟨cut.kind, text, lead, start⟩
                :: cutAll markupAllowed fuel cut.modes (start + rowsIn text) (inner.drop cut.size)

end Roster.Php
