import Roster.Json.Value
import Roster.Text.Integer

/-! Reading JSON. Besides the standard the reader knows the three constants for values that are no finite
number. A fault names what was expected and where, by line, column and character. -/

namespace Roster.Json

open Roster.Text

/-- What is wrong with a text. -/
inductive Problem where
  | byteOrderMark
  | expectedValue
  | expectedComma
  | expectedColon
  | expectedName
  | unterminatedString
  | invalidEscape
  | invalidUnicodeEscape
  | invalidControl
  | extraData
deriving DecidableEq, Repr

def Problem.message : Problem → String
  | .byteOrderMark => "Unexpected UTF-8 BOM (decode using utf-8-sig)"
  | .expectedValue => "Expecting value"
  | .expectedComma => "Expecting ',' delimiter"
  | .expectedColon => "Expecting ':' delimiter"
  | .expectedName => "Expecting property name enclosed in double quotes"
  | .unterminatedString => "Unterminated string starting at"
  | .invalidEscape => "Invalid \\escape"
  | .invalidUnicodeEscape => "Invalid \\uXXXX escape"
  | .invalidControl => "Invalid control character at"
  | .extraData => "Extra data"

/-- Why a text cannot be read; a position counts the characters before it. -/
inductive Fault where
  | at (problem : Problem) (line column position : Nat)
  | longInteger (digits : Nat)
deriving DecidableEq, Repr

def Fault.message : Fault → String
  | .at problem line column position =>
      problem.message ++ s!": line {line} column {column} (char {position})"
  | .longInteger digits =>
      s!"Exceeds the limit ({longestNumeral} digits) for integer string conversion: value has " ++
        s!"{digits} digits; use sys.set_int_max_str_digits() to increase the limit"

/-- A fault while reading, placed by how many characters are left. -/
inductive Stop where
  | problem (problem : Problem) (left : Nat)
  | longInteger (digits : Nat)

def isLayout (c : Char) : Bool :=
  c == ' ' || c == '\t' || c == '\n' || c == '\r'

def skipLayout (cs : List Char) : List Char :=
  cs.dropWhile isLayout

def fail {α : Type} (problem : Problem) (cs : List Char) : Except Stop α :=
  .error (.problem problem cs.length)

def hexValue? (c : Char) : Option Nat :=
  if '0' ≤ c && c ≤ '9' then some (c.toNat - 48)
  else if 'a' ≤ c && c ≤ 'f' then some (c.toNat - 87)
  else if 'A' ≤ c && c ≤ 'F' then some (c.toNat - 55)
  else none

def hexUnit? (a b c d : Char) : Option Nat := do
  return (((← hexValue? a) * 16 + (← hexValue? b)) * 16 + (← hexValue? c)) * 16 + (← hexValue? d)

/-- A piece of a string: a character, or a 16-bit unit given by number. -/
inductive Piece where
  | char (c : Char)
  | unit (n : Nat)
deriving DecidableEq

def escape? : Char → Option Char
  | '"' => some '"'
  | '\\' => some '\\'
  | '/' => some '/'
  | 'b' => some '\x08'
  | 'f' => some '\x0c'
  | 'n' => some '\n'
  | 'r' => some '\r'
  | 't' => some '\t'
  | _ => none

/-- Reads the pieces of a string up to its closing quote; `opened` characters were left at its opening one. -/
def readPieces (opened : Nat) : List Char → Except Stop (List Piece × List Char)
  | [] => .error (.problem .unterminatedString opened)
  | '"' :: rest => .ok ([], rest)
  | '\\' :: 'u' :: a :: b :: c :: d :: e :: rest =>
      match hexUnit? a b c d with
      | none => .error (.problem .invalidUnicodeEscape (rest.length + 6))
      | some n => do
          let (pieces, left) ← readPieces opened (e :: rest)
          return (.unit n :: pieces, left)
  | '\\' :: 'u' :: rest => .error (.problem .invalidUnicodeEscape (rest.length + 1))
  | '\\' :: c :: rest =>
      match escape? c with
      | none => .error (.problem .invalidEscape (rest.length + 2))
      | some e => do
          let (pieces, left) ← readPieces opened rest
          return (.char e :: pieces, left)
  | ['\\'] => .error (.problem .unterminatedString opened)
  | c :: rest =>
      if c.toNat < 0x20 then fail .invalidControl (c :: rest)
      else do
        let (pieces, left) ← readPieces opened rest
        return (.char c :: pieces, left)

def isHighUnit (n : Nat) : Bool :=
  0xD800 ≤ n && n < 0xDC00

def isLowUnit (n : Nat) : Bool :=
  0xDC00 ≤ n && n < 0xE000

/-- The character of a 16-bit unit that stands alone. -/
def unitChar (n : Nat) : Char :=
  if isHighUnit n || isLowUnit n then '\ufffd' else Char.ofNat n

/-- Joins the pieces; two units that form a pair are one character. -/
def joinPieces : List Piece → List Char
  | [] => []
  | .char c :: rest => c :: joinPieces rest
  | .unit hi :: .unit lo :: rest =>
      if isHighUnit hi && isLowUnit lo then
        Char.ofNat (0x10000 + (hi - 0xD800) * 0x400 + (lo - 0xDC00)) :: joinPieces rest
      else unitChar hi :: joinPieces (.unit lo :: rest)
  | .unit n :: rest => unitChar n :: joinPieces rest

/-- Reads a string behind its opening quote. -/
def readString (cs : List Char) : Except Stop (String × List Char) := do
  let (pieces, rest) ← readPieces (cs.length + 1) cs
  return (String.ofList (joinPieces pieces), rest)

/-- Splits off the digits in front. -/
def takeDigits (cs : List Char) : List Char × List Char :=
  cs.span fun c => '0' ≤ c && c ≤ '9'

/-- The digits behind a point, when there are any. -/
def readFraction : List Char → List Char × List Char
  | '.' :: cs =>
      match takeDigits cs with
      | ([], _) => ([], '.' :: cs)
      | found => found
  | cs => ([], cs)

/-- The exponent behind its letter, when there is one. -/
def readExponent (cs : List Char) : Option Int × List Char :=
  let read (negative : Bool) (digits : List Char) : Option Int × List Char :=
    match takeDigits digits with
    | ([], _) => (none, cs)
    | (found, rest) =>
        (some (if negative then -(digitsValue found : Int) else digitsValue found), rest)
  match cs with
  | 'e' :: '-' :: digits | 'E' :: '-' :: digits => read true digits
  | 'e' :: '+' :: digits | 'E' :: '+' :: digits => read false digits
  | 'e' :: digits | 'E' :: digits => read false digits
  | _ => (none, cs)

/-- The number `digits * 10 ^ exponent`, rounded once. Exponents far outside the range give zero or infinity. -/
def realOf (negative : Bool) (digits : List Char) (exponent : Int) : Float :=
  let mantissa := digitsValue digits
  let leading := exponent + (Nat.repr mantissa).length
  let size : Float :=
    if mantissa = 0 then 0.0
    else if leading > 400 then 1.0 / 0.0
    else if leading < -400 then 0.0
    else Float.ofScientific mantissa (exponent < 0) exponent.natAbs
  if negative then -size else size

/-- Reads a number whose sign has been read. Zero is not followed by further digits. -/
def readNumber (negative : Bool) (start cs : List Char) : Except Stop (Json × List Char) :=
  let (whole, rest) := match cs with
    | '0' :: rest => (['0'], rest)
    | _ => takeDigits cs
  if whole.isEmpty then fail .expectedValue start
  else
    let (fraction, rest) := readFraction rest
    let (exponent, rest) := readExponent rest
    if fraction.isEmpty && exponent.isNone then
      if longestNumeral < whole.length then .error (.longInteger whole.length)
      else
        let n : Int := digitsValue whole
        .ok (.integer (if negative then -n else n), rest)
    else
      .ok (.real (realOf negative (whole ++ fraction) (exponent.getD 0 - fraction.length)), rest)

/-- Reads a value that holds no others. -/
def readScalar : List Char → Except Stop (Json × List Char)
  | '"' :: cs => do
      let (s, rest) ← readString cs
      return (.string s, rest)
  | 'n' :: 'u' :: 'l' :: 'l' :: rest => .ok (.null, rest)
  | 't' :: 'r' :: 'u' :: 'e' :: rest => .ok (.bool true, rest)
  | 'f' :: 'a' :: 'l' :: 's' :: 'e' :: rest => .ok (.bool false, rest)
  | 'N' :: 'a' :: 'N' :: rest => .ok (.real (0.0 / 0.0), rest)
  | 'I' :: 'n' :: 'f' :: 'i' :: 'n' :: 'i' :: 't' :: 'y' :: rest => .ok (.real (1.0 / 0.0), rest)
  | '-' :: 'I' :: 'n' :: 'f' :: 'i' :: 'n' :: 'i' :: 't' :: 'y' :: rest =>
      .ok (.real (-1.0 / 0.0), rest)
  | '-' :: cs => readNumber true ('-' :: cs) cs
  | cs => readNumber false cs cs

mutual

/-- Reads a value; `fuel` bounds the steps and twice the length of the text suffices. -/
def readValue : Nat → List Char → Except Stop (Json × List Char)
  | 0, cs => fail .expectedValue cs
  | fuel + 1, '[' :: cs =>
      match skipLayout cs with
      | ']' :: rest => .ok (.array [], rest)
      | cs => do
          let (items, rest) ← readItems fuel cs
          return (.array items, rest)
  | fuel + 1, '\x7b' :: cs =>
      match skipLayout cs with
      | '\x7d' :: rest => .ok (.object [], rest)
      | cs => do
          let (members, rest) ← readMembers fuel [] cs
          return (.object members, rest)
  | _ + 1, cs => readScalar cs

/-- Reads items up to the closing bracket. -/
def readItems : Nat → List Char → Except Stop (List Json × List Char)
  | 0, cs => fail .expectedValue cs
  | fuel + 1, cs => do
      let (item, rest) ← readValue fuel cs
      match skipLayout rest with
      | ']' :: rest => return ([item], rest)
      | ',' :: rest =>
          let (items, rest) ← readItems fuel (skipLayout rest)
          return (item :: items, rest)
      | rest => fail .expectedComma rest

/-- Reads members up to the closing brace, on top of those already read. -/
def readMembers : Nat → List (String × Json) → List Char → Except Stop (List (String × Json) × List Char)
  | fuel + 1, known, '"' :: cs => do
      let (name, rest) ← readString cs
      match skipLayout rest with
      | ':' :: rest =>
          let (value, rest) ← readValue fuel (skipLayout rest)
          let members := setMember name value known
          match skipLayout rest with
          | '\x7d' :: rest => return (members, rest)
          | ',' :: rest => readMembers fuel members (skipLayout rest)
          | rest => fail .expectedComma rest
      | rest => fail .expectedColon rest
  | _, _, cs => fail .expectedName cs

end

/-- Places a fault in the text. -/
def Stop.place (text : List Char) : Stop → Fault
  | .longInteger digits => .longInteger digits
  | .problem what left =>
      let before := text.take (text.length - left)
      let line := before.count '\n' + 1
      let column := (lastSegment '\n' before).length + 1
      .at what line column before.length

def parseChars (text : List Char) : Except Stop Json :=
  if text.head? = some '\ufeff' then fail .byteOrderMark text
  else do
    let (value, rest) ← readValue (2 * text.length + 2) (skipLayout text)
    match skipLayout rest with
    | [] => return value
    | rest => fail .extraData rest

def parse (s : String) : Except Fault Json :=
  (parseChars s.toList).mapError (Stop.place s.toList)

end Roster.Json
