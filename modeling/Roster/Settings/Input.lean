import Roster.Json.Value
import Roster.Settings.Basic

/-! Settings from untyped input. Values are taken leniently: whole numbers and switches may come as text, and names
that mean nothing are ignored. Everything that does not fit is reported, in the order of the settings. -/

namespace Roster.Settings

open Roster.Text

/-- What is wrong with a value. -/
inductive Problem where
  | notPath
  | notList
  | notString
  | notInteger
  | unreadableInteger
  | oversizedInteger
  | fractionalInteger
  | infiniteNumber
  | notPositive
  | notSwitch
  | unreadableSwitch
  | unknownChoice
deriving DecidableEq, Repr

def Problem.name : Problem → String
  | .notPath => "path_type"
  | .notList => "list_type"
  | .notString => "string_type"
  | .notInteger => "int_type"
  | .unreadableInteger => "int_parsing"
  | .oversizedInteger => "int_parsing_size"
  | .fractionalInteger => "int_from_float"
  | .infiniteNumber => "finite_number"
  | .notPositive => "greater_than"
  | .notSwitch => "bool_type"
  | .unreadableSwitch => "bool_parsing"
  | .unknownChoice => "literal_error"

/-- A value that does not fit, and where it stands. -/
structure Complaint where
  location : List String
  problem : Problem
deriving DecidableEq, Repr

/-- The digits of a numeral in its shortest form, the sign apart. -/
def canonicalInteger? (cs : List Char) : Option (Bool × List Char) :=
  let (negative, digits) := match cs with
    | '-' :: digits => (true, digits)
    | digits => (false, digits)
  if digits.isEmpty || !digits.all Char.isDigit || (digits.head? = some '0' && digits.length ≠ 1) then
    none
  else some (negative, digits)

def isSurroundingBlank (c : Char) : Bool :=
  isBlank c && !(0x1C ≤ c.toNat && c.toNat ≤ 0x1F)

/-- Drops zeros and underscores in front of the first digit that counts; something else than a digit or a sign in
front is refused. -/
def dropLeadingZeros? (cs : List Char) : Option (List Char) :=
  let rec behindZeros (last : Char) : List Char → Option (List Char)
    | [] => some [last]
    | c :: rest =>
        if c = '0' || c = '_' then behindZeros c rest
        else if c.isDigit then some (c :: rest)
        else if c = '.' then some (last :: c :: rest)
        else none
  match cs with
  | '0' :: rest => behindZeros '0' rest
  | c :: rest => if c.isDigit || c = '-' then some (c :: rest) else none
  | [] => none

/-- Drops a point that is followed by zeros only. -/
def dropZeroPlaces (cs : List Char) : List Char :=
  let places := (cs.dropWhile (· ≠ '.')).drop 1
  if places.all (· = '0') then cs.takeWhile (· ≠ '.') else cs

/-- Drops single underscores between characters. -/
def dropGrouping (cs : List Char) : List Char :=
  if ((segments '_' cs).any List.isEmpty) then cs else cs.filter (· ≠ '_')

/-- A numeral without what may surround it. -/
def cleanInteger? (cs : List Char) : Option (List Char) := do
  let trimmed := dropEndWhile isSurroundingBlank (cs.dropWhile isSurroundingBlank)
  let unsigned ← match trimmed with
    | '+' :: '-' :: _ => none
    | '+' :: rest => some rest
    | rest => some rest
  return dropGrouping (dropZeroPlaces (← dropLeadingZeros? unsigned))

def integerOfText (s : String) : Except Problem Int :=
  let value (found : Bool × List Char) : Except Problem Int :=
    if longestNumeral < found.2.length then .error .oversizedInteger
    else .ok (if found.1 then -(digitsValue found.2 : Int) else digitsValue found.2)
  match canonicalInteger? s.toList with
  | some found => value found
  | none =>
      match (cleanInteger? s.toList).bind canonicalInteger? with
      | some found => value found
      | none => .error .unreadableInteger

/-- A whole number as an exact one. -/
def integerOfReal (x : Float) : Except Problem Int :=
  let signed := Signed.ofBits x.toBits
  match signed.magnitude with
  | .infinite | .undefined => .error .infiniteNumber
  | .finite value =>
      let scale := Nat.pow 2 (-value.power).toNat
      let size := value.mantissa * Nat.pow 2 value.power.toNat
      if size % scale ≠ 0 then .error .fractionalInteger
      else if Nat.pow 2 63 ≤ size / scale then .error .oversizedInteger
      else .ok (if signed.negative then -(size / scale : Int) else size / scale)

def integerOf : Json → Except Problem Int
  | .integer n => .ok n
  | .bool b => .ok (if b then 1 else 0)
  | .string s => integerOfText s
  | .real x => integerOfReal x
  | _ => .error .notInteger

def positiveOf (input : Json) : Except Problem Int := do
  let n ← integerOf input
  if 0 < n then return n else throw .notPositive

def switchOfText (s : String) : Except Problem Bool :=
  let lower := s.toLower
  if ["0", "off", "f", "false", "n", "no"].contains lower then .ok false
  else if ["1", "on", "t", "true", "y", "yes"].contains lower then .ok true
  else .error .unreadableSwitch

def switchOfInteger (n : Int) : Except Problem Bool :=
  if n = 0 then .ok false else if n = 1 then .ok true else .error .unreadableSwitch

def switchOf : Json → Except Problem Bool
  | .bool b => .ok b
  | .string s => switchOfText s
  | .integer n => switchOfInteger n
  | .real x =>
      match integerOfReal x with
      | .ok n => switchOfInteger n
      | .error _ => .error .notSwitch
  | _ => .error .notSwitch

def textOf : Json → Except Problem String
  | .string s => .ok s
  | _ => .error .notString

def pathOf : Json → Except Problem Path
  | .string s => .ok (Path.ofString s)
  | _ => .error .notPath

def formatOf : Json → Except Problem Artifact.Format
  | .string s =>
      match Artifact.Format.ofName? s with
      | some format => .ok format
      | none => .error .unknownChoice
  | _ => .error .unknownChoice

/-- A value that may be absent on purpose. -/
def optionOf {α : Type} (convert : Json → Except Problem α) : Json → Except Problem (Option α)
  | .null => .ok none
  | input => (convert input).map some

/-- Converts one setting, with its default when it is not given. -/
def readField {α : Type} (input : Json) (name : String) (default : α)
    (convert : Json → Except Problem α) : Except (List Complaint) α :=
  match input.member? name with
  | none => .ok default
  | some value => (convert value).mapError fun problem => [⟨[name], problem⟩]

/-- Converts a list of texts; each item that is none is reported with its position. -/
def readTexts (input : Json) (name : String) (default : List String) :
    Except (List Complaint) (List String) :=
  match input.member? name with
  | none => .ok default
  | some (.array items) =>
      let complaints := (items.zipIdx).filterMap fun (item, position) =>
        match textOf item with
        | .ok _ => none
        | .error problem => some ⟨[name, toString position], problem⟩
      if complaints.isEmpty then .ok (items.filterMap fun item => (textOf item).toOption)
      else .error complaints
  | some _ => .error [⟨[name], .notList⟩]

/-- Applies a converted setting; complaints add up. -/
def apply {α β : Type} (build : Except (List Complaint) (α → β)) (value : Except (List Complaint) α) :
    Except (List Complaint) β :=
  match build, value with
  | .ok f, .ok a => .ok (f a)
  | .ok _, .error complaints => .error complaints
  | .error complaints, .ok _ => .error complaints
  | .error earlier, .error later => .error (earlier ++ later)

/-- Settings from the members of an object; `directory` is the base unless another one is given. -/
def ofInput (directory : Path) (input : Json) : Except (List Complaint) Settings :=
  let build base app cache moduleDirectories vendors interfaces memoryLimit batchSize progressive
      format : Settings :=
    { base, app, cache, moduleDirectories, vendors, interfaces, memoryLimit, batchSize, progressive,
      format }
  let base := apply (.ok build) (readField input "base_path" directory pathOf)
  let app := apply base (readField input "app_path" none (optionOf pathOf))
  let cache := apply app (readField input "cache_path" none (optionOf pathOf))
  let modules := apply cache (readTexts input "module_directories" ["app_modules", "app-modules"])
  let vendors := apply modules (readTexts input "vendors" [])
  let interfaces := apply vendors (readTexts input "interfaces" [])
  let memory := apply interfaces (readField input "memory_limit" none (optionOf textOf))
  let batch := apply memory (readField input "concurrency_batch_size" none (optionOf positiveOf))
  let progressive := apply batch (readField input "progressive" none (optionOf switchOf))
  apply progressive (readField input "artifact_format" .php formatOf)

end Roster.Settings
