import Roster.Text.Segments

/-! Globs over one path segment: `*` stands for any run, `?` for one character, and brackets for one
character of a set. A set opens with `!` to negate it and may hold ranges; a range whose ends are the wrong
way round holds nothing and drops out of the set. A bracket that is never closed stands for itself. -/

namespace Roster

open Roster.Text

namespace Glob

inductive Item where
  | anyRun
  | anyOne
  | literal (c : Char)
  | oneOf (negated : Bool) (ranges : List (Char × Char))
deriving DecidableEq, Repr

def Item.isAnyRun : Item → Bool
  | .anyRun => true
  | _ => false

/-- Whether the item stands for this one character. -/
def Item.accepts : Item → Char → Bool
  | .anyRun, _ => false
  | .anyOne, _ => true
  | .literal d, c => c == d
  | .oneOf negated ranges, c => negated != ranges.any fun range => range.1 ≤ c && c ≤ range.2

/-- How many characters behind an opening bracket cannot close it. -/
def bracketLead : List Char → Nat
  | '!' :: ']' :: _ => 2
  | '!' :: _ => 1
  | ']' :: _ => 1
  | _ => 0

/-- What brackets enclose and what follows them, for a text behind an opening bracket. -/
def bracket (cs : List Char) : Option (List Char × List Char) :=
  let lead := bracketLead cs
  match (cs.drop lead).dropWhile (· != ']') with
  | [] => none
  | _ :: rest => some (cs.take lead ++ (cs.drop lead).takeWhile (· != ']'), rest)

theorem bracket_length {cs body rest : List Char} (h : bracket cs = some (body, rest)) :
    rest.length < cs.length := by
  have hle := (List.dropWhile_sublist (l := cs.drop (bracketLead cs)) (· != ']')).length_le
  simp only [bracket] at h
  split at h
  · exact absurd h (by simp)
  · next heq =>
      simp only [Option.some.injEq, Prod.mk.injEq] at h
      rw [heq, List.length_cons, List.length_drop, h.2] at hle
      omega

/-- Cuts the inside of brackets at the hyphens that make ranges: not at the first characters, nor at those
right behind a cut. -/
def cutRanges : Nat → List Char → List Char → List (List Char)
  | _, chunk, [] => [chunk.reverse]
  | 0, chunk, c :: cs =>
      if c = '-' then chunk.reverse :: cutRanges 2 [] cs else cutRanges 0 (c :: chunk) cs
  | held + 1, chunk, c :: cs => cutRanges held (c :: chunk) cs

/-- A hyphen with nothing behind it stands for itself. -/
def closeLast : List (List Char) → List (List Char)
  | [] => []
  | [chunk, []] => [chunk ++ ['-']]
  | chunk :: rest => chunk :: closeLast rest

/-- Joins neighbouring chunks whose range would run backwards, dropping both of its ends. -/
def dropBackward : List (List Char) → List (List Char)
  | [] => []
  | chunk :: rest =>
      match dropBackward rest with
      | [] => [chunk]
      | next :: more =>
          match chunk.getLast?, next.head? with
          | some lo, some hi =>
              if hi < lo then (chunk.dropLast ++ next.tail) :: more else chunk :: next :: more
          | _, _ => chunk :: next :: more

/-- Single characters, and a range across each cut. -/
def ranges : List (List Char) → List (Char × Char)
  | [] => []
  | [chunk] => chunk.map fun c => (c, c)
  | chunk :: [] :: rest => chunk.map (fun c => (c, c)) ++ ranges rest
  | chunk :: (hi :: next) :: rest =>
      chunk.dropLast.map (fun c => (c, c)) ++ (chunk.getLastD hi, hi) :: ranges (next :: rest)
termination_by chunks => chunks.length

def ofBody (body : List Char) : Item :=
  let held := if body.head? = some '!' then 2 else 1
  match dropBackward (closeLast (cutRanges held [] body)) with
  | ('!' :: chunk) :: rest => .oneOf true (ranges (chunk :: rest))
  | chunks => .oneOf false (ranges chunks)

def parseItems : List Char → List Item
  | [] => []
  | c :: cs =>
      if c = '*' then .anyRun :: parseItems cs
      else if c = '?' then .anyOne :: parseItems cs
      else if c = '[' then
        match h : bracket cs with
        | some (body, rest) =>
            have := bracket_length h
            ofBody body :: parseItems rest
        | none => .literal '[' :: parseItems cs
      else .literal c :: parseItems cs
termination_by cs => cs.length
decreasing_by all_goals (simp; try omega)

/-- The text behind a block of items that stand for one character each. -/
def afterBlock : List Item → List Char → Option (List Char)
  | [], cs => some cs
  | _ :: _, [] => none
  | item :: items, c :: cs => if item.accepts c then afterBlock items cs else none

/-- The text behind the first place where the block fits. -/
def afterFirst (block : List Item) : List Char → Option (List Char)
  | [] => afterBlock block []
  | c :: cs => (afterBlock block (c :: cs)).or (afterFirst block cs)

/-- Blocks with any run in front of each; the last one stands at the end. -/
def fitsBlocks : List (List Item) → List Char → Bool
  | [], _ => true
  | [block], cs =>
      block.length ≤ cs.length && afterBlock block (cs.drop (cs.length - block.length)) == some []
  | block :: next :: rest, cs =>
      match afterFirst block cs with
      | some after => fitsBlocks (next :: rest) after
      | none => false

end Glob

/-- A glob as its blocks of one-character items, with any run between neighbours. -/
structure Glob where
  blocks : List (List Glob.Item)

namespace Glob

def parse (pattern : List Char) : Glob :=
  ⟨segmentsBy Item.isAnyRun (parseItems pattern)⟩

/-- Whether the glob stands for the whole text. -/
def accepts (glob : Glob) (cs : List Char) : Bool :=
  match glob.blocks with
  | [] => cs.isEmpty
  | [block] => afterBlock block cs == some []
  | first :: rest =>
      match afterBlock first cs with
      | some after => fitsBlocks rest after
      | none => false

end Glob

end Roster
