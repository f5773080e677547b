import Roster.Text.Blank

/-! Console markup: tags in brackets style the text between them and take no room. A tag begins with a small letter
or one of three signs; a backslash in front of it makes it plain text. -/

namespace Roster.Console.Markup

/-- A part of a marked-up text. A tag comes with the position of its bracket. -/
inductive Piece where
  | plain (cs : List Char)
  | tag (position : Nat) (body : List Char)
deriving DecidableEq, Repr

/-- Why a text cannot be shown. -/
inductive Fault where
  | unopened (tag : String) (position : Nat)
  | nothingToClose (position : Nat)
deriving DecidableEq, Repr

def Fault.message : Fault → String
  | .unopened tag position =>
      s!"closing tag '[{tag}]' at position {position} doesn't match any open tag"
  | .nothingToClose position => s!"closing tag '[/]' at position {position} has nothing to close"

def startsTag (c : Char) : Bool :=
  ('a' ≤ c && c ≤ 'z') || c == '#' || c == '/' || c == '@'

/-- Reads a tag behind its bracket: its body, and what comes after it. -/
def tag? : List Char → Option (List Char × List Char)
  | [] => none
  | c :: cs =>
      if startsTag c then
        let body := cs.takeWhile fun d => d != '[' && d != ']'
        match cs.drop body.length with
        | ']' :: rest => some (c :: body, rest)
        | _ => none
      else none

theorem tag?_length {cs body rest : List Char} (h : tag? cs = some (body, rest)) :
    rest.length < cs.length := by
  match cs with
  | [] => simp [tag?] at h
  | c :: cs =>
      simp only [tag?] at h
      split at h
      · split at h
        · rename_i rest' hdrop
          simp only [Option.some.injEq, Prod.mk.injEq] at h
          have := congrArg List.length hdrop
          simp only [List.length_drop, List.length_cons] at this
          rw [← h.2]
          simp only [List.length_cons]
          omega
        · simp at h
      · simp at h

/-- A text's pieces. Of backslashes in front of a tag two make one, and an odd one makes the tag plain; before any
other bracket a backslash is dropped. -/
def pieces (position : Nat) : List Char → List Piece
  | [] => []
  | c :: rest =>
      let cs := c :: rest
      let slashes := (cs.takeWhile (· == '\\')).length
      match h : cs.drop slashes with
      | '[' :: inner =>
          match ht : tag? inner with
          | some (body, after) =>
              let lead := Piece.plain (List.replicate (slashes / 2) '\\')
              let last := if slashes % 2 = 1 then Piece.plain ('[' :: body ++ [']'])
                else .tag (position + slashes) body
              lead :: last :: pieces (position + (cs.length - after.length)) after
          | none =>
              if slashes = 1 then .plain [] :: pieces (position + 1) rest
              else .plain [c] :: pieces (position + 1) rest
      | _ => .plain [c] :: pieces (position + 1) rest
termination_by cs => cs.length
decreasing_by
  · have h1 := tag?_length ht
    have h2 := congrArg List.length h
    have h3 : cs.length = rest.length + 1 := rfl
    simp only [List.length_drop, List.length_cons] at h2 ⊢
    omega
  all_goals exact Nat.lt_succ_self _

/-- A tag's name: what stands before an equals sign, without regard to case and outer blanks. -/
def tagName (body : List Char) : List Char :=
  (Text.trimChars (body.takeWhile (· != '='))).map Char.toLower

/-- The text without its tags; `opened` holds the names of open tags, innermost first. -/
def strip (opened : List (List Char)) : List Piece → Except Fault (List Char)
  | [] => .ok []
  | .plain cs :: rest => return cs ++ (← strip opened rest)
  | .tag position ('/' :: body) :: rest =>
      let name := tagName body
      match opened, name with
      | [], [] => .error (.nothingToClose position)
      | _ :: outer, [] => strip outer rest
      | _, _ =>
          if opened.contains name then strip (opened.erase name) rest
          else .error (.unopened (String.ofList ('/' :: body)) position)
  | .tag _ body :: rest => strip (tagName body :: opened) rest

/-- The characters that a marked-up text shows. -/
def plain (text : String) : Except Fault String :=
  (strip [] (pieces 0 text.toList)).map fun cs => String.ofList cs

end Roster.Console.Markup
