import Roster.Text.Blank

/-! Lists of strings as an array literal of PHP, one numbered line per string in single quotes. Reading takes every
quoted string that stands behind an arrow and looks at nothing else. -/

namespace Roster.Artifact.PhpArray

open Roster.Text

/-- Puts a backslash in front of a character wherever it stands. -/
def protect (marked : Char) (cs : List Char) : List Char :=
  cs.flatMap fun c => if c = marked then ['\\', c] else [c]

/-- Backslashes are protected first, so that those put in front of quotes stay single. -/
def escape (cs : List Char) : List Char :=
  protect '\'' (protect '\\' cs)

def item (position : Nat) (value : String) : List Char :=
  "  ".toList ++ (Nat.repr position).toList ++ " => '".toList ++ escape value.toList
    ++ "',\n".toList

def items : Nat → List String → List Char
  | _, [] => []
  | position, value :: rest => item position value ++ items (position + 1) rest

def render (values : List String) : String :=
  String.ofList ("<?php\n\nreturn array (\n".toList ++ items 0 values ++ ");\n".toList)

/-- The inside of a quoted string up to its closing quote, escapes kept, and what follows. -/
def quotedBody : List Char → Option (List Char × List Char)
  | [] => none
  | '\'' :: rest => some ([], rest)
  | '\\' :: c :: rest => (quotedBody rest).map fun (body, after) => ('\\' :: c :: body, after)
  | ['\\'] => none
  | c :: rest => (quotedBody rest).map fun (body, after) => (c :: body, after)

/-- Undoes the escapes of quote and backslash; any other backslash stays. -/
def unescape : List Char → List Char
  | [] => []
  | '\\' :: '\\' :: rest => '\\' :: unescape rest
  | '\\' :: '\'' :: rest => '\'' :: unescape rest
  | c :: rest => c :: unescape rest

/-- A quoted string in front, with blanks before it. -/
def quotedString? (cs : List Char) : Option (List Char × List Char) :=
  match cs.dropWhile isBlank with
  | '\'' :: rest => quotedBody rest
  | _ => none

theorem quotedBody_length {cs body rest : List Char} (h : quotedBody cs = some (body, rest)) :
    rest.length < cs.length := by
  fun_induction quotedBody cs generalizing body rest with
  | case1 => simp at h
  | case2 => simp_all
  | case3 c cs ih =>
      obtain ⟨⟨inner, after⟩, found, eq⟩ := Option.map_eq_some_iff.1 h
      have := ih found
      simp only [Prod.mk.injEq] at eq
      simp only [List.length_cons, ← eq.2]
      omega
  | case4 => simp at h
  | case5 c cs _ _ _ ih =>
      obtain ⟨⟨inner, after⟩, found, eq⟩ := Option.map_eq_some_iff.1 h
      have := ih found
      simp only [Prod.mk.injEq] at eq
      simp only [List.length_cons, ← eq.2]
      omega

theorem quotedString?_length {cs body rest : List Char} (h : quotedString? cs = some (body, rest)) :
    rest.length < cs.length := by
  have hle := (List.dropWhile_sublist (l := cs) isBlank).length_le
  unfold quotedString? at h
  split at h
  · next inner heq =>
      have := quotedBody_length h
      rw [heq, List.length_cons] at hle
      omega
  · simp at h

/-- A quoted string behind an arrow in front. -/
def behindArrow? : List Char → Option (List Char × List Char)
  | '=' :: '>' :: cs => quotedString? cs
  | _ => none

theorem behindArrow?_length {cs body rest : List Char} (h : behindArrow? cs = some (body, rest)) :
    rest.length < cs.length := by
  unfold behindArrow? at h
  split at h
  · have := quotedString?_length h
    simp only [List.length_cons]
    omega
  · simp at h

/-- Every quoted string behind an arrow, in order. -/
def strings : List Char → List (List Char)
  | [] => []
  | c :: cs =>
      match h : behindArrow? (c :: cs) with
      | some (body, rest) =>
          have := behindArrow?_length h
          unescape body :: strings rest
      | none => strings cs
termination_by cs => cs.length
decreasing_by
  · assumption
  · exact Nat.lt_succ_self _

def parse (content : String) : List String :=
  (strings content.toList).map String.ofList

end Roster.Artifact.PhpArray
