import Mathlib.Data.List.Basic
import Roster.Artifact.Format

/-! Reading an artifact of PHP gives back the class names it was written for, whatever characters they hold. Escaped
text has no bare quote, so a literal ends at the quote that was written for it; between two literals there is a
single arrow, so no reading starts anywhere else. -/

namespace Roster.Artifact.PhpArray

open Roster.Text

/-- What becomes of one character, quotes and backslashes taken together. -/
def escapeChar (c : Char) : List Char :=
  if c = '\\' ∨ c = '\'' then ['\\', c] else [c]

theorem escape_eq_flatMap (cs : List Char) : escape cs = cs.flatMap escapeChar := by
  rw [escape, protect, protect, List.flatMap_assoc]
  congr 1
  funext c
  rw [escapeChar]
  by_cases hslash : c = '\\'
  · subst hslash
    rfl
  · by_cases hquote : c = '\''
    · subst hquote
      rfl
    · rw [if_neg hslash, if_neg (not_or.mpr ⟨hslash, hquote⟩), List.flatMap_singleton,
        if_neg hquote]

theorem escape_cons (c : Char) (cs : List Char) : escape (c :: cs) = escapeChar c ++ escape cs := by
  rw [escape_eq_flatMap, escape_eq_flatMap, List.flatMap_cons]

theorem quotedBody_quote (rest : List Char) : quotedBody ('\'' :: rest) = some ([], rest) := by
  rw [quotedBody]

theorem quotedBody_escaped (c : Char) (rest : List Char) :
    quotedBody ('\\' :: c :: rest) =
      (quotedBody rest).map fun (body, after) => ('\\' :: c :: body, after) := by
  rw [quotedBody]

theorem quotedBody_plain {c : Char} (hquote : c ≠ '\'') (hslash : c ≠ '\\') (rest : List Char) :
    quotedBody (c :: rest) = (quotedBody rest).map fun (body, after) => (c :: body, after) := by
  rw [quotedBody]
  · exact hquote
  · intro c' cs hc
    exact absurd hc hslash
  · intro hc
    exact absurd hc hslash

/-- A literal is read up to the quote behind its escaped text. -/
theorem quotedBody_escape (value rest : List Char) :
    quotedBody (escape value ++ '\'' :: rest) = some (escape value, rest) := by
  induction value with
  | nil => exact quotedBody_quote rest
  | cons c value ih =>
      rw [escape_cons, escapeChar, List.append_assoc]
      split_ifs with hc
      · simp only [List.cons_append, List.nil_append, quotedBody_escaped, ih, Option.map_some]
      · rw [not_or] at hc
        simp only [List.cons_append, List.nil_append, quotedBody_plain hc.2 hc.1, ih,
          Option.map_some]

theorem unescape_plain {c : Char} (hslash : c ≠ '\\') (rest : List Char) :
    unescape (c :: rest) = c :: unescape rest := by
  rw [unescape]
  · intro cs hc
    exact absurd hc hslash
  · intro cs hc
    exact absurd hc hslash

theorem unescape_escape (value : List Char) : unescape (escape value) = value := by
  induction value with
  | nil => rfl
  | cons c value ih =>
      rw [escape_cons, escapeChar]
      split_ifs with hc
      · rcases hc with rfl | rfl
        · rw [List.cons_append, List.cons_append, List.nil_append, unescape, ih]
        · rw [List.cons_append, List.cons_append, List.nil_append, unescape, ih]
      · rw [not_or] at hc
        rw [List.cons_append, List.nil_append, unescape_plain hc.1, ih]

/-- Where no arrow begins, nothing is read. -/
theorem strings_skip {c : Char} (hc : c ≠ '=') (rest : List Char) :
    strings (c :: rest) = strings rest := by
  have hnone : behindArrow? (c :: rest) = none := by
    unfold behindArrow?
    split
    · next heq => exact absurd (List.cons.inj heq).1 hc
    · rfl
  rw [strings]
  split
  · next heq => rw [hnone] at heq; contradiction
  · rfl

theorem strings_skip_all {front : List Char} (hfront : '=' ∉ front) (rest : List Char) :
    strings (front ++ rest) = strings rest := by
  induction front with
  | nil => rfl
  | cons c front ih =>
      rw [List.mem_cons, not_or] at hfront
      rw [List.cons_append, strings_skip (Ne.symm hfront.1), ih hfront.2]

theorem behindArrow?_literal (value rest : List Char) :
    behindArrow? (" => '".toList.tail ++ (escape value ++ '\'' :: rest)) =
      some (escape value, rest) := by
  change quotedString? (' ' :: '\'' :: (escape value ++ '\'' :: rest)) = _
  rw [quotedString?, List.dropWhile_cons_of_pos (by decide), List.dropWhile_cons_of_neg (by decide)]
  exact quotedBody_escape value rest

theorem strings_literal (value rest : List Char) :
    strings (" => '".toList ++ (escape value ++ '\'' :: rest)) =
      value :: strings rest := by
  have hread := behindArrow?_literal value rest
  change strings (' ' :: '=' :: _) = _
  rw [strings_skip (by decide), strings]
  split
  · next body after heq =>
      obtain ⟨rfl, rfl⟩ := Prod.mk.inj (Option.some.inj (heq.symm.trans hread))
      rw [unescape_escape]
  · next heq => exact absurd (heq.symm.trans hread) (by simp)

theorem arrow_not_mem_repr (position : Nat) : '=' ∉ (Nat.repr position).toList := by
  intro hmem
  rw [Nat.toList_repr] at hmem
  have hdigit := Nat.isDigit_of_mem_toDigits (by decide) (by decide) hmem
  contradiction

theorem item_append (position : Nat) (value : String) (rest : List Char) :
    item position value ++ rest =
      ("  ".toList ++ (Nat.repr position).toList) ++
        (" => '".toList ++ (escape value.toList ++ '\'' :: (",\n".toList ++ rest))) := by
  unfold item
  simp only [List.append_assoc]
  rfl

theorem strings_item (position : Nat) (value : String) (rest : List Char) :
    strings (item position value ++ rest) = value.toList :: strings rest := by
  have hnumber : '=' ∉ "  ".toList ++ (Nat.repr position).toList := by
    rw [List.mem_append, not_or]
    exact ⟨by decide, arrow_not_mem_repr position⟩
  rw [item_append, strings_skip_all hnumber, strings_literal, strings_skip_all (by decide)]

theorem strings_items (values : List String) (position : Nat) (rest : List Char) :
    strings (items position values ++ rest) = values.map String.toList ++ strings rest := by
  induction values generalizing position with
  | nil => rfl
  | cons value values ih =>
      rw [items, List.append_assoc, strings_item, ih, List.map_cons, List.cons_append]

theorem toList_render (values : List String) :
    (render values).toList =
      "<?php\n\nreturn array (\n".toList ++ (items 0 values ++ ");\n".toList) :=
  String.toList_ofList.trans (List.append_assoc ..)

theorem strings_render (values : List String) :
    strings (render values).toList = values.map String.toList := by
  have hstart : '=' ∉ "<?php\n\nreturn array (\n".toList := by decide +kernel
  have hend : strings ");\n".toList = [] := by
    rw [← List.append_nil ");\n".toList, strings_skip_all (by decide), strings]
  rw [toList_render, strings_skip_all hstart, strings_items, hend, List.append_nil]

end Roster.Artifact.PhpArray

namespace Roster.Artifact

/-- What was written is read again: the same names, in order, as often as they were given. -/
theorem parse_render_php (classNames : List String) :
    parse .php (render .php classNames) = .ok classNames := by
  change Except.ok (PhpArray.parse (PhpArray.render classNames)) = _
  rw [PhpArray.parse, PhpArray.strings_render, List.map_map]
  congr 1
  exact List.map_id'' (fun name => String.ofList_toList) classNames

end Roster.Artifact
