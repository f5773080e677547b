import Roster.Php.Grammar
import Roster.Php.Lexer
import Roster.Text.Utf8

/-! PHP sources as syntax trees. In the usual dialect code stands between tags inside markup; in the bare dialect the
source is code from its start, whether an opening tag stands there or not. -/

namespace Roster.Php

open Roster.Syntax

inductive Dialect where
  | embedded
  | bare
deriving DecidableEq, Repr

/-- The glyphs of a source that are code, and the row where they start. -/
def codePart (dialect : Dialect) (gs : List Glyph) : Nat × List Glyph :=
  let behind (lead : Nat) : Nat × List Glyph :=
    let size := markupSize lead (gs.drop lead)
    (rowsIn (front size gs), gs.drop size)
  match dialect with
  | .embedded => behind 0
  | .bare =>
      match leadSize 0 .layout gs with
      | some lead =>
          match gs.drop lead with
          | some '<' :: some '?' :: _ => behind lead
          | _ => (0, gs)
      | none => (0, gs)

def tokens (dialect : Dialect) (gs : List Glyph) : List Token :=
  let (row, code) := codePart dialect gs
  cutAll (dialect = .embedded) (2 * code.length + 2) [] row code

/-- How deep the patterns of a source with so many tokens can nest. -/
def nestingBound (count : Nat) : Nat :=
  100 * (count + 10)

/-- The tree of a source. The first statement that cannot be read becomes an error node in a flagged tree. -/
def parse (dialect : Dialect) (content : ByteArray) : Tree :=
  let ts := tokens dialect (Text.Utf8.glyphs content.toList)
  let (kept, rest) :=
    (Pattern.read grammar (nestingBound ts.length) (.many (.rule .statement)) ts).getD ([], ts)
  match Pattern.nextCode rest with
  | none => .node {} kept
  | some (t, _) =>
      .node { hasError := true } (kept ++ [.node { kind := .error, hasError := true, row := t.row } []])

end Roster.Php
