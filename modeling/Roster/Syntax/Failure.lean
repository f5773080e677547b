import Roster.Syntax.Tree
import Roster.Text.Blank

/-! Sources that contribute nothing to a scan. A source is usable when it is not blank, its tree has no error,
and it holds something besides tags, markup and comments. -/

namespace Roster.Syntax

/-- Why a source is skipped. -/
inductive Failure where
  | unreadable (reason : String)
  | emptyFile
  | syntaxError (line : Nat)
  | noStatements
deriving DecidableEq, Repr

def Failure.message : Failure → String
  | .unreadable reason => "unreadable: " ++ reason
  | .emptyFile => "empty file"
  | .syntaxError line => "syntax error near line " ++ toString line
  | .noStatements => "no statements"

/-- Kinds that carry no declarations. -/
def Kind.isTrivial : Kind → Bool
  | .openTag | .markup | .markupBetween | .comment => true
  | _ => false

def isBlankSource (content : ByteArray) : Bool :=
  content.toList.all Text.isBlankByte

/-- Accepts the tree of a source that is not blank. -/
def Tree.accept (tree : Tree) : Except Failure Tree :=
  if tree.label.hasError then .error (.syntaxError tree.errorLine)
  else if tree.namedChildren.all (·.kind.isTrivial) then .error .noStatements
  else .ok tree

/-- How the sources of a language are read. -/
class Parser where
  read : ByteArray → Except Failure Tree

end Roster.Syntax
