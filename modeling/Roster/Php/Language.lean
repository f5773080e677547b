import Roster.Php.Source
import Roster.Syntax.Failure

/-! Languages by name. A registry says which entry of which grammar package reads a language; only the package for PHP
is at hand. -/

namespace Roster.Php

open Roster.Syntax

/-- An entry of a grammar package. -/
structure GrammarEntry where
  package : String
  entry : String
deriving DecidableEq, Repr

abbrev Registry := List (String × GrammarEntry)

/-- Why a language cannot be read. -/
inductive LanguageFault where
  | unsupported (language : String)
  | namelessPackage
  | missingPackage (package : String)
  | missingEntry (entry : GrammarEntry)
deriving DecidableEq, Repr

def LanguageFault.message : LanguageFault → String
  | .unsupported language => "Unsupported language for tree-sitter: " ++ language
  | .namelessPackage => "Empty module name"
  | .missingPackage package =>
      let dashed := String.ofList (package.toList.map fun c => if c = '_' then '-' else c)
      s!"Language package '{package}' not installed. Install it with: pip install {dashed}"
  | .missingEntry ⟨package, entry⟩ =>
      s!"Language module '{package}' does not have function '{entry}'. " ++
        "Check the tree-sitter package version and update LANGUAGE_MODULES."

def phpPackage : String := "tree_sitter_php"

/-- The dialects that the package for PHP offers. -/
def phpEntries : List (String × Dialect) :=
  [("language_php", .embedded), ("language_php_only", .bare)]

def defaultRegistry : Registry :=
  [("php", ⟨phpPackage, "language_php"⟩), ("php_only", ⟨phpPackage, "language_php_only"⟩)]

/-- Puts an entry in front of those already registered for the language. -/
def Registry.register (registry : Registry) (language : String) (entry : GrammarEntry) : Registry :=
  (language, entry) :: registry

def Registry.dialect (registry : Registry) (language : String) : Except LanguageFault Dialect :=
  match registry.find? (·.1 = language) with
  | none => .error (.unsupported language)
  | some (_, source) =>
      if source.package = "" then .error .namelessPackage
      else if source.package ≠ phpPackage then .error (.missingPackage source.package)
      else
        match phpEntries.find? (·.1 = source.entry) with
        | some (_, dialect) => .ok dialect
        | none => .error (.missingEntry source)

/-- The tree of a source in a dialect, or why the source is skipped. -/
def readDialect (dialect : Dialect) (content : ByteArray) : Except Failure Tree :=
  if isBlankSource content then .error .emptyFile else (parse dialect content).accept

/-- Scans read sources in the dialect that is embedded in markup. -/
instance embeddedParser : Parser where
  read := readDialect .embedded

/-- The tree of a source in a language. A blank source is skipped whatever its language. -/
def readSource (registry : Registry) (language : String) (content : ByteArray) :
    Except LanguageFault (Except Failure Tree) :=
  if isBlankSource content then .ok (.error .emptyFile)
  else (registry.dialect language).map fun dialect => readDialect dialect content

end Roster.Php
