import Roster.Glob
import Roster.Text.Blank

/-! Exclusion of paths. A pattern is a row of globs, one per path segment, and excludes a path when it stands
for some consecutive segments of it, wherever the path starts. -/

namespace Roster.Exclusion

open Roster.Text

/-- The path with forward slashes only. -/
def forwardChars (cs : List Char) : List Char :=
  cs.map fun c => if c = '\\' then '/' else c

def forward (path : String) : String :=
  String.ofList (forwardChars path.toList)

/-- Trees that never hold implementors: tests, documentation, front-end files, build output and database
scaffolding. -/
def builtIn : List String := [
  "*/tests/*", "*/test/*", "*/Test/*", "*/Tests/*", "*/fixtures/*", "*/stubs/*", "*/stub/*",
  "*/docs/*", "*/doc/*", "*/documentation/*", "*/examples/*", "*/example/*",
  "*/resources/views/*", "*/resources/lang/*", "*/resources/css/*", "*/resources/js/*",
  "*/public/*", "*/storage/*", "*/node_modules/*", "*/assets/*",
  "*/build/*", "*/dist/*", "*/vendor/bin/*",
  "*/database/migrations/*", "*/database/seeds/*", "*/database/factories/*"]

/-- Whether the globs stand for the first segments. -/
def fitsStart : List Glob → List (List Char) → Bool
  | [], _ => true
  | _ :: _, [] => false
  | glob :: globs, s :: rest => glob.accepts s && fitsStart globs rest

/-- Whether the globs stand for consecutive segments somewhere. -/
def fitsAnywhere (globs : List Glob) : List (List Char) → Bool
  | [] => fitsStart globs []
  | s :: rest => fitsStart globs (s :: rest) || fitsAnywhere globs rest

def patternGlobs (pattern : String) : List Glob :=
  (segments '/' (forwardChars pattern.toList)).map Glob.parse

def fits (pattern path : String) : Bool :=
  fitsAnywhere (patternGlobs pattern) (segments '/' (forwardChars path.toList))

def excludes (patterns : List String) (path : String) : Bool :=
  patterns.any fun pattern => fits pattern path

/-- Whether everything below the directory is excluded: an empty last segment stands for what is inside. -/
def excludesDirectory (patterns : List String) (directory : String) : Bool :=
  excludes patterns
    (String.ofList (dropEndWhile (· == '/') (forwardChars directory.toList) ++ ['/']))

end Roster.Exclusion
