import Roster.Text.Quoted
import Roster.Text.Segments
import Roster.Text.Similarity

/-! Arguments of a command: options, which begin with a dash and may take a value, and operands. Two dashes alone
end the options. -/

namespace Roster.Command

open Roster.Text

inductive Switch where
  | help
  | version
  | basePath
  | appPath
  | cachePath
  | interface
  | vendor
  | allVendors
  | format
  | batchSize
  | progressive
  | noProgressive
  | memoryLimit
  | verbose
deriving DecidableEq, Repr

namespace Switch

def long : Switch → String
  | help => "--help"
  | version => "--version"
  | basePath => "--base-path"
  | appPath => "--app-path"
  | cachePath => "--cache-path"
  | interface => "--interface"
  | vendor => "--vendor"
  | allVendors => "--all-vendors"
  | format => "--format"
  | batchSize => "--batch-size"
  | progressive => "--progressive"
  | noProgressive => "--no-progressive"
  | memoryLimit => "--memory-limit"
  | verbose => "--verbose"

def short? : Switch → Option Char
  | interface => some 'i'
  | verbose => some 'v'
  | _ => none

def takesValue : Switch → Bool
  | help | version | allVendors | progressive | noProgressive | verbose => false
  | _ => true

/-- Whether it ends the command before anything else is looked at. -/
def isEager : Switch → Bool
  | help | version => true
  | _ => false

end Switch

/-- What is wrong with a value. -/
inductive ValueFault where
  | isFile (path : String)
  | notAmong (value : String) (choices : List String)
  | notInteger (value : String)
  | tooSmall (value : Int)
deriving DecidableEq, Repr

def ValueFault.message : ValueFault → String
  | .isFile path => "Directory " ++ quoted path ++ " is a file."
  | .notAmong value choices =>
      quoted value ++ " is not one of " ++ ", ".intercalate (choices.map quoted) ++ "."
  | .notInteger value => quoted value ++ " is not a valid integer range."
  | .tooSmall value => s!"{value} is not in the range x>=1."

/-- Why a command line is refused. -/
inductive UsageFault where
  | noSuchOption (name : String) (similar : List String)
  | needsArgument (name : String)
  | takesNoValue (name : String)
  | noSuchCommand (name : String)
  | missingCommand
  | missingArgument (name : String)
  | missingOption (switch : Switch)
  | invalidValue (switch : Switch) (fault : ValueFault)
  | extraArguments (operands : List String)
deriving DecidableEq, Repr

namespace UsageFault

def message : UsageFault → String
  | noSuchOption name similar =>
      let hint := match similar with
        | [] => ""
        | [one] => s!" Did you mean {one}?"
        | several =>
            let sorted := several.mergeSort fun a b => !decide (b < a)
            " (Possible options: " ++ ", ".intercalate sorted ++ ")"
      s!"No such option: {name}{hint}"
  | needsArgument name => "Option " ++ quoted name ++ " requires an argument."
  | takesNoValue name => "Option " ++ quoted name ++ " does not take a value."
  | noSuchCommand name => "No such command " ++ quoted name ++ "."
  | missingCommand => "Missing command."
  | missingArgument name => s!"Missing argument '{name}'."
  | missingOption switch => "Missing option " ++ quoted switch.long ++ "."
  | invalidValue switch fault => "Invalid value for " ++ quoted switch.long ++ ": " ++ fault.message
  | extraArguments operands =>
      let plural := if operands.length = 1 then "" else "s"
      s!"Got unexpected extra argument{plural} (" ++ " ".intercalate operands ++ ")"

/-- Whether the command's usage is shown too. -/
def showsUsage : UsageFault → Bool
  | needsArgument _ | takesNoValue _ => false
  | _ => true

end UsageFault

/-- Options in the order in which they were given, an empty value for those that take none, and operands. -/
structure Arguments where
  options : List (Switch × String) := []
  operands : List String := []

namespace Arguments

def addOptions (added : List (Switch × String)) (arguments : Arguments) : Arguments :=
  { arguments with options := added ++ arguments.options }

/-- The options in a row of letters. One that takes a value takes the letters behind it; if there are none, it
still waits for its value. -/
def readLetters (switches : List Switch) :
    List Char → Except UsageFault (List (Switch × String) × Option Switch)
  | [] => .ok ([], none)
  | c :: cs =>
      match switches.find? (·.short? = some c) with
      | none => .error (.noSuchOption (String.ofList ['-', c]) [])
      | some switch =>
          if switch.takesValue then
            if cs.isEmpty then .ok ([], some switch) else .ok ([(switch, String.ofList cs)], none)
          else do
            let (options, waiting) ← readLetters switches cs
            return ((switch, "") :: options, waiting)

/-- What one argument with a dash holds: options, and one that waits for its value under the name it was given. -/
def readOption (switches : List Switch) (arg : String) :
    Except UsageFault (List (Switch × String) × Option (Switch × String)) :=
  let name := String.ofList (arg.toList.takeWhile (· != '='))
  let explicit := (arg.toList.drop name.length).tail
  let hasExplicit := arg.toList.contains '='
  match switches.find? (·.long = name) with
  | some switch =>
      if switch.takesValue then
        if hasExplicit then .ok ([(switch, String.ofList explicit)], none)
        else .ok ([], some (switch, name))
      else if hasExplicit then .error (.takesNoValue name)
      else .ok ([(switch, "")], none)
  | none =>
      match arg.toList with
      | '-' :: '-' :: _ => .error (.noSuchOption name (closeMatches name (switches.map (·.long))))
      | letters => do
          let (options, waiting) ← readLetters switches letters.tail
          return (options, waiting.map fun switch =>
            (switch, String.ofList ['-', switch.short?.getD '-']))

/-- Whether an argument stands for options; a dash alone does not. -/
def isOption (arg : String) : Bool :=
  match arg.toList with
  | '-' :: _ :: _ => true
  | _ => false

/-- Reads arguments. Unless `mixed`, the first operand ends the options. -/
def read (switches : List Switch) (mixed : Bool) : List String → Except UsageFault Arguments
  | [] => .ok {}
  | arg :: rest =>
      if arg = "--" then .ok { operands := rest }
      else if isOption arg then
        match readOption switches arg with
        | .error fault => .error fault
        | .ok (options, none) => do
            return (← read switches mixed rest).addOptions options
        | .ok (options, some (switch, name)) =>
            match rest with
            | [] => .error (.needsArgument name)
            | value :: rest => do
                return (← read switches mixed rest).addOptions (options ++ [(switch, value)])
      else if mixed then do
        let arguments ← read switches mixed rest
        return { arguments with operands := arg :: arguments.operands }
      else .ok { operands := arg :: rest }

def has (arguments : Arguments) (switch : Switch) : Bool :=
  arguments.options.any (·.1 = switch)

/-- All values of an option, in order. -/
def values (arguments : Arguments) (switch : Switch) : List String :=
  (arguments.options.filter (·.1 = switch)).map (·.2)

/-- The value of an option; the last one counts. -/
def value? (arguments : Arguments) (switch : Switch) : Option String :=
  (arguments.values switch).getLast?

/-- The given options by first appearance. -/
def given (arguments : Arguments) : List Switch :=
  (arguments.options.map (·.1)).eraseDups

/-- The first option that ends the command at once. -/
def eager? (arguments : Arguments) : Option Switch :=
  arguments.given.find? (·.isEager)

end Arguments

end Roster.Command
