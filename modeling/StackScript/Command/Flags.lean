import StackScript.Command.Duration
import StackScript.Text.Quoted
set_option autoImplicit false

/-!
# Flags

A flag is `-name` or `--name`, with its value after an equals sign or, unless it
is a switch, in the next argument.  Flags end at the first argument that is none,
at `-`, or after `--`; what follows are the names of files.
-/

namespace StackScript.Command

/-- What the arguments ask for. -/
structure Settings where
  /-- a time limit in nanoseconds, or zero -/
  timeout : Int
  trace : Bool
  debug : Bool
  verbose : Bool
  /-- whether the command remarks on what it does -/
  chatty : Bool
  /-- whether files are only checked -/
  check : Bool
  /-- whether files are only shown as trees -/
  tree : Bool
  /-- the recursion limit asked for, or zero -/
  recursionLimit : Int
  names : List Bytes
  deriving DecidableEq, Repr, Inhabited

/-- Nothing asked for. -/
def Settings.default : Settings := ⟨0, false, false, false, false, false, false, 0, []⟩

/-- Why arguments cannot be used. -/
inductive FlagError where
  | badForm (arg : Bytes)
  | undefined (name : Bytes)
  | badSwitch (value name : Bytes)
  | noValue (name : Bytes)
  | badValue (value name reason : Bytes)
  /-- only the usage was asked for -/
  | help
  deriving DecidableEq, Repr, Inhabited

/-- The error in words; asking for help is none. -/
def FlagError.message? : FlagError → Option Bytes
  | .badForm arg => some (ascii "bad flag syntax: " ++ arg)
  | .undefined name => some (ascii "flag provided but not defined: -" ++ name)
  | .badSwitch value name =>
    some (ascii "invalid boolean value " ++ Text.quoted value ++ ascii " for -" ++ name ++
      ascii ": parse error")
  | .noValue name => some (ascii "flag needs an argument: -" ++ name)
  | .badValue value name reason =>
    some (ascii "invalid value " ++ Text.quoted value ++ ascii " for flag -" ++ name ++
      ascii ": " ++ reason)
  | .help => none

/-- The truth value that a text stands for. -/
def truth? (text : Bytes) : Option Bool :=
  if ["1", "t", "T", "true", "TRUE", "True"].any fun s => ascii s == text then some true
  else if ["0", "f", "F", "false", "FALSE", "False"].any fun s => ascii s == text then some false
  else none

/-- How a flag acts on the settings. -/
inductive Flag where
  /-- a switch -/
  | switch (set : Bool → Settings → Settings)
  /-- a flag with a value -/
  | valued (set : Bytes → Except Bytes (Settings → Settings))

/-- The flag with a name. -/
def flag? (name : Bytes) : Option Flag :=
  if name = ascii "trace" then some (.switch fun b s => { s with trace := b })
  else if name = ascii "debug" then some (.switch fun b s => { s with debug := b })
  else if name = ascii "verbose" then some (.switch fun b s => { s with verbose := b })
  else if name = ascii "v" then some (.switch fun b s => { s with chatty := b })
  else if name = ascii "check" then some (.switch fun b s => { s with check := b })
  else if name = ascii "tree" then some (.switch fun b s => { s with tree := b })
  else if name = ascii "timeout" then
    some (.valued fun text =>
      match duration? text with
      | some d => .ok fun s => { s with timeout := d }
      | none => .error (ascii "parse error"))
  else if name = ascii "recursion-limit" then
    some (.valued fun text =>
      match integer text with
      | .ok n => .ok fun s => { s with recursionLimit := n }
      | .error e => .error e.message)
  else none

/-- What an argument is. -/
inductive Argument where
  /-- the name of a file -/
  | operand
  /-- the mark after which all arguments are names of files -/
  | endOfFlags
  | malformed
  | flag (name : Bytes) (value : Option Bytes)
  deriving DecidableEq, Repr, Inhabited

/-- A flag's name and its value, if there is one after an equals sign.  The first
byte of a name is never taken for that sign. -/
def splitValue : Bytes → Bytes × Option Bytes
  | [] => ([], none)
  | b :: rest =>
    let name := b :: rest.takeWhile (· != 61)
    match rest.dropWhile (· != 61) with
    | [] => (name, none)
    | _ :: value => (name, some value)

/-- What a flag without its leading minus signs is. -/
def Argument.ofName (text : Bytes) : Argument :=
  match text with
  | [] => .malformed
  | b :: _ =>
    if b = 45 ∨ b = 61 then .malformed
    else
      let (name, value) := splitValue text
      .flag name value

/-- What an argument is. -/
def Argument.ofBytes : Bytes → Argument
  | 45 :: 45 :: [] => .endOfFlags
  | 45 :: 45 :: name => .ofName name
  | 45 :: [] => .operand
  | 45 :: name => .ofName name
  | _ => .operand

/-- Reads arguments from left to right. -/
def parseFlags (s : Settings) : List Bytes → Except FlagError Settings
  | [] => .ok { s with names := [] }
  | arg :: rest =>
    match Argument.ofBytes arg with
    | .operand => .ok { s with names := arg :: rest }
    | .endOfFlags => .ok { s with names := rest }
    | .malformed => .error (.badForm arg)
    | .flag name value =>
      match flag? name with
      | none =>
        .error (if name = ascii "help" ∨ name = ascii "h" then .help else .undefined name)
      | some (.switch set) =>
        match value with
        | none => parseFlags (set true s) rest
        | some text =>
          match truth? text with
          | some b => parseFlags (set b s) rest
          | none => .error (.badSwitch text name)
      | some (.valued set) =>
        match value, rest with
        | some text, rest =>
          match set text with
          | .ok f => parseFlags (f s) rest
          | .error reason => .error (.badValue text name reason)
        | none, [] => .error (.noValue name)
        | none, text :: rest =>
          match set text with
          | .ok f => parseFlags (f s) rest
          | .error reason => .error (.badValue text name reason)

/-- How the command is used. -/
def usage : Bytes :=
  ascii "Usage of psil:\n" ++
  ascii "  -check\n    \tonly parse the given files, reporting any syntax errors\n" ++
  ascii "  -debug\n    \tenable debug logging\n" ++
  ascii "  -recursion-limit int\n    \tlimit nested list evaluation depth\n" ++
  ascii "  -timeout duration\n    \tspecify a time limit\n" ++
  ascii "  -trace\n    \tenable trace logging\n" ++
  ascii "  -tree\n    \tprint the parsed token tree instead of running\n" ++
  ascii "  -v\tverbose command output\n" ++
  ascii "  -verbose\n    \tenable info logging\n"

end StackScript.Command
