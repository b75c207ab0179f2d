import Stencil.Text.Basic

/-!
# The command line

Arguments are read from the left, and the first one that is wrong, or that asks
for the version or the help, decides. Which flags go together is looked at
after all of them are read. After two dashes alone all arguments are inputs.
-/

set_option autoImplicit false

namespace Stencil

namespace Command

inductive Flag where
  | expr
  | json
  | pretty
  | check
  deriving DecidableEq, Repr

def Flag.name : Flag → String
  | expr => "--expr"
  | json => "--json"
  | pretty => "--pretty"
  | check => "--check"

def Flag.all : List Flag := [expr, json, pretty, check]

structure Options where
  flags : List Flag
  input : Option Text
  deriving DecidableEq, Repr

inductive Request where
  | run (options : Options)
  | version
  | help
  deriving DecidableEq, Repr

inductive UsageError where
  | unexpected (argument : Text)
  | repeated (flag : Flag)
  | conflicting (first second : Flag)
  | missing (flag : Flag)
  deriving DecidableEq, Repr

inductive Argument where
  | flag (flag : Flag)
  | version
  | help
  | dashes
  | input (text : Text)
  | unknown (text : Text)
  deriving DecidableEq, Repr

def Argument.ofText (t : Text) : Argument :=
  match Flag.all.find? fun flag => flag.name.toList = t with
  | some f => flag f
  | none =>
    if t = "--version".toList then version
    else if t = "--help".toList then help
    else
      -- Of short options written together the first counts.
      match t with
      | ['-', '-'] => dashes
      | ['-'] => input t
      | '-' :: 'V' :: _ => version
      | '-' :: 'h' :: _ => help
      | '-' :: _ => unknown t
      | _ => input t

def Options.has (options : Options) (flag : Flag) : Bool := options.flags.contains flag

def Options.setInput (options : Options) (t : Text) : Except UsageError Options :=
  match options.input with
  | none => .ok { options with input := some t }
  | some _ => .error (.unexpected t)

def Options.setFlag (options : Options) (flag : Flag) : Except UsageError Options :=
  if options.has flag then .error (.repeated flag)
  else .ok { options with flags := options.flags ++ [flag] }

def Options.validate (options : Options) : Except UsageError Request :=
  if options.has .json && options.has .check then .error (.conflicting .check .json)
  else if options.has .pretty && !options.has .json && !options.has .check then
    .error (.missing .json)
  else .ok (.run options)

def inputs (options : Options) : List Text → Except UsageError Options
  | [] => .ok options
  | t :: rest => do inputs (← options.setInput t) rest

def parseFrom (options : Options) : List Text → Except UsageError Request
  | [] => options.validate
  | t :: rest =>
    match Argument.ofText t with
    | .flag flag => do parseFrom (← options.setFlag flag) rest
    | .input t => do parseFrom (← options.setInput t) rest
    | .dashes => do (← inputs options rest).validate
    | .version => .ok .version
    | .help => .ok .help
    | .unknown t => .error (.unexpected t)

def parse (arguments : List Text) : Except UsageError Request := parseFrom ⟨[], none⟩ arguments

inductive Origin where
  | standardInput
  | file (name : Text)
  deriving DecidableEq, Repr

def Options.origin (options : Options) : Origin :=
  match options.input with
  | none => .standardInput
  | some name => if name = ['-'] then .standardInput else .file name

def Origin.name : Origin → Text
  | standardInput => "<stdin>".toList
  | file name => name

def UsageError.message : UsageError → Text
  | unexpected t => "unexpected argument '".toList ++ t ++ "' found".toList
  | repeated flag =>
    "the argument '".toList ++ flag.name.toList ++ "' cannot be used multiple times".toList
  | conflicting first second =>
    "the argument '".toList ++ first.name.toList ++ "' cannot be used with '".toList
      ++ second.name.toList ++ ['\'']
  | missing flag =>
    "the following required arguments were not provided:\n  ".toList ++ flag.name.toList

end Command

end Stencil
