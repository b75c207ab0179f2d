import Stencil.Command
import Stencil.Dump
import Stencil.Json.Token
import Stencil.Report
import Stencil.Summary

/-!
# Responses

What the command answers: an exit status and the texts for both output streams.
A template that is refused is status 1 and a report, wrong usage is status 2, an
input that cannot be read is status 3.
-/

set_option autoImplicit false

namespace Stencil

namespace Command

structure Response where
  status : Nat
  output : Text
  errors : Text
  deriving DecidableEq, Repr

inductive ReadError where
  | absent
  | denied
  | notDirectory
  | directory
  | nameTooLong
  | malformed
  | other (message : Text)
  deriving DecidableEq, Repr

def ReadError.message : ReadError → Text
  | absent => "No such file or directory (os error 2)".toList
  | denied => "Permission denied (os error 13)".toList
  | notDirectory => "Not a directory (os error 20)".toList
  | directory => "Is a directory (os error 21)".toList
  | nameTooLong => "File name too long (os error 36)".toList
  | malformed => "stream did not contain valid UTF-8".toList
  | other message => message

def decode (bytes : ByteArray) : Except ReadError Text :=
  match String.fromUTF8? bytes with
  | some s => .ok s.toList
  | none => .error .malformed

def faultMessage : Fault → Text
  | .oversized size => "input of ".toList ++ decimal size ++ " bytes is too long".toList
  | .reversed start stop | .unsliceable start stop | .overdrawn start stop _ =>
    "no text at ".toList ++ decimal start ++ ['.', '.'] ++ decimal stop

def failed (message : Text) : Response := ⟨3, [], "error: ".toList ++ message ++ ['\n']⟩

def Options.read (options : Options) (input : Text) : Outcome (List Token) :=
  if options.has .expr then return [.expression (← Expression.parse input)] else tokenize input

def Options.document (options : Options) (tokens : List Token) : Json :=
  match options.has .expr, tokens with
  | true, [.expression e] => e.toJson
  | _, _ => tokensJson tokens

def Options.render (options : Options) (tokens : List Token) : Text :=
  if options.has .check then (Summary.ofTokens tokens).render
  else if options.has .json then
    let layout := if options.has .pretty then Json.Layout.pretty else .compact
    (options.document tokens).render layout ++ ['\n']
  else dump tokens

def Options.respond (options : Options) (palette : Palette) (input : Except ReadError Text) :
    Response :=
  match input with
  | .error error => failed error.message
  | .ok input =>
    match options.read input with
    | .ok tokens => ⟨0, options.render tokens, []⟩
    | .error (.refused error) =>
      ⟨1, [], Report.render palette error options.origin.name input⟩
    | .error (.fault fault) => failed (faultMessage fault)

def versionResponse : Response := ⟨0, "bracex 0.1.0\n".toList, []⟩

def helpText : Text :=
  ("Show how a template splits into literal text and `\x7b...\x7d` expressions\n\n"
    ++ "Usage: bracex [OPTIONS] [INPUT]\n\n"
    ++ "Arguments:\n"
    ++ "  [INPUT]  Input file path (or \"-\" for stdin) [default: -]\n\n"
    ++ "Options:\n"
    ++ "      --expr     Treat the whole input as one expression instead of a template\n"
    ++ "      --json     Output as JSON\n"
    ++ "      --pretty   Pretty-print JSON output\n"
    ++ "      --check    Only report whether the input needs keyed or conditional handling\n"
    ++ "  -h, --help     Print help\n"
    ++ "  -V, --version  Print version\n").toList

def helpResponse : Response := ⟨0, helpText, []⟩

def usageResponse (error : UsageError) : Response :=
  ⟨2, [], "error: ".toList ++ error.message
    ++ "\n\nUsage: bracex [OPTIONS] [INPUT]\n\nFor more information, try '--help'.\n".toList⟩

end Command

end Stencil
