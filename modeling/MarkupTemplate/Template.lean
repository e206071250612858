import MarkupTemplate.Node.Builder
import MarkupTemplate.Options
import MarkupTemplate.Session

/-!
# Compiling a template

A source is scanned, its tree is built, and the tree is rendered in a session of its own. In strict
mode scanning stops at the first construct that the source leaves open, before anything is logged.
-/

namespace MarkupTemplate

structure Template where
  tokens : List Token
  document : Document
  output : Text
  diagnostics : List Diagnostic

def Template.describe (template : Template) : Text :=
  "<Template tokens=".toList ++ Text.ofNat template.tokens.length ++ " errors=".toList ++
    Text.ofNat template.diagnostics.length ++ ['>']

structure Compilation where
  log : List LogEntry
  outcome : Except Failure Template

def fragmentLength : Nat := 40

/-- The tokens from a place in the source on. In strict mode the first construct that is left open ends
the run. -/
def scanFrom (strict : Bool) (mode : Scan.Mode) (position : Nat) (s : Text) :
    Except TemplateError (List Token) :=
  match s with
  | [] => .ok []
  | c :: s =>
    let next := Scan.step mode c s
    match strict, next.piece.cut with
    | true, some construct => .error (.cutShort construct ((c :: s).take fragmentLength))
    | _, _ =>
      (scanFrom strict next.mode (position + next.piece.source.length) next.rest).map
        (⟨next.piece.lexeme, position⟩ :: ·)
termination_by s.length
decreasing_by exact Scan.length_rest_step mode c s

def scan (strict : Bool) (source : Text) : Except TemplateError (List Token) :=
  scanFrom strict .content 0 source

def compileWith (rendering : Document → Rendered Page) (options : Options) (source : Text) :
    Compilation :=
  match scan options.strict source with
  | .error e => ⟨[], .error (.template e)⟩
  | .ok tokens =>
    let builder := build options.collect tokens
    let result := (Session.start options.injectAssets).complete (rendering builder.roots)
    let diagnostics := (if options.collect then Scan.diagnostics source else []) ++
      builder.diagnostics
    ⟨[.scanned source.length tokens.length, .built builder.roots.length] ++ result.log,
      result.outcome.map fun output => ⟨tokens, builder.roots, output, diagnostics⟩⟩

def compile (options : Options) (source : Text) : Compilation :=
  compileWith renderAll options source

def compileText (strict injectAssets : Bool) (source : Text) : Except Failure Text :=
  (compile { strict, injectAssets } source).outcome.map (·.output)

def compileTextOn (stack : Stack) (strict injectAssets : Bool) (source : Text) :
    Except Failure Text :=
  (compileWith (renderAllOn stack) { strict, injectAssets } source).outcome.map (·.output)

end MarkupTemplate
