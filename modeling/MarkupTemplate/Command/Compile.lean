import MarkupTemplate.Command.Line
import MarkupTemplate.File.Compile

/-!
# The compiler's command line

The program compiles one template file and writes the page to standard output or to a file. It can
show the tokens or the tree instead. A missing file and a compile error are reported and make the exit
status one; other failures are left to the caller.

What is asked for is decided from the arguments alone, and the answer from the bytes of the template,
so reading and writing stay outside.
-/

namespace MarkupTemplate.Command

inductive CompileKey
  | help
  | output
  | strict
  | noAssets
  | tokens
  | tree
  | verbose
deriving DecidableEq

namespace Compile

def program : Text :=
  "expohtml".toList

def choices : List (Choice CompileKey) :=
  [⟨.help, ["-h".toList, "--help".toList], false⟩,
    ⟨.output, ["--output".toList, "-o".toList], true⟩,
    ⟨.strict, ["--strict".toList], false⟩,
    ⟨.noAssets, ["--no-assets".toList], false⟩,
    ⟨.tokens, ["--tokens".toList], false⟩,
    ⟨.tree, ["--tree".toList], false⟩,
    ⟨.verbose, ["--verbose".toList, "-v".toList], false⟩]

def usage : Text :=
  lines ["usage: expohtml [-h] [--output OUTPUT] [--strict] [--no-assets] [--tokens]",
    "                [--tree] [--verbose]",
    "                template"]

def help : Text :=
  usage ++ lines ["",
    "Compile a markup template to PHP",
    "",
    "positional arguments:",
    "  template              Template file to compile",
    "",
    "options:",
    "  -h, --help            show this help message and exit",
    "  --output OUTPUT, -o OUTPUT",
    "                        Write the compiled PHP here instead of stdout",
    "  --strict              Fail on unterminated tags, comments and raw-code",
    "                        blocks",
    "  --no-assets           Skip <load> asset injection",
    "  --tokens              Print the token list and exit",
    "  --tree                Print the template tree and exit",
    "  --verbose, -v         Debug logging and diagnostics"]

structure Request where
  template : Option Text := none
  output : Text := []
  strict : Bool := false
  injectAssets : Bool := true
  tokens : Bool := false
  tree : Bool := false
  verbose : Bool := false
  extras : List Text := []

inductive Call
  | exit (exit : Exit)
  | request (template : Text) (request : Request)

def finish (request : Request) : Call :=
  match request.template, request.extras with
  | none, _ => .exit (usageExit program usage (.missing "template".toList))
  | some template, [] => .request template request
  | some _, extras => .exit (usageExit program usage (.unrecognized extras))

def interpret (request : Request) : List (Event CompileKey) → Call
  | [] => finish request
  | .misuse e :: _ => .exit (usageExit program usage e)
  | .switch .help :: _ => .exit ⟨some 0, help, []⟩
  | .switch .strict :: rest => interpret { request with strict := true } rest
  | .switch .noAssets :: rest => interpret { request with injectAssets := false } rest
  | .switch .tokens :: rest => interpret { request with tokens := true } rest
  | .switch .tree :: rest => interpret { request with tree := true } rest
  | .switch .verbose :: rest => interpret { request with verbose := true } rest
  | .switch .output :: rest => interpret request rest
  | .value _ value :: rest => interpret { request with output := value } rest
  | .noValue _ :: rest => interpret { request with output := [] } rest
  | .operand value :: rest => interpret { request with template := some value } rest
  | .extra argument :: rest =>
    interpret { request with extras := request.extras ++ [argument] } rest

def call (arguments : List Text) : Call :=
  interpret {} (events choices true arguments)

structure Answer where
  exit : Exit
  save : Option (Text × Text)

def errorExit (log message : Text) : Answer :=
  ⟨⟨some 1, [], log ++ "error: ".toList ++ message ++ ['\n']⟩, none⟩

def logText (verbose : Bool) (log : List LogEntry) : Text :=
  (log.filter fun entry => verbose || entry.isWarning).flatMap fun entry => entry.line ++ ['\n']

def Request.options (request : Request) : Options :=
  { strict := request.strict, collect := request.verbose, injectAssets := request.injectAssets }

def present (request : Request) (log : Text) (template : Template) : Answer :=
  let stderr := log ++ template.diagnostics.flatMap fun d =>
    "warning: ".toList ++ d.text ++ ['\n']
  if request.tokens then
    ⟨⟨some 0, template.tokens.flatMap fun t => t.describe ++ ['\n'], stderr⟩, none⟩
  else if request.tree then
    ⟨⟨some 0, template.document.outline ++ ['\n'], stderr⟩, none⟩
  else if request.output.isEmpty then ⟨⟨some 0, template.output, stderr⟩, none⟩
  else ⟨⟨some 0, [], stderr⟩, some (request.output, template.output)⟩

def answer (template : Text) (request : Request) (content : Except FileError Bytes) :
    Except FileFailure Answer :=
  match content with
  | .error ⟨.noSuchFile, _⟩ =>
    .ok (errorExit [] ("template file not found: ".toList ++ Path.display template))
  | .error e => .error (.file e)
  | .ok content =>
    match decodeFile request.options.fileEncoding content with
    | .error e => .error e
    | .ok source =>
      let compilation := compile request.options source
      let log := logText request.verbose compilation.log
      match compilation.outcome with
      | .ok template => .ok (present request log template)
      | .error (.template e) =>
        .ok (errorExit log ("[".toList ++ e.kind.code ++ "] ".toList ++ e.message))
      | .error e => .error (.compiling e)

end Compile

end MarkupTemplate.Command

namespace MarkupTemplate.Volume

def run (volume : Volume) (arguments : List Text) :
    Volume × Except FileFailure Command.Exit :=
  match Command.Compile.call arguments with
  | .exit exit => (volume, .ok exit)
  | .request template request =>
    match Command.Compile.answer template request (volume.read template) with
    | .error e => (volume, .error e)
    | .ok ⟨exit, none⟩ => (volume, .ok exit)
    | .ok ⟨exit, some (path, text)⟩ =>
      match volume.writeText path request.options.fileEncoding text with
      | (volume, .ok ()) => (volume, .ok exit)
      | (volume, .error e) => (volume, .error e)

end MarkupTemplate.Volume
