import MarkupTemplate.Code.Part
import MarkupTemplate.Text.Blank
import MarkupTemplate.Text.LetterCase
import MarkupTemplate.Text.Quoted
import MarkupTemplate.Text.WordChar

/-!
# Checking host code

Code written in a template may not call functions that run programs or touch files, include other
code, read the request through the superglobal variables, or run shell commands. The check looks at
the surface of the code, stripped of comments and of the contents of literals: a forbidden name that
is only data passes, and a call put together at run time is out of reach. Superglobals are also looked
for inside double-quoted literals, where the host language would read them.

Functions are tried in the order of the list, and the first violation found is the one reported.
-/

namespace MarkupTemplate.Code

def forbiddenFunctions : List Text :=
  ["eval", "exec", "system", "shell_exec", "passthru", "proc_open", "popen", "pcntl_exec", "assert",
    "create_function", "file_get_contents", "file_put_contents", "fopen", "fwrite", "unlink",
    "rmdir", "mkdir", "chmod", "chown", "include", "require", "include_once",
    "require_once"].map String.toList

def superglobals : List Text :=
  ["$_GET", "$_POST", "$_REQUEST", "$_COOKIE", "$_SERVER", "$_ENV", "$_FILES", "$_SESSION",
    "$GLOBALS"].map String.toList

inductive Violation
  | call (function : Text)
  | inclusion (statement : Text)
  | superglobal (name : Text)
  | shell
deriving DecidableEq

namespace Violation

def message : Violation → Text
  | call function =>
    "Dangerous function '".toList ++ function ++ "' is not allowed in template".toList
  | inclusion statement =>
    "Dangerous function '".toList ++ Text.lower statement ++ "' is not allowed in template".toList
  | superglobal name =>
    "Direct access to superglobal '".toList ++ name ++ "' is not allowed in template".toList
  | shell => "Shell execution using backticks is not allowed in template".toList

end Violation

def callsHere (name s : Text) : Bool :=
  match Text.dropWord? name s with
  | some (_, rest) => (Text.trimStart rest).head? == some '('
  | none => false

/-- Whether `name` is called in a text that follows the character `previous`. A name that continues a
word is another name. -/
def callsAfter (previous : Option Char) (name : Text) : Text → Bool
  | [] => false
  | c :: s =>
    (callsHere name (c :: s) && !previous.any isWordChar) || callsAfter (some c) name s

def calls (name s : Text) : Bool :=
  callsAfter none name s

def inclusionWord? (s : Text) : Option (Text × Text) :=
  match Text.dropWord? "include".toList s, Text.dropWord? "require".toList s with
  | some word, _ => some word
  | none, word? => word?

/-- An inclusion without parentheses that begins here: a keyword followed by a literal or a variable. -/
def inclusionHere? (s : Text) : Option Text :=
  match inclusionWord? s with
  | some (word, rest) =>
    let (suffix, rest) := (Text.dropWord? "_once".toList rest).getD ([], rest)
    if (Text.trimStart rest).head?.any fun c => c == '\'' || c == '"' || c == '$' then
      some (word ++ suffix)
    else none
  | none => none

def bindsKeyword (c : Char) : Bool :=
  isWordChar c || c == '$' || c == '>' || c == ':'

def inclusionAfter? (previous : Option Char) : Text → Option Text
  | [] => none
  | c :: s =>
    match inclusionHere? (c :: s) with
    | some statement =>
      if previous.any bindsKeyword then inclusionAfter? (some c) s else some statement
    | none => inclusionAfter? (some c) s

def inclusion? (s : Text) : Option Text :=
  inclusionAfter? none s

/-- The first violation in `code`, if there is one. -/
def violation? (code : Text) : Option Violation :=
  let clean := strip false code
  let interpolating := strip true code
  match forbiddenFunctions.find? (calls · clean) with
  | some name => some (.call name)
  | none =>
    match inclusion? clean with
    | some statement => some (.inclusion statement)
    | none =>
      match superglobals.find? (Text.occursIn · interpolating) with
      | some name => some (.superglobal name)
      | none => if clean.contains '\x60' then some .shell else none

def isSafe (code : Text) : Bool :=
  (violation? code).isNone

end MarkupTemplate.Code
