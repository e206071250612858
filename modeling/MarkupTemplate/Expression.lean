import MarkupTemplate.Error
import MarkupTemplate.Expression.Filter

/-!
# Interpolated expressions

An expression names a variable and passes it through filters, `name|filter:option|directive`. It is
compiled to one expression of the host language. The value is escaped for markup at the end of the
chain, once, unless the last filter makes that needless or a directive has turned it off. Directives
change only the escaping.
-/

namespace MarkupTemplate.Expression

def htmlEscape : Text :=
  "htmlspecialchars".toList

def escapeCall (handler code : Text) : Text :=
  if handler = htmlEscape then
    handler ++ parenthesized (code ++ ", ENT_QUOTES | ENT_SUBSTITUTE, 'UTF-8'".toList)
  else handler ++ parenthesized code

def directives : List (Text × Option Text) :=
  [("auto".toList, some htmlEscape), ("autoescape".toList, some htmlEscape),
    ("escape".toList, some htmlEscape), ("autolang".toList, some htmlEscape),
    ("noescape".toList, none)]

def isVariableStart (c : Char) : Bool :=
  c == '$' || ('a' ≤ c && c ≤ 'z') || ('A' ≤ c && c ≤ 'Z') || c == '_'

def isVariableChar (c : Char) : Bool :=
  isWordChar c || ['[', ']', '-', '>', '$', '(', ')', '\'', '"', '.', ',', ' '].contains c

def isVariable : Text → Bool
  | [] => false
  | c :: s => isVariableStart c && s.all isVariableChar

def compileVariable (var : Text) : Except TemplateError Text :=
  let var := Text.trim var
  if isVariable var then .ok (if var.head? = some '$' then var else '$' :: var)
  else .error (.invalidVariable var)

/-- An anchor whose address is the value and whose text is `label`, or the value where there is
none. -/
def link (code : Text) (label handler : Option Text) : Text :=
  let escaped (code : Text) : Text := (handler.map (escapeCall · code)).getD code
  let address := escaped code
  let content := match label with
    | some label => (handler.map (escapeCall · ("(string)".toList ++ label))).getD label
    | none => address
  "'<a href=\"' . ".toList ++ parenthesized address ++ " . '\">' . ".toList ++
    parenthesized content ++ " . '</a>'".toList

inductive Segment
  | directive (handler : Option Text)
  | filter (filter : Filter) (option : Option Text)
  | unknown (name : Text)
deriving DecidableEq

def Segment.read (s : Text) : Segment :=
  match directives.lookup (Text.trim s) with
  | some handler => .directive handler
  | none =>
    let (name, option) := splitFilter (Text.trim s)
    match filter? name with
    | some f => .filter f option
    | none => .unknown name

structure Chain where
  code : Text
  handler : Option Text
  needsEscape : Bool

namespace Chain

def start (code : Text) : Chain :=
  ⟨code, some htmlEscape, true⟩

def result (chain : Chain) : Text :=
  match chain.handler with
  | some handler => if chain.needsEscape then escapeCall handler chain.code else chain.code
  | none => chain.code

def run (expr : Text) (chain : Chain) : List Segment → Except TemplateError Text
  | [] => .ok chain.result
  | .directive handler :: rest => run expr { chain with handler, needsEscape := handler.isSome } rest
  | .unknown name :: _ => .error (.unknownFilter name expr)
  | .filter .link option :: _ => .ok (link chain.code option chain.handler)
  | .filter (.transform t) option :: rest =>
    run expr { chain with code := t.apply chain.code option, needsEscape := t.needsEscape } rest

end Chain

/-- The host expression for the text between the marks of an interpolation. -/
def compile (expr : Text) : Except TemplateError Text :=
  match List.splitOn '|' expr with
  | [] => .error (.invalidVariable [])
  | var :: segments =>
    match compileVariable var with
    | .ok code => (Chain.start code).run expr (segments.map Segment.read)
    | .error e => .error e

end MarkupTemplate.Expression
