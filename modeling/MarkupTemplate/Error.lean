import MarkupTemplate.Code.Check
import MarkupTemplate.Text.Integer
import MarkupTemplate.Token.Scan

/-!
# Compile errors

Each way in which compiling a template can fail is a cause of its own. A report is what the caller
sees of it: the kind of error, a message, and the fragment of the template that it is about. An index
attribute with more digits than an integer may have is not an error of the template; it stands apart.
So does a tree that is too deep for the stack, and what a node made by hand may lack.
-/

namespace MarkupTemplate

inductive ErrorKind
  | general
  | lexical
  | structural
  | security
  | filter
deriving DecidableEq

namespace ErrorKind

def all : List ErrorKind :=
  [general, lexical, structural, security, filter]

def label : ErrorKind → Text
  | general => "TemplateError".toList
  | lexical => "LexError".toList
  | structural => "StructureError".toList
  | security => "SecurityError".toList
  | filter => "FilterError".toList

def code : ErrorKind → Text
  | general => "template-error".toList
  | lexical => "lex-error".toList
  | structural => "structure-error".toList
  | security => "security-error".toList
  | filter => "filter-error".toList

def ofLabel? (s : Text) : Option ErrorKind :=
  all.find? fun kind => kind.label = s

end ErrorKind

structure ErrorReport where
  kind : ErrorKind
  message : Text
  fragment : Option Text
deriving DecidableEq

def ErrorReport.describe (report : ErrorReport) : Text :=
  report.kind.label ++ ['('] ++ Text.quoted report.message ++
  (match report.fragment with
    | some fragment => ", fragment=".toList ++ Text.quoted fragment
    | none => []) ++ [')']

inductive TemplateError
  | cutShort (construct : Construct) (fragment : Text)
  | emptyLoop
  | incompleteLoop (expr : Text)
  | missingExpression (directive element : Text)
  | missingTarget (element : Text)
  | unsupportedSlot (slot target : Text)
  | unsupportedLoad (extension target : Text)
  | unsupportedUnload (extension target : Text)
  | forbidden (violation : Code.Violation) (code : Text)
  | invalidVariable (var : Text)
  | unknownFilter (name expr : Text)
deriving DecidableEq

namespace TemplateError

def kind : TemplateError → ErrorKind
  | cutShort .. => .lexical
  | emptyLoop | incompleteLoop _ | missingExpression .. | missingTarget _ | unsupportedSlot ..
  | unsupportedLoad .. | unsupportedUnload .. => .structural
  | forbidden .. => .security
  | invalidVariable _ | unknownFilter .. => .filter

def message : TemplateError → Text
  | cutShort construct _ => construct.message
  | emptyLoop => "Empty loop expression".toList
  | incompleteLoop expr => "Incomplete loop expression: ".toList ++ expr
  | missingExpression directive element =>
    "'".toList ++ directive ++ "' attribute on <".toList ++ element ++
      "> needs an expression".toList
  | missingTarget element =>
    "Missing 'target' attribute in <".toList ++ element ++ "> tag".toList
  | unsupportedSlot slot _ =>
    "Unsupported script slot in <load>: ".toList ++ slot ++ ". Use 'head' or 'body'.".toList
  | unsupportedLoad extension _ =>
    "Unsupported file type in <load>: ".toList ++ extension ++
      ". Only .css and .js are supported.".toList
  | unsupportedUnload extension _ =>
    "Unsupported file type in <unload>: ".toList ++ extension
  | forbidden violation _ => violation.message
  | invalidVariable var => "Invalid variable expression: ".toList ++ var
  | unknownFilter name _ => "Unknown filter: ".toList ++ name

def fragment : TemplateError → Option Text
  | cutShort _ fragment => some fragment
  | emptyLoop => some []
  | incompleteLoop expr => some expr
  | missingExpression directive _ => some directive
  | missingTarget _ => none
  | unsupportedSlot _ target => some target
  | unsupportedLoad _ target => some target
  | unsupportedUnload _ target => some target
  | forbidden _ code => some code
  | invalidVariable var => some var
  | unknownFilter _ expr => some expr

def report (e : TemplateError) : ErrorReport :=
  ⟨e.kind, e.message, e.fragment⟩

end TemplateError

/-- What is asked of a node made by hand that does not have it: text in an attribute to which no value
was given, the data of an element that carries the name of a leaf, the attributes of a document, or the
tag name of a node of a kind that has none. -/
inductive Absence
  | value
  | data
  | attributes
  | tagName (kind : Text)
deriving DecidableEq

namespace Absence

def owner : Absence → Text
  | value => "NoneType".toList
  | data => "ElementNode".toList
  | attributes => "DocumentNode".toList
  | tagName kind => kind

def property : Absence → Text
  | value => "strip".toList
  | data => "data".toList
  | attributes => "attrs".toList
  | tagName _ => "tag_name".toList

def message (absence : Absence) : Text :=
  "'".toList ++ absence.owner ++ "' object has no attribute '".toList ++ absence.property ++ ['\'']

end Absence

inductive Failure
  | template (error : TemplateError)
  | tooManyDigits (index : Text.TooManyDigits)
  | absent (absence : Absence)
  | tooDeep
deriving DecidableEq

def Text.TooManyDigits.message (e : Text.TooManyDigits) : Text :=
  "Exceeds the limit (".toList ++ Text.ofNat Text.digitLimit ++
    " digits) for integer string conversion: value has ".toList ++ Text.ofNat e.count ++
    " digits; use sys.set_int_max_str_digits() to increase the limit".toList

namespace Failure

def label : Failure → Text
  | template e => e.kind.label
  | tooManyDigits _ => "ValueError".toList
  | absent _ => "AttributeError".toList
  | tooDeep => "RecursionError".toList

def message : Failure → Text
  | template e => e.message
  | tooManyDigits e => e.message
  | absent e => e.message
  | tooDeep => "maximum recursion depth exceeded".toList

end Failure

def Code.checked (code : Text) : Except TemplateError Text :=
  match Code.violation? code with
  | some violation => .error (.forbidden violation code)
  | none => .ok code

end MarkupTemplate
