import MarkupTemplate.Text.Blank

/-!
# Filters

A filter turns the host expression of a value into another. Most are a call of a host function with
the value first, some take their option first, and one shortens thousands. The link filter is apart:
it builds an anchor from the value and ends the chain. A filter says whether its result still has to
be escaped for markup, and some have an option of their own for when none is written.
-/

namespace MarkupTemplate.Expression

inductive Shape
  | call (function : Text)
  | optionFirst (function : Text)
  | thousands
deriving DecidableEq

structure Transform where
  shape : Shape
  standard : Option Text
  needsEscape : Bool
deriving DecidableEq

inductive Filter
  | transform (t : Transform)
  | link
deriving DecidableEq

def parenthesized (code : Text) : Text :=
  '(' :: code ++ [')']

def Shape.emit (code : Text) (option : Option Text) : Shape → Text
  | .call function =>
    match option with
    | none => function ++ parenthesized code
    | some option => function ++ parenthesized (code ++ [',', ' '] ++ option)
  | .optionFirst function =>
    match option with
    | none => function ++ parenthesized code
    | some option => function ++ parenthesized (option ++ [',', ' '] ++ code)
  | .thousands =>
    "number_format".toList ++
      parenthesized (code ++ "/1000, ".toList ++ option.getD ['0']) ++ ".'K'".toList

inductive EmitError
  | link
deriving DecidableEq

def EmitError.message : EmitError → Text
  | .link => "Unsupported filter rule: LinkFilter()".toList

def Filter.emit (code : Text) (option : Option Text) : Filter → Except EmitError Text
  | .transform t => .ok (t.shape.emit code option)
  | .link => .error .link

def Transform.apply (t : Transform) (code : Text) (option : Option Text) : Text :=
  t.shape.emit code (option.or t.standard)

private def calling (function : String) (needsEscape : Bool) : Filter :=
  .transform ⟨.call function.toList, none, needsEscape⟩

def filters : List (Text × Filter) :=
  [("escapejs".toList, .transform ⟨.call "json_encode".toList,
      some "JSON_HEX_TAG | JSON_HEX_APOS | JSON_HEX_QUOT | JSON_HEX_AMP".toList, false⟩),
    ("json".toList, calling "json_encode" false),
    ("strip".toList, calling "strip_tags" true),
    ("trim".toList, calling "trim" true),
    ("urlencode".toList, calling "rawurlencode" false),
    ("lower".toList, calling "strtolower" true),
    ("upper".toList, calling "strtoupper" true),
    ("nl2br".toList, calling "nl2br" false),
    ("join".toList, .transform ⟨.optionFirst "implode".toList, some "', '".toList, true⟩),
    ("date".toList, .transform ⟨.optionFirst "date".toList, some "'Y-m-d H:i:s'".toList, false⟩),
    ("number_format".toList, calling "number_format" false),
    ("number_shorten".toList, .transform ⟨.thousands, some ['2'], false⟩),
    ("link".toList, .link)]

def filter? (name : Text) : Option Filter :=
  filters.lookup name

/-- The name and the option of a filter as written, `name:option`. -/
def splitFilter (segment : Text) : Text × Option Text :=
  let (name, option) := Text.partition [':'] segment
  (Text.trim name, match Text.trim option with
    | [] => none
    | option => some option)

end MarkupTemplate.Expression
