import MarkupTemplate.Error

/-!
# Loops

A loop expression has one of three forms: the host language's own `items as $v`, the arrow form
`items=>$v` or `items=>$k,$v`, and the counted form `$i=0;$i<10;$i++`. An `as` between blanks marks the
first, an arrow the second, and anything else is the third.
-/

namespace MarkupTemplate

inductive Loop
  | native (expr : Text)
  | values (collection value : Text)
  | pairs (collection key value : Text)
  | counted (expr : Text)
deriving DecidableEq

namespace Loop

def hasAs : Text → Bool
  | [] => false
  | c :: s =>
    (isBlank c && match s with
      | 'a' :: 's' :: d :: _ => isBlank d
      | _ => false) || hasAs s

def arrow : Text :=
  ['=', '>']

def ofArrow (expr left right : Text) : Except TemplateError Loop :=
  let collection := Text.trim left
  let names := Text.trim right
  if collection.isEmpty || names.isEmpty then .error (.incompleteLoop expr)
  else
    match Text.cut? [','] names with
    | some (key, value) => .ok (.pairs collection (Text.trim key) (Text.trim value))
    | none => .ok (.values collection names)

def ofTrimmed (expr : Text) : Except TemplateError Loop :=
  if expr.isEmpty then .error .emptyLoop
  else if hasAs expr then .ok (.native expr)
  else
    match Text.cut? arrow expr with
    | some (left, right) => ofArrow expr left right
    | none => .ok (.counted expr)

def read (expr : Text) : Except TemplateError Loop :=
  ofTrimmed (Text.trim expr)

def header : Loop → Text
  | native expr => "foreach(".toList ++ expr ++ [')']
  | values collection value =>
    "foreach(".toList ++ collection ++ " as ".toList ++ value ++ [')']
  | pairs collection key value =>
    "foreach(".toList ++ collection ++ " as ".toList ++ key ++ " => ".toList ++ value ++ [')']
  | counted expr => "for(".toList ++ expr ++ [')']

def opening (loop : Loop) : Text :=
  "<?php ".toList ++ loop.header ++ ": ?>".toList

def closing : Loop → Text
  | native _ | values .. | pairs .. => "<?php endforeach; ?>".toList
  | counted _ => "<?php endfor; ?>".toList

end Loop

end MarkupTemplate
