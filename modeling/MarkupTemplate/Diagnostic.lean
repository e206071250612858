import MarkupTemplate.Text.Quoted

/-!
# Diagnostics

A diagnostic records something the compiler recovered from: a code, the place in the source where
there is one, and a message that falls back to the code. Two diagnostics count as the same when code
and place agree.
-/

namespace MarkupTemplate

structure Diagnostic where
  code : Text
  position : Option Int
  message : Text

namespace Diagnostic

def make (code : Text) (position : Option Int) (message : Option Text) : Diagnostic :=
  ⟨code, position, match message with
    | some (c :: rest) => c :: rest
    | _ => code⟩

def same (d e : Diagnostic) : Bool :=
  d.code == e.code && d.position == e.position

def text (d : Diagnostic) : Text :=
  (match d.position with
    | some n => '(' :: Text.decimal n ++ ")".toList ++ ": ".toList
    | none => []) ++
  d.code ++ (if d.message = d.code then [] else " - ".toList ++ d.message)

def describe (d : Diagnostic) : Text :=
  "ParseError(".toList ++ Text.quoted d.code ++
  (match d.position with
    | some n => ", position=".toList ++ Text.decimal n
    | none => []) ++ [')']

end Diagnostic

end MarkupTemplate
