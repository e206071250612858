import MarkupTemplate.Asset.Injection
import MarkupTemplate.Error

/-!
# The log of a compilation

What the compiler has to say about its own progress, in the order in which it happens. Only dropped
assets are a warning; the rest is for debugging.
-/

namespace MarkupTemplate

inductive LogEntry
  | scanned (characters tokens : Nat)
  | built (nodes : Nat)
  | rejected (function code : Text)
  | collected (declaration : Declaration)
  | dropped (count : Nat)
  | injected (count : Nat)
deriving DecidableEq

namespace LogEntry

def isWarning : LogEntry → Bool
  | dropped _ => true
  | _ => false

def logger : LogEntry → Text
  | scanned .. => "expohtml.tokenizer".toList
  | built _ => "expohtml.treebuilder".toList
  | rejected .. => "expohtml.validator".toList
  | collected _ => "expohtml.generator".toList
  | dropped _ | injected _ => "expohtml.assets".toList

def message : LogEntry → Text
  | scanned characters tokens =>
    "tokenized ".toList ++ Text.ofNat characters ++ " chars into ".toList ++ Text.ofNat tokens ++
      " tokens".toList
  | built nodes => "built tree with ".toList ++ Text.ofNat nodes ++ " top-level nodes".toList
  | rejected function code =>
    "rejected fragment calling ".toList ++ function ++ "(): ".toList ++ Text.quoted code
  | collected d =>
    "collected ".toList ++ d.kind.label ++ " asset ".toList ++ d.target ++ " (index ".toList ++
      Text.decimal d.order ++ [')']
  | dropped count =>
    "dropped ".toList ++ Text.ofNat count ++
      " asset declaration(s): no closing head/body marker in output".toList
  | injected count => "injected ".toList ++ Text.ofNat count ++ " asset tag(s)".toList

def line (entry : LogEntry) : Text :=
  (if entry.isWarning then "WARNING ".toList else "DEBUG ".toList) ++ entry.logger ++ ": ".toList ++
    entry.message

end LogEntry

def Failure.log : Failure → List LogEntry
  | .template (.forbidden (.call function) code) => [.rejected function code]
  | _ => []

def Assets.injectionLog (assets : Assets) (result : Injection.Result) : List LogEntry :=
  if assets.isEmpty then []
  else
    (if result.dropped = 0 then [] else [.dropped result.dropped]) ++
      [.injected (assets.tagCount - result.dropped)]

end MarkupTemplate
