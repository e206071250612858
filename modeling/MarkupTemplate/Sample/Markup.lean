import MarkupTemplate.Sample.Draw

/-!
# Random templates

Templates put together at random from pieces that are often malformed: tags that are not closed,
quotes that do not match, unknown filters, forbidden code. They serve to try the compiler out.
-/

namespace MarkupTemplate.Sample

private def texts (items : List String) : List Text :=
  items.map String.toList

def tags : List Text := texts
  ["div", "span", "p", "a", "img", "ul", "li", "table", "tr", "td", "br", "hr", "input", "head",
    "body", "html", "title", "meta", "link", "script", "style", "block", "load", "unload"]

def attributeNames : List Text := texts
  ["id", "class", "href", "src", "alt", "cond", "loop", "target", "index", "media", "type"]

def specials : List Text :=
  ['<', '>', '/', '\'', '"', '=', '{', '}', '@', '$', '|', ':', '\x60', '\\', '\x00', '\n'].map
    ([·])

def variableNames : List Text := texts
  ["name", "$name", "user->name", "items[0]", "$row['id']", "", "1bad", "a b", "$_GET['x']"]

def filters : List Text := texts
  ["upper", "lower", "trim", "strip", "escape", "noescape", "escapejs", "json", "urlencode",
    "nl2br", "join", "join:'-'", "date", "date:'Y'", "number_format:2", "number_shorten",
    "number_shorten:1", "link", "link:$label", "unknown", "", ":"]

def codeFragments : List Text := texts
  ["echo $x;", "$a = 1;", "if ($x) \x7b echo 1; \x7d", "exec('ls');", "'exec(1)' == $x",
    "// comment", "/* block */", "\x60ls\x60", "$_POST['a']", "include 'x.php';", "",
    "\x7b@ nested \x7d"]

def loopExpressions : List Text := texts
  ["$items as $item", "items=>$v", "items=>$k,$v", "$i=0;$i<3;$i++", "", "=>", " as "]

def targets : List Text := texts
  ["app.css", "app.js", "app.txt", "x.js?v=1", "", "noext"]

def letters : List Text :=
  "abcdefghijklmnopqrstuvwxyzABCDEFGHIJKLMNOPQRSTUVWXYZ0123456789".toList.map ([·])

def word (low high : Int) : Draw Text := do
  let i ← Draw.between 0 (high - low).toNat
  return (← Draw.times (low + i).toNat (Draw.pick letters)).flatten

def quoteStyles : List (Text × Text) :=
  [(['=', '"'], ['"']), (['=', '\''], ['\'']), (['='], []), ([], []), (['=', '"'], []),
    (['=', '='], [])]

def attributeValue (name : Text) : Draw Text :=
  if name = "loop".toList then Draw.pick loopExpressions
  else if name = "target".toList then Draw.pick targets
  else do
    let w ← word 0 20
    let c ← Draw.pick specials
    Draw.pick [w, "$show".toList, [], c]

def writtenAttribute : Draw Text := do
  let w ← word 1 8
  let c ← Draw.pick specials
  let name ← Draw.pick (attributeNames ++ [w, c])
  let value ← attributeValue name
  let (before, after) := quoteStyles.getD (← Draw.number quoteStyles.length) ([], [])
  if before.isEmpty then return name
  return name ++ before ++ value ++ after

def openTag : Draw Text := do
  let w ← word 1 6
  let tag ← Draw.pick (tags ++ [w, []])
  let count ← Draw.between 0 4
  let attributes ← Draw.times count writtenAttribute
  let ending ← Draw.pick (texts [">", "/>", " >", "", ">>"])
  return '<' :: tag ++ [' '] ++ List.intercalate [' '] attributes ++ ending

def closeTag : Draw Text := do
  let w ← word 1 6
  let tag ← Draw.pick (tags ++ [w])
  Draw.pick ["</".toList ++ tag ++ ['>'], "</ ".toList ++ tag ++ ['>'], "</".toList ++ tag,
    "<//".toList ++ tag ++ ['>']]

def comment : Draw Text := do
  let w ← word 0 30
  let content ← Draw.pick [w, "// note".toList, "a // b".toList, []]
  Draw.pick ["<!--".toList ++ content ++ "-->".toList, "<!--".toList ++ content,
    "<!-".toList ++ content ++ "-->".toList, "<!---->".toList]

def interpolation : Draw Text := do
  let count ← Draw.between 0 4
  let chain := List.intercalate ['|'] (← Draw.times count (Draw.pick filters))
  let name ← Draw.pick variableNames
  let body := if chain.isEmpty then name else name ++ ['|'] ++ chain
  Draw.pick ['{' :: '$' :: body ++ ['}'], '{' :: '$' :: body,
    '{' :: ' ' :: '$' :: body ++ [' ', '}']]

def rawBlock : Draw Text := do
  let code ← Draw.pick codeFragments
  Draw.pick [['{', '@', ' '] ++ code ++ [' ', '}'], ['{', '@'] ++ code,
    ['{', '@', ' ', '{', '@', ' '] ++ code ++ [' ', '}', ' ', '}'], ['{', '@', '}']]

def text : Draw Text := do
  let w ← word 0 40
  let c ← Draw.pick specials
  let count ← Draw.between 1 4
  Draw.pick [w, [' '], ['\n'], (List.replicate count c).flatten]

def nested : Nat → Draw Text
  | 0 => text
  | levels + 1 => do
    if ← Draw.chance 300 then text
    else
      let tag ← Draw.pick tags
      let count ← Draw.between 0 3
      let children ← Draw.times count (nested levels)
      let written ← writtenAttribute
      return '<' :: tag ++ [' '] ++ written ++ ['>'] ++ children.flatten ++ "</".toList ++ tag ++
        ['>']

def pieces : List (Draw Text) :=
  [(20, openTag), (10, closeTag), (5, comment), (15, interpolation), (8, rawBlock), (15, text),
    (8, nested 6)].flatMap fun (weight, piece) => List.replicate weight piece

def piece : Draw Text := do
  let i ← Draw.number pieces.length
  pieces.getD i text

def template : Draw Text := do
  let opened ← Draw.chance 500
  let count ← Draw.between 1 20
  let parts ← Draw.times count piece
  let closed ← Draw.chance 500
  return (if opened then "<html><head><title>t</title></head><body>".toList else []) ++
    parts.flatten ++ (if closed then "</body></html>".toList else [])

end MarkupTemplate.Sample
