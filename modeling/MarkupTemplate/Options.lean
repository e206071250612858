import MarkupTemplate.Text.Quoted

/-!
# Options of a compilation

In strict mode a tag, comment or raw-code block that the source leaves open is an error. Diagnostics
are recorded only where they are collected. The encoding is given by name and concerns files; files of
no given encoding are in UTF-8.
-/

namespace MarkupTemplate

structure Options where
  strict : Bool := false
  collect : Bool := false
  injectAssets : Bool := true
  encoding : Option Text := some "utf-8".toList
deriving DecidableEq

def describeBool : Bool → Text
  | true => "True".toList
  | false => "False".toList

def Options.describe (options : Options) : Text :=
  "CompileOptions(strict=".toList ++ describeBool options.strict ++
    ", collect_errors=".toList ++ describeBool options.collect ++
    ", inject_assets=".toList ++ describeBool options.injectAssets ++
    ", encoding=".toList ++ (options.encoding.elim "None".toList Text.quoted) ++ [')']

def Options.fileEncoding (options : Options) : Text :=
  options.encoding.getD "utf-8".toList

end MarkupTemplate
