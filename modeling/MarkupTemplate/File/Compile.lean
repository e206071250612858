import MarkupTemplate.File.Volume
import MarkupTemplate.Template

/-!
# Compiling files

A template file is read in the encoding that the options name and compiled; the page is written in
the same encoding. Nothing is written unless the template has compiled. A file is opened for writing
before its encoding is looked up and its text is encoded, so an unknown encoding or a page that the
encoding cannot hold would leave an empty file.
-/

namespace MarkupTemplate

inductive FileFailure
  | templateNotFound (path : Text)
  | file (error : FileError)
  | unknownEncoding (name : Text)
  | decoding (error : Encoding.DecodeError)
  | encoding (encoding : Encoding)
  | compiling (failure : Failure)
deriving DecidableEq

def decodeFile (encoding : Text) (content : Bytes) : Except FileFailure Text :=
  match Encoding.ofName? encoding with
  | none => .error (.unknownEncoding encoding)
  | some encoding =>
    match encoding.decode content with
    | .ok text => .ok (Text.unifyLineEnds text)
    | .error e => .error (.decoding e)

namespace Volume

def readText (volume : Volume) (path encoding : Text) : Except FileFailure Text :=
  match volume.read path with
  | .ok content => decodeFile encoding content
  | .error e => .error (.file e)

/-- The volume after a text was written, and whether that went well. -/
def writeText (volume : Volume) (path encoding text : Text) : Volume × Except FileFailure Unit :=
  match volume.writable path with
  | .error e => (volume, .error (.file e))
  | .ok place =>
    match Encoding.ofName? encoding with
    | none => (volume.fill place [], .error (.unknownEncoding encoding))
    | some encoding =>
      match encoding.encode? text with
      | some content => (volume.fill place content, .ok ())
      | none => (volume.fill place [], .error (.encoding encoding))

def compileFile (volume : Volume) (path : Text) (options : Options) : Except FileFailure Text :=
  match volume.isFile path with
  | .error e => .error (.file e)
  | .ok false => .error (.templateNotFound path)
  | .ok true =>
    match volume.readText path options.fileEncoding with
    | .ok source => ((compile options source).outcome.map (·.output)).mapError .compiling
    | .error e => .error e

def saveCompiled (volume : Volume) (template output : Text) (options : Options) :
    Volume × Except FileFailure Unit :=
  match volume.compileFile template options with
  | .ok text => volume.writeText output options.fileEncoding text
  | .error e => (volume, .error e)

end Volume

namespace FileFailure

def message : FileFailure → Text
  | templateNotFound path => "Template file not found: ".toList ++ Path.display path
  | file e => e.message
  | unknownEncoding name => "unknown encoding: ".toList ++ name
  | decoding e => e.message
  | encoding e => "'".toList ++ e.name ++ "' codec can't encode the output".toList
  | compiling e => e.message

end FileFailure

end MarkupTemplate
