import MarkupTemplate.Text.Encoding

/-!
# Volumes of files

A volume is a file system as one process sees it: files with their bytes, directories and symbolic links
below a root, what the process may do with each of them, and the directory it works in.

A path is normalized before anything else: empty parts and single dots are dropped, double dots stay. It
is then followed part by part, from the root if it begins with a slash and else from the working
directory, through directories that the process may search. A link on the way stands for the path it
holds, up to forty times. The root is its own parent.
-/

namespace MarkupTemplate

namespace Path

def parent : Text :=
  ['.', '.']

def parts (path : Text) : List Text :=
  (List.splitOn '/' path).filter fun part => !(part.isEmpty || part == ['.'])

/-- The slashes that make a path absolute. Just two of them are kept apart from one. -/
def root : Text → Text
  | '/' :: '/' :: '/' :: _ => ['/']
  | '/' :: '/' :: _ => ['/', '/']
  | '/' :: _ => ['/']
  | _ => []

def isAbsolute (path : Text) : Bool :=
  !(root path).isEmpty

def display (path : Text) : Text :=
  match root path ++ List.intercalate ['/'] (parts path) with
  | [] => ['.']
  | path => path

end Path

inductive FileFault
  | noSuchFile
  | denied
  | notDirectory
  | isDirectory
  | tooManyLinks
  | nullCharacter
deriving DecidableEq

structure FileError where
  fault : FileFault
  path : Text
deriving DecidableEq

namespace FileError

def about (cause : String) (path : Text) : Text :=
  cause.toList ++ ": ".toList ++ Text.quoted (Path.display path)

def message (e : FileError) : Text :=
  match e.fault with
  | .noSuchFile => about "[Errno 2] No such file or directory" e.path
  | .denied => about "[Errno 13] Permission denied" e.path
  | .notDirectory => about "[Errno 20] Not a directory" e.path
  | .isDirectory => about "[Errno 21] Is a directory" e.path
  | .tooManyLinks => about "[Errno 40] Too many levels of symbolic links" e.path
  | .nullCharacter => "embedded null byte".toList

end FileError

/-- What the process may do with a file or a directory. Searching is looking up what a directory holds. -/
structure Access where
  read : Bool := true
  write : Bool := true
  search : Bool := true
deriving DecidableEq

inductive Entry
  | file (access : Access) (content : Bytes)
  | directory (access : Access)
  | link (absolute : Bool) (target : List Text)
deriving DecidableEq

/-- Entries by their place, the names that lead to them from the root. -/
structure Volume where
  root : Access
  working : List Text
  entries : List (List Text × Entry)
deriving DecidableEq

namespace Volume

def find? (volume : Volume) (place : List Text) : Option Entry :=
  if place = [] then some (.directory volume.root) else volume.entries.lookup place

def put (volume : Volume) (place : List Text) (entry : Entry) : Volume :=
  { volume with entries := (place, entry) :: volume.entries.filter fun (p, _) => p != place }

def enter (place : List Text) (part : Text) : List Text :=
  if part = Path.parent then place.dropLast else place ++ [part]

/-- Where `parts` lead from `place`; behind a link `follow` goes on. -/
def walkThrough (volume : Volume) (follow : List Text → List Text → Except FileFault (List Text))
    (place : List Text) : List Text → Except FileFault (List Text)
  | [] => .ok place
  | part :: parts =>
    match volume.find? place with
    | some (.directory access) =>
      if access.search then
        match volume.find? (enter place part) with
        | some (.link absolute target) => follow (if absolute then [] else place) (target ++ parts)
        | _ => walkThrough volume follow (enter place part) parts
      else .error .denied
    | some _ => .error .notDirectory
    | none => .error .noSuchFile

/-- Where `parts` lead from `place` past at most so many links. -/
def walk (volume : Volume) : Nat → List Text → List Text → Except FileFault (List Text)
  | 0 => volume.walkThrough fun _ _ => .error .tooManyLinks
  | links + 1 => volume.walkThrough (volume.walk links)

def linkLimit : Nat := 40

def resolve (volume : Volume) (path : Text) : Except FileFault (List Text) :=
  if path.contains '\x00' then .error .nullCharacter
  else volume.walk linkLimit (if Path.isAbsolute path then [] else volume.working) (Path.parts path)

/-- Whether there is a file at a path. Only a directory that may not be searched keeps this from being
answered. -/
def isFile (volume : Volume) (path : Text) : Except FileError Bool :=
  match volume.resolve path with
  | .ok place => .ok (match volume.find? place with
    | some (.file ..) => true
    | _ => false)
  | .error .denied => .error ⟨.denied, path⟩
  | .error _ => .ok false

def read (volume : Volume) (path : Text) : Except FileError Bytes :=
  match volume.resolve path with
  | .error fault => .error ⟨fault, path⟩
  | .ok place =>
    match volume.find? place with
    | some (.file access content) => if access.read then .ok content else .error ⟨.denied, path⟩
    | some (.directory access) => .error ⟨if access.read then .isDirectory else .denied, path⟩
    | some (.link ..) | none => .error ⟨.noSuchFile, path⟩

def allowsNew (volume : Volume) (place : List Text) : Bool :=
  match volume.find? place.dropLast with
  | some (.directory access) => access.write && access.search
  | _ => false

def writable (volume : Volume) (path : Text) : Except FileError (List Text) :=
  match volume.resolve path with
  | .error fault => .error ⟨fault, path⟩
  | .ok place =>
    match volume.find? place with
    | some (.directory _) => .error ⟨.isDirectory, path⟩
    | some (.file access _) => if access.write then .ok place else .error ⟨.denied, path⟩
    | some (.link ..) => .error ⟨.noSuchFile, path⟩
    | none => if volume.allowsNew place then .ok place else .error ⟨.denied, path⟩

/-- Gives the file at a place its content. A new file may be read and written. -/
def fill (volume : Volume) (place : List Text) (content : Bytes) : Volume :=
  volume.put place (.file (match volume.find? place with
    | some (.file access _) => access
    | _ => {}) content)

end Volume

end MarkupTemplate
