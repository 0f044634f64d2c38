import SmallLisp.Text.Quoted

/-! Files by path. A path is normal when it has no empty parts, no `.` parts and no final
slash; parts that lead upward stay, and the empty path is the working folder. Where a path
leads depends on the store: it goes through folders only, also when it goes up again. -/
namespace SmallLisp

namespace Path

def here : String := "."
def upward : String := ".."

/-- One slash at the front or three are the root, exactly two are kept. -/
def rootOf (path : String) : String :=
  match path.toList.takeWhile (· = '/') with
  | [] => ""
  | [_, _] => "//"
  | _ => "/"

def isAbsolute (path : String) : Bool := path.toList.head? = some '/'

/-- The parts that lead anywhere. -/
def parts (path : String) : List String :=
  (path.splitOn "/").filter fun part => part ≠ "" && part ≠ here

def normalize (path : String) : String :=
  let normal := rootOf path ++ "/".intercalate (parts path)
  if normal = "" then here else normal

/-- The last part of the path, which the working folder and the root do not have. -/
def name (path : String) : String := (parts path).getLastD ""

/-- The paths of the folders that a path leads through, outermost first. -/
def ancestors (path : String) : List String :=
  let ps := parts path
  (List.range ps.length).map fun n => normalize (rootOf path ++ "/".intercalate (ps.take n))

/-- The longest part of a path and the longest path, in bytes. -/
def longestPart : Nat := 255
def longest : Nat := 4095

end Path

/-- A place in the tree of folders: the names that lead to it, outermost first, from the
root or from a folder so many levels above the working one. -/
structure Place where
  level : Option Nat
  names : List String
  deriving DecidableEq, Repr

namespace Place

/-- Where the parts of a path count from. -/
def origin (path : String) : Place := ⟨if Path.isAbsolute path then none else some 0, []⟩

def below (place : Place) (name : String) : Place := { place with names := place.names ++ [name] }

/-- The folder above; the root has none and stays. -/
def above : Place → Place
  | ⟨level, []⟩ => ⟨level.map (· + 1), []⟩
  | ⟨level, names⟩ => ⟨level, names.dropLast⟩

/-- Whether the other place is inside this one. -/
def holds (place other : Place) : Bool :=
  place.level = other.level && place.names.isPrefixOf other.names && place.names ≠ other.names

/-- Where the path leads if all parts of it but the last are folders. -/
def ofPath (path : String) : Place :=
  (Path.parts path).foldl
    (fun place part => if part = Path.upward then place.above else place.below part) (origin path)

def path (place : Place) : String :=
  let root :=
    match place.level with
    | none => "/"
    | some n => String.join (List.replicate n "../")
  Path.normalize (root ++ "/".intercalate place.names)

end Place

abbrev Bytes := List UInt8

/-- The files, and the folders that hold none. -/
structure Store where
  files : List (Place × Bytes)
  folders : List Place

inductive StoreFault where
  | missing
  | folder
  | underFile
  | unsuitable
  | nameTooLong
  deriving DecidableEq, Repr

/-- The system's number and text for the fault. -/
def StoreFault.message : StoreFault → String
  | .missing => "[Errno 2] No such file or directory"
  | .folder => "[Errno 21] Is a directory"
  | .underFile => "[Errno 20] Not a directory"
  | .unsuitable => "[Errno 22] Invalid argument"
  | .nameTooLong => "[Errno 36] File name too long"

structure StoreError where
  fault : StoreFault
  path : String
  deriving DecidableEq, Repr

def StoreError.message (e : StoreError) : String := e.fault.message ++ ": " ++ Text.quoted e.path

namespace Store

def empty : Store := ⟨[], []⟩

def file? (s : Store) (place : Place) : Option Bytes := s.files.lookup place

/-- Folders are those named, those that hold something, and any reached by going up. -/
def isFolder (s : Store) (place : Place) : Bool :=
  place.names.isEmpty || s.folders.contains place ||
    (s.folders ++ s.files.map (·.1)).any place.holds

/-- Adds a file or replaces it where it stands. -/
def put (s : Store) (place : Place) (bytes : Bytes) : Store :=
  if (s.file? place).isSome then
    { s with files := s.files.map fun f => if f.1 = place then (place, bytes) else f }
  else { s with files := s.files ++ [(place, bytes)] }

def putFolder (s : Store) (place : Place) : Store := { s with folders := place :: s.folders }

/-- Follows the parts of a path from a folder. Only the last may lead to no folder. -/
def follow (s : Store) (place : Place) : List String → Except StoreFault Place
  | [] => .ok place
  | part :: rest =>
    if part = "" ∨ part = Path.here then follow s place rest
    else if part = Path.upward then follow s place.above rest
    else if part.utf8ByteSize > Path.longestPart then .error .nameTooLong
    else
      let next := place.below part
      if s.isFolder next then follow s next rest
      else if rest.isEmpty then .ok next
      else .error (if (s.file? next).isSome then .underFile else .missing)

/-- Where the parts of a path lead. -/
def locate (s : Store) (path : String) (parts : List String) : Except StoreFault Place :=
  if path = "" then .error .missing
  else if path.utf8ByteSize > Path.longest then .error .nameTooLong
  else s.follow (Place.origin path) parts

def read (s : Store) (path : String) : Except StoreFault Bytes :=
  match s.locate path (path.splitOn "/") with
  | .error fault => .error fault
  | .ok place =>
    if s.isFolder place then .error .folder
    else
      match s.file? place with
      | some bytes => .ok bytes
      | none => .error .missing

/-- Makes the file or replaces it. A path that ends in a slash means a folder, whether
there is one or not, in a folder that there is. -/
def write (s : Store) (path : String) (bytes : Bytes) : Except StoreFault Store :=
  let parts := path.splitOn "/"
  let named := (parts.reverse.dropWhile (· = "")).reverse
  if named ≠ parts then
    match s.locate path (named.dropLast ++ [Path.here]) with
    | .error fault => .error fault
    | .ok _ => .error .folder
  else
    match s.locate path parts with
    | .error fault => .error fault
    | .ok place => if s.isFolder place then .error .folder else .ok (s.put place bytes)

end Store

end SmallLisp
