import EngineHost.Fault
import EngineHost.Files.Path
import EngineHost.Guest.Loading

/-!
# Files

What commands need of a file system, and a working directory as a value that provides it.
-/

namespace EngineHost

inductive PathFault
  | missing
  | notFolder
  | isFolder
  | taken
  | invalid
  | tooLong
deriving DecidableEq, Repr

def PathFault.message : PathFault → Bytes
  | missing => "no such file or directory"
  | notFolder => "not a directory"
  | isFolder => "is a directory"
  | taken => "file exists"
  | invalid => "invalid argument"
  | tooLong => "file name too long"

def PathFault.fault (action : String) (path : Bytes) (f : PathFault) : Fault :=
  .plain (Bytes.ofString action ++ " " ++ path ++ ": " ++ f.message)

/-- What commands need of a file system. -/
structure Files where
  /-- The file at a path. -/
  read : Bytes → Except Fault Guest.Image
  /-- Whether a file can be written at a path. -/
  checkWrite : Bytes → Except Fault Unit
  /-- Whether the file at a path can be replaced through a temporary one. -/
  checkReplace : Bytes → Except Fault Unit

/-- The files of a working directory by the components of their paths. Folders are those that
contain a file. -/
structure Directory where
  files : List (List Bytes × Guest.Image) := []
deriving Repr, Inhabited

namespace Directory

inductive Place
  | file (path : List Bytes) (image : Guest.Image)
  | folder
  /-- Nothing, in a folder that exists. -/
  | vacant (path : List Bytes)
  /-- The null device: it reads as nothing and keeps nothing. -/
  | sink

def file? (d : Directory) (path : List Bytes) : Option Guest.Image :=
  (d.files.find? fun f => f.1 == path).map (·.2)

def isFolder (d : Directory) (path : List Bytes) : Bool :=
  d.files.any fun f => path.isPrefixOf f.1 && path.length < f.1.length

/-- Walks on from a folder. Outside the working directory, where there is no folder to name, nothing
can be found. -/
def walk (d : Directory) : (folder : Option (List Bytes)) → List Bytes → Except PathFault Place
  | _, [] => .ok .folder
  | folder, component :: rest =>
    if Path.isIdle component then walk d folder rest
    else if component == Path.above then
      walk d (folder.bind fun names => if names.isEmpty then none else some names.dropLast) rest
    else if 255 < component.length then .error .tooLong
    else match folder with
      | none => .error .missing
      | some names =>
        let path := names ++ [component]
        match d.file? path with
        | some image => if rest.isEmpty then .ok (.file path image) else .error .notFolder
        | none =>
          if d.isFolder path then walk d (some path) rest
          else if rest.isEmpty then .ok (.vacant path)
          else .error .missing

def usable (path : Bytes) : Except PathFault Unit :=
  if path.any (· == 0) then .error .invalid
  else if 4096 ≤ path.length then .error .tooLong
  else if path.isEmpty then .error .missing
  else .ok ()

/-- What is known of the file system around the working directory. -/
def surroundings : Directory := { files := [(["dev", "null"], .bytes [])] }

/-- Walks along components of a path, from the root or from the working directory. -/
def follow (d : Directory) (path : Bytes) (names : List Bytes) : Except PathFault Place := do
  if Path.isAbsolute path then
    match ← walk surroundings (some []) names with
    | .file _ _ => return .sink
    | .vacant _ => throw .missing
    | place => return place
  else walk d (some []) names

def lookup (d : Directory) (path : Bytes) : Except PathFault Place := do
  usable path
  d.follow path (Path.components path)

/-- Looks up where a file is to be written. A path with a slash at its end stands for a folder,
whether there is something or not, once the way to it has been walked. -/
def lookupNew (d : Directory) (path : Bytes) : Except PathFault Place := do
  if path.getLast? == some 47 then
    usable path
    let way := ((Path.components path).reverse.dropWhile List.isEmpty).tail
    let _ ← d.follow path (way.reverse ++ [[]])
    return .folder
  else d.lookup path

def read (d : Directory) (path : Bytes) : Except Fault Guest.Image :=
  match d.lookup path with
  | .ok (.file _ image) => .ok image
  | .ok .sink => .ok (.bytes [])
  | .ok .folder => .error (PathFault.isFolder.fault "read" path)
  | .ok (.vacant _) => .error (PathFault.missing.fault "open" path)
  | .error f => .error (f.fault "open" path)

def checkWrite (d : Directory) (path : Bytes) : Except Fault Unit :=
  match d.lookupNew path with
  | .ok .folder => .error (PathFault.isFolder.fault "open" path)
  | .ok _ => .ok ()
  | .error f => .error (f.fault "open" path)

/-- Whether the file at a path can be replaced through a temporary one. -/
def checkReplace (d : Directory) (digits path : Bytes) : Except Fault Unit := do
  let name := Path.base path
  if name.any (· == 47) then
    throw (.plain ("createtemp " ++ name ++ ": pattern contains path separator"))
  let temporary := Path.temporary path digits
  d.checkWrite temporary
  let both := temporary ++ " " ++ path
  match d.lookup path with
  | .ok .folder => .error (PathFault.taken.fault "rename" both)
  | .ok _ => .ok ()
  | .error f => .error (f.fault "rename" both)

/-- The directory as a file system; `digits` make temporary names unique. -/
def toFiles (d : Directory) (digits : Bytes) : Files where
  read := d.read
  checkWrite := d.checkWrite
  checkReplace := d.checkReplace digits

/-- Puts a file at a path that a file can be written at. -/
def write (d : Directory) (path data : Bytes) : Directory :=
  let put (names : List Bytes) : Directory :=
    { files := d.files.filter (fun f => f.1 != names) ++ [(names, .bytes data)] }
  match d.lookup path with
  | .ok (.file names _) => put names
  | .ok (.vacant names) => put names
  | _ => d

end Directory

end EngineHost
