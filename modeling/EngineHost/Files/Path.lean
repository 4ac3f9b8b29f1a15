import EngineHost.Text.Bytes

/-!
# Paths

Paths as texts: their components, and how they are shortened without looking at any file.
-/

namespace EngineHost.Path

/-- The components of a path, empty ones included. -/
def components (path : Bytes) : List Bytes := Bytes.split 47 path

/-- Whether a path starts at the root of the file system. -/
def isAbsolute (path : Bytes) : Bool := path.head? == some 47

def here : Bytes := "."

def above : Bytes := ".."

def isIdle (component : Bytes) : Bool := component.isEmpty || component == here

/-- Adds a component to components in reverse order: a step up takes back the component before it,
if there is one to take back. -/
def push (absolute : Bool) (stack : List Bytes) (component : Bytes) : List Bytes :=
  if isIdle component then stack
  else if component == above then
    match stack with
    | [] => if absolute then [] else [above]
    | top :: rest => if top == above then above :: stack else rest
  else component :: stack

/-- The shortest equivalent of a path. -/
def clean (path : Bytes) : Bytes :=
  let absolute := isAbsolute path
  let kept := ((components path).foldl (push absolute) []).reverse
  if absolute then "/" ++ Bytes.join "/" kept
  else if kept.isEmpty then here else Bytes.join "/" kept

/-- A path up to its last slash, shortened. -/
def folder (path : Bytes) : Bytes := clean (path.reverse.dropWhile (· != 47)).reverse

/-- The last component of a path; slashes at the end do not count. -/
def base (path : Bytes) : Bytes :=
  if path.isEmpty then here
  else
    let trimmed := path.reverse.dropWhile (· == 47)
    if trimmed.isEmpty then "/" else (trimmed.takeWhile (· != 47)).reverse

def inside (folder component : Bytes) : Bytes :=
  if folder.getLast? == some 47 then folder ++ component else folder ++ "/" ++ component

/-- The path of a temporary file that is to replace the file at `path`: in the same folder, its name
made unique by `digits`, which replace the last star of the name or follow it. -/
def temporary (path digits : Bytes) : Bytes :=
  let name := base path
  let tail := (name.reverse.takeWhile (· != 42)).reverse
  let unique :=
    if tail.length = name.length then name ++ digits
    else name.take (name.length - tail.length - 1) ++ digits ++ tail
  inside (folder path) unique

end EngineHost.Path
