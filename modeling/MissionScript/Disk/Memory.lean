import MissionScript.Disk.Basic
import MissionScript.Table

/-!
A disk in memory. Relative paths lead from one folder, where the program is; around it there are
other folders, but nothing else is in them. Absolute paths lead from a folder that is empty at
first.
-/

namespace MissionScript

/-- What is at a place of a disk. -/
inductive DiskEntry where
  | file (bytes : Bytes)
  | folder
  deriving DecidableEq

/-- The files and folders of a disk by their places: the names on the way to them. The way out of
    the folder where the program is goes by two points, and an absolute way begins with a slash. -/
structure MemoryDisk where
  entries : Table (List String) DiskEntry

/-- Where a path leads. -/
inductive Located where
  /-- to a place in a folder that is there -/
  | place (names : List String)
  /-- into a folder that is not there -/
  | missing
  /-- through a file, or to a name that cannot be -/
  | blocked

namespace MemoryDisk

/-- The disk without files. -/
def empty : MemoryDisk :=
  ⟨.empty⟩

/-- How many bytes a name may have. -/
def maxNameBytes : Nat := 255

/-- How many bytes a path may have. -/
def maxPathBytes : Nat := 4095

/-- Whether a path is too long or holds a character that no path has. -/
def isUnusable (path : String) : Bool :=
  maxPathBytes < path.utf8ByteSize || path.toList.contains '\x00'

/-- Whether a place is a folder in any case: where paths start, or further out. -/
def isBase (place : List String) : Bool :=
  place == ["/"] || place.all (· == "..")

/-- The place of the folder around a place. -/
def outward (place : List String) : List String :=
  if place == ["/"] then place
  else if place.all (· == "..") then place ++ [".."]
  else place.dropLast

/-- What is at a place. -/
def entry? (d : MemoryDisk) (place : List String) : Option DiskEntry :=
  if isBase place then some .folder else d.entries.find? place

/-- The place that a path starts from. -/
def startOf (path : String) : List String :=
  if path.startsWith "/" then ["/"] else []

/-- The parts of a path. -/
def parts (path : String) : List String :=
  (path.toList.splitOn '/').map String.ofList

/-- Where the parts of a path lead from a place. -/
def walk (d : MemoryDisk) (place : List String) : List String → Located
  | [] => .place place
  | name :: rest =>
    match d.entry? place with
    | none => .missing
    | some (.file _) => .blocked
    | some .folder =>
      if name = "" ∨ name = "." then d.walk place rest
      else if name = ".." then d.walk (outward place) rest
      else if maxNameBytes < name.utf8ByteSize then .blocked
      else d.walk (place ++ [name]) rest

/-- Where a path leads. The empty path leads nowhere. -/
def locate (d : MemoryDisk) (path : String) : Located :=
  if path.isEmpty then .missing
  else if isUnusable path then .blocked
  else d.walk (startOf path) (parts path)

/-- Reads the file at a path. -/
def read (d : MemoryDisk) (path : String) : Fetched :=
  match d.locate path with
  | .missing => .missing
  | .blocked => .failed
  | .place place =>
    match d.entry? place with
    | none => .missing
    | some .folder => .failed
    | some (.file bytes) => .contents bytes

/-- Whether something is at a path. -/
def isThere (d : MemoryDisk) (path : String) : Bool :=
  match d.locate path with
  | .place place => (d.entry? place).isSome
  | .missing | .blocked => false

/-- Makes a folder of a name in the folder at a place. -/
def makeIn (d : MemoryDisk) (place : List String) (name : String) : Made × MemoryDisk :=
  match d.entry? place with
  | none => (.missing, d)
  | some (.file _) => (.failed, d)
  | some .folder =>
    if name = "." ∨ name = ".." then (.there, d)
    else if maxNameBytes < name.utf8ByteSize then (.failed, d)
    else
      match d.entry? (place ++ [name]) with
      | some .folder => (.there, d)
      | some (.file _) => (.failed, d)
      | none => (.made, ⟨d.entries.insert (place ++ [name]) .folder⟩)

/-- Makes the folder at a path, but none around it. The slashes at the end of the path do not
    matter. -/
def makeFolder (d : MemoryDisk) (path : String) : Made × MemoryDisk :=
  if isUnusable path then (.failed, d)
  else
    match ((parts path).reverse.dropWhile (· == "")) with
    | [] => if path.isEmpty then (.missing, d) else (.there, d)
    | name :: before =>
      match d.walk (startOf path) before.reverse with
      | .place place => d.makeIn place name
      | .missing => (.missing, d)
      | .blocked => (.failed, d)

/-- Puts bytes at a place, unless a folder is there. -/
def put (d : MemoryDisk) (place : List String) (bytes : Bytes) : Bool × MemoryDisk :=
  match d.entry? place with
  | some .folder => (false, d)
  | _ => (true, ⟨d.entries.insert place (.file bytes)⟩)

/-- Writes a file. -/
def write (d : MemoryDisk) (path : String) (bytes : Bytes) : Bool × MemoryDisk :=
  match d.locate path with
  | .place place => d.put place bytes
  | .missing | .blocked => (false, d)

/-- Takes away what is at a place. -/
def erase (d : MemoryDisk) (place : List String) : MemoryDisk :=
  ⟨⟨d.entries.entries.filter fun entry => entry.1 ≠ place⟩⟩

/-- Removes a file. -/
def remove (d : MemoryDisk) (path : String) : Bool × MemoryDisk :=
  match d.locate path with
  | .place place =>
    match d.entry? place with
    | some (.file _) => (true, d.erase place)
    | _ => (false, d)
  | .missing | .blocked => (false, d)

/-- Gives a file another name. -/
def rename (d : MemoryDisk) (source target : String) : Bool × MemoryDisk :=
  match d.locate source, d.locate target with
  | .place old, .place new =>
    match d.entry? old, d.entry? new with
    | some (.file bytes), none | some (.file bytes), some (.file _) =>
      if old = new then (true, d) else (d.erase old).put new bytes
    | _, _ => (false, d)
  | _, _ => (false, d)

/-- What is in a folder, by name. -/
def contents (d : MemoryDisk) (folder : List String) : List (String × DiskEntry) :=
  let inside := d.entries.entries.filterMap fun (place, entry) =>
    match place.getLast? with
    | some name => if place.dropLast = folder then some (name, entry) else none
    | none => none
  inside.mergeSort fun a b => decide (a.1 ≤ b.1)

instance : Disk (StateM MemoryDisk) where
  read path := return (← get).read path
  isThere path := return (← get).isThere path
  createFolders path :=
    makeAround (fun folder => modifyGet (·.makeFolder (String.ofList folder)))
      (DiskPath.around path.toList)
  write path bytes := modifyGet (·.write path bytes)
  rename source target := modifyGet (·.rename source target)
  remove path := modifyGet (·.remove path)

end MemoryDisk

end MissionScript
