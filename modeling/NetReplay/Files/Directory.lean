import NetReplay.Files.Path
import NetReplay.Table

/-!
# Directories

A `Directory` is the tree of files that paths are resolved in, as a map from
normal paths to what stands there: a normal path has the names from the
directory down, separated by slashes. `Directory.read` and `Directory.write`
take paths as they are given, where `.`, `..` and doubled slashes may occur.
Every step of a path has to be a folder that exists; the last one decides what
is read or written. Paths from the root of the system start with an empty name,
and what lies between the root and the directory is not known.
-/

namespace NetReplay

namespace Files

/-- What stands at a path. -/
inductive Node where
  | file (content : List UInt8)
  | folder
  /-- Takes every content and stays empty. -/
  | sink
  deriving DecidableEq, Repr

/-- Why a path cannot be read or written. -/
inductive Fault where
  | absent
  | notFolder
  | isFolder
  | tooLong
  /-- The path holds a character that no name can have. -/
  | badName
  deriving DecidableEq, Repr

def Fault.message : Fault → String
  | absent => "No such file or directory (os error 2)"
  | notFolder => "Not a directory (os error 20)"
  | isFolder => "Is a directory (os error 21)"
  | tooLong => "File name too long (os error 36)"
  | badName => "file name contained an unexpected NUL byte"

def maxPathBytes : Nat := 4095

def maxNameBytes : Nat := 255

/-- A tree of files and folders by their normal paths; the directory itself is
not in it. -/
structure Directory where
  nodes : Table Node
  deriving DecidableEq

namespace Directory

def empty : Directory := ⟨.empty⟩

instance : Inhabited Directory := ⟨empty⟩

/-- The names of the root of the system. -/
def root : List String := [""]

/-- The normal path of a list of names. -/
def joinNames (names : List String) : String := String.intercalate "/" names

/-- What stands at the path with the given names. -/
def nodeAt (d : Directory) (names : List String) : Option Node :=
  if names.isEmpty then some .folder else d.nodes.get? (joinNames names)

/-- What stands in the folder with the given names, under a name that must not
be too long. -/
def child? (d : Directory) (names : List String) (name : String) : Except Fault (Option Node) :=
  if maxNameBytes < name.utf8ByteSize then .error .tooLong
  else .ok (d.nodeAt (names ++ [name]))

/-- Takes one step of a path, from a folder into a folder. -/
def enter (d : Directory) (names : List String) (step : String) :
    Except Fault (List String) :=
  if step = "" ∨ step = "." ∨ step = ".." ∧ names = root then .ok names
  else if step = ".." then
    if names.isEmpty then .error .absent else .ok names.dropLast
  else do
    match ← d.child? names step with
    | some .folder => pure (names ++ [step])
    | some _ => throw .notFolder
    | none => throw .absent

/-- Follows a path up to its last step; `some` of a name when that step names
something in the folder reached, and `none` when it is a folder already. -/
def follow (d : Directory) (names : List String) :
    List String → Except Fault (List String × Option String)
  | [] => .ok (names, none)
  | [last] =>
    if last = "" ∨ last = "." ∨ last = ".." then do
      pure (← d.enter names last, none)
    else .ok (names, some last)
  | step :: rest => do
    let names ← d.enter names step
    follow d names rest

def resolve (d : Directory) (path : String) : Except Fault (List String × Option String) :=
  if path.toList.contains '\x00' then .error .badName
  else if maxPathBytes < path.utf8ByteSize then .error .tooLong
  else if path.isEmpty then .error .absent
  else
    match pieces path with
    | "" :: steps => d.follow root steps
    | steps => d.follow [] steps

def read (d : Directory) (path : String) : Except Fault (List UInt8) := do
  match ← d.resolve path with
  | (_, none) => throw .isFolder
  | (names, some last) =>
    match ← d.child? names last with
    | some (.file content) => pure content
    | some .sink => pure []
    | some .folder => throw .isFolder
    | none => throw .absent

def write (d : Directory) (path : String) (content : List UInt8) : Except Fault Directory := do
  match ← d.resolve path with
  | (_, none) => throw .isFolder
  | (names, some last) =>
    match ← d.child? names last with
    | some .folder => throw .isFolder
    | some .sink => pure d
    | _ => pure ⟨d.nodes.insert (joinNames (names ++ [last])) (.file content)⟩

/-- Puts something at a normal path, with all folders above it. -/
def place (d : Directory) (path : String) (node : Node) : Directory :=
  let names := pieces path
  let folders := (List.range names.length).drop 1
  ⟨(folders.foldl (fun t n => t.insert (joinNames (names.take n)) .folder) d.nodes).insert path
    node⟩

end Directory

end Files

end NetReplay
