import SchemaHint.Schema.Draft

/-!
# Files

`Files` is what a command sees of the file system: a tree of directories and the working directory.
Paths are followed step by step, so that a path through something that is missing or is no directory
leads nowhere even if it turns back.
-/

namespace SchemaHint.Command

set_option autoImplicit false

/-- A file with its bytes, or a directory with its entries. -/
inductive Node
  | file (content : ByteArray)
  | directory (entries : List (String × Node))

namespace Node

/-- The entry of a directory. -/
def entry? (name : String) : Node → Option Node
  | .file _ => none
  | .directory entries => entries.lookup name

/-- Whether a node is a file. -/
def isFile : Node → Bool
  | .file _ => true
  | .directory _ => false

/-- Puts a node under a name, in place of one that is there. -/
def put (name : String) (node : Node) : Node → Node
  | .file _ => .directory [(name, node)]
  | .directory entries => .directory (entries.filter (fun e => e.1 ≠ name) ++ [(name, node)])

/-- Puts a node at the end of a row of names, making the directories on the way. -/
def insert (node : Node) : List String → Node → Node
  | [], _ => node
  | name :: names, parent =>
    put name (insert node names ((parent.entry? name).getD (.directory []))) parent

/-- The node at the end of a row of names. -/
def descend? : List String → Node → Option Node
  | [], node => some node
  | name :: names, node => (node.entry? name).bind (descend? names)

mutual

/-- The files at or below a node, each with the names that lead to it. -/
def files : Node → List (List String)
  | .file _ => [[]]
  | .directory entries => entryFiles entries

/-- The files at or below the entries of a directory. -/
def entryFiles : List (String × Node) → List (List String)
  | [] => []
  | (name, node) :: rest => (files node).map (name :: ·) ++ entryFiles rest

end

end Node

/-- A tree of directories, and the names that lead to the working directory. -/
structure Files where
  root : Node
  workingDirectory : List String

namespace Files

/-- The path of the node that a row of names leads to. -/
def absolutePath (names : List String) : String := "/" ++ "/".intercalate names

/-- How many bytes a name has at most. -/
def maxNameBytes : Nat := 255

/-- How many bytes a path has at most. -/
def maxPathBytes : Nat := 4095

/-- Goes along the steps of a path, from a place in the tree. -/
def follow (root : Node) (place : List String) : List String → Except SystemError (List String)
  | [] => .ok place
  | step :: steps =>
    match root.descend? place with
    | none => .error .missing
    | some node =>
      if node.isFile then .error .notDirectory
      else if step = "" || step = "." then follow root place steps
      else if step = ".." then follow root place.dropLast steps
      else if maxNameBytes < step.utf8ByteSize then .error .nameTooLong
      else if (node.entry? step).isSome then follow root (place ++ [step]) steps
      else .error .missing

/-- The names that a path without NUL leads to, and the node there. -/
def locate (files : Files) (path : String) : Except SystemError (List String × Node) :=
  if path.isEmpty then .error .missing
  else if maxPathBytes < path.utf8ByteSize then .error .nameTooLong
  else
    let steps := (Text.pieces '/' path.toList).map String.ofList
    let start := if path.toList.head? = some '/' then [] else files.workingDirectory
    match follow files.root start steps with
    | .error e => .error e
    | .ok names =>
      match files.root.descend? names with
      | none => .error .missing
      | some node => .ok (names, node)

/-- The names that a path leads to, and the node there. -/
def resolve (files : Files) (path : String) : Except PathError (List String × Node) :=
  if path.toList.contains '\x00' then .error .holdsNul
  else (files.locate path).mapError .system

/-- The text of a file. -/
def readText (files : Files) (path : String) : Except ReadFailure String :=
  match files.resolve path with
  | .error e => .error (.path e)
  | .ok (_, .directory _) => .error (.path (.system .isDirectory))
  | .ok (_, .file content) =>
    match String.fromUTF8? content with
    | some text => .ok text
    | none => .error .notText

end Files

/-- Takes up the definitions of a file. -/
def loadFile (files : Files) (draft : Draft) (path : String) : Except BuildError Draft :=
  match files.readText path with
  | .error e => .error (.unreadable path e)
  | .ok text => draft.load (some path) text

/-- Takes up the definitions of files in order. -/
def loadFiles (files : Files) (draft : Draft) (paths : List String) : Except BuildError Draft :=
  paths.foldlM (loadFile files) draft

end SchemaHint.Command
