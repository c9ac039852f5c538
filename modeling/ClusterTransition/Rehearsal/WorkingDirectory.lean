import ClusterTransition.CommandLine.Disk
import ClusterTransition.Text.Path

/-! # A directory for rehearsals

The program can be rehearsed in a directory that exists on paper only.  Paths are taken from that
directory; what lies outside of it is not there.
-/

namespace ClusterTransition

/-- Something in a directory. -/
inductive DirectoryEntry where
  | directory
  | file (content : String)
  deriving DecidableEq, Repr

/-- A directory with all that is below it. -/
structure WorkingDirectory where
  /-- What is found at each place.  A place is given by the names that lead to it. -/
  entries : List (List String × DirectoryEntry) := []
  deriving DecidableEq, Repr

namespace WorkingDirectory

/-- What is at a place. -/
def entry? (d : WorkingDirectory) : List String → Option DirectoryEntry
  | [] => some .directory
  | place => (d.entries.find? (·.1 = place)).map (·.2)

/-- Puts something at a place. -/
def put (d : WorkingDirectory) (place : List String) (entry : DirectoryEntry) : WorkingDirectory :=
  { entries := d.entries.filter (·.1 ≠ place) ++ [(place, entry)] }

/-! ## Paths -/

/-- The place to which the pieces of a path lead.  Only a directory leads on. -/
def walk (d : WorkingDirectory) (place : List String) : List String → Option (List String)
  | [] => some place
  | piece :: rest =>
    if d.entry? place ≠ some .directory then none
    else if piece = "" || piece = "." then d.walk place rest
    else if piece = ".." then if place = [] then none else d.walk place.dropLast rest
    else d.walk (place ++ [piece]) rest

/-- The pieces of a path that starts in the directory. -/
def pieces? (path : String) : Option (List String) :=
  let pieces := Path.pieces path
  if pieces.head? = some "" then none else some pieces

/-- What is found at a path. -/
def files (d : WorkingDirectory) : Files := fun path =>
  match ((pieces? path).bind (d.walk [])).bind d.entry? with
  | none => .missing
  | some .directory => .unreadable
  | some (.file content) => .text content

/-! ## Changes -/

/-- Follows the pieces of a path and makes the directories that are missing. -/
def makeDirectories (d : WorkingDirectory) (place : List String) :
    List String → Option (List String × WorkingDirectory)
  | [] => some (place, d)
  | piece :: rest =>
    if piece = "" || piece = "." then d.makeDirectories place rest
    else if piece = ".." then
      if place = [] then none else d.makeDirectories place.dropLast rest
    else
      let place := place ++ [piece]
      match d.entry? place with
      | none => (d.put place .directory).makeDirectories place rest
      | some .directory => d.makeDirectories place rest
      | some (.file _) => none

/-- Writes a file, whose directory is made if it is missing. -/
def write (d : WorkingDirectory) (path content : String) : Option WorkingDirectory := do
  let pieces ← pieces? path
  let name ← pieces.getLast?
  if name ∈ ["", ".", ".."] then none
  else
    let (place, d) ← d.makeDirectories [] pieces.dropLast
    let place := place ++ [name]
    if d.entry? place = some .directory then none else some (d.put place (.file content))

/-- The files that are new or have changed, by path. -/
def changes (before after : WorkingDirectory) : List (String × String) :=
  after.entries.filterMap fun (place, entry) =>
    match entry with
    | .file content =>
      if before.entry? place = some entry then none else some ("/".intercalate place, content)
    | .directory => none

/-- The directory with files in it, by path.  A path that ends in a slash stands for an empty
directory. -/
def ofFiles (files : List (String × String)) : WorkingDirectory :=
  files.foldl (fun d (path, content) =>
    (if (Path.pieces path).getLast? = some "" then
      (d.makeDirectories [] (Path.pieces path)).map (·.2)
    else d.write path content).getD d) {}

/-- The directory, as a disk. -/
def disk : Disk WorkingDirectory where
  files := files
  write := write

/-- Runs the program in the directory. -/
def run (d : WorkingDirectory) (environment : Option String) (args : List String) :
    Response × WorkingDirectory :=
  disk.run d environment args

end WorkingDirectory
end ClusterTransition
