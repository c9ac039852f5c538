import ClusterTransition.Text.Split

/-! # Paths of files

A path is made of names with slashes between them.  Empty names and single points do not count, and
two points stand for the directory above.
-/

namespace ClusterTransition
namespace Path

/-- All that stands between slashes. -/
def pieces (path : String) : List String := (splitAll '/' path.toList).map String.ofList

/-- The names that count. -/
def names (path : String) : List String := (pieces path).filter fun n => n ≠ "" && n ≠ "."

/-- The name of the file itself, unless the path leads to a directory above. -/
def fileName? (path : String) : Option String := (names path).getLast?.filter (· ≠ "..")

/-- The part of a name after its last point.  A name that has no point but one in front has none. -/
def extension? (name : String) : Option String :=
  match (splitAll '.' name.toList).reverse with
  | last :: front :: rest => if front = [] && rest = [] then none else String.ofList last
  | _ => none

/-- The path of the directory that holds a file; none for the working directory. -/
def parent? (path : String) : Option String :=
  match (splitAll '/' path.toList).reverse with
  | _ :: [[]] => some "/"
  | _ :: front :: rest =>
    some (String.ofList (List.intercalate ['/'] (front :: rest).reverse))
  | _ => none

end Path
end ClusterTransition
