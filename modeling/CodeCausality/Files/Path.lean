/-!
# Paths

A path is a text whose parts stand between slashes; this file fixes what its parts are, how a name
is put behind it, and what of a file name is the extension.
-/

namespace CodeCausality

namespace Path

/-- The parts of a path between slashes, without the empty ones and those that stay where they
are. -/
def parts (path : List Char) : List (List Char) :=
  (path.splitOn '/').filter fun p => !p.isEmpty && p != ['.']

/-- A file name as what stands before its last point and the extension behind it. There is no
extension if nothing stands before the point. -/
def splitExtension (name : List Char) : List Char × Option (List Char) :=
  match (name.reverse.dropWhile (· != '.')).drop 1 with
  | [] => (name, none)
  | stem => (stem.reverse, some (name.reverse.takeWhile (· != '.')).reverse)

/-- The last part of a path, unless the path ends with a step up. -/
def fileName? (path : String) : Option (List Char) :=
  match (parts path.toList).getLast? with
  | some ['.', '.'] => none
  | name => name

/-- The path of a name below a directory. -/
def join (directory name : String) : String :=
  if directory.isEmpty || directory.toList.getLast? == some '/' then directory ++ name
  else directory ++ "/" ++ name

/-- Whether the path names a file with the extension. -/
def hasExtension (extension : String) (path : String) : Bool :=
  match fileName? path with
  | some name => (splitExtension name).2 == some extension.toList
  | none => false

/-- Whether the path ends with the name. -/
def endsWith (name : String) (path : String) : Bool := fileName? path == some name.toList

end Path

end CodeCausality
