/-!
# File systems

A `FileSystem` is a tree of directories and files below a root, with a working directory.  A path
that begins with a slash starts at the root, any other path at the working directory, and every part
of it but the last leads through a directory that exists.  Files may be closed for reading or for
writing.
-/

namespace PoolGraph

/-- Directories and files, each by the names on the way from the root to it. -/
structure FileSystem where
  working : List String
  /-- The directories apart from the root. -/
  directories : List (List String)
  files : List (List String × ByteArray)
  mayRead : List String → Bool
  mayWrite : List String → Bool

namespace FileSystem

/-- The files and the directories that they need, with a working directory that may hold none of
them; everything may be read and written. -/
def ofFiles (working : List String) (files : List (List String × ByteArray)) : FileSystem where
  working := working
  directories := (working :: files.map fun (names, _) => names.dropLast).flatMap fun names =>
    (List.range names.length).map fun k => names.take (k + 1)
  files := files
  mayRead _ := true
  mayWrite _ := true

/-- The parts of a path between its slashes. -/
def parts : List Char → List (List Char)
  | [] => [[]]
  | c :: rest =>
    if c = '/' then [] :: parts rest
    else match parts rest with
      | [] => [[c]]
      | first :: others => (c :: first) :: others

/-- Whether a directory is at a place; the root always is one. -/
def isDirectory (fs : FileSystem) (names : List String) : Bool :=
  names.isEmpty || fs.directories.contains names

/-- The directory that the parts of a path lead to from a directory.  There is nothing above the
root. -/
def walk? (fs : FileSystem) (here : List String) : List String → Option (List String)
  | [] => some here
  | part :: rest =>
    if part = "" || part = "." then fs.walk? here rest
    else if part = ".." then fs.walk? here.dropLast rest
    else if fs.isDirectory (here ++ [part]) then fs.walk? (here ++ [part]) rest
    else none

/-- The place of the file that a path stands for, whether there is a file or not; nothing for a path
that stands for a directory or leads through something else. -/
def names? (fs : FileSystem) (path : String) : Option (List String) := do
  let parts := (parts path.toList).map String.ofList
  let name ← parts.getLast?
  if name = "" || name = "." || name = ".." then none
  else
    let start := if path.toList.head? = some '/' then [] else fs.working
    let directory ← fs.walk? start parts.dropLast
    if fs.isDirectory directory then some (directory ++ [name]) else none

/-- The contents of a file. -/
def read? (fs : FileSystem) (path : String) : Option ByteArray := do
  let names ← fs.names? path
  if fs.mayRead names then fs.files.lookup names else none

/-- The files after one more was written, in a directory that exists and not in place of one. -/
def write? (fs : FileSystem) (path : String) (data : ByteArray) : Option FileSystem := do
  let names ← fs.names? path
  if fs.isDirectory names || !fs.mayWrite names then none
  else if (fs.files.lookup names).isSome then
    some { fs with files := fs.files.map fun file => if file.1 = names then (names, data) else file }
  else some { fs with files := fs.files ++ [(names, data)] }

end FileSystem

end PoolGraph
