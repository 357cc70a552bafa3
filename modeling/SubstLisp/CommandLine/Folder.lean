import SubstLisp.CommandLine.Files

/-!
# Folders

A folder given by its files, for runs that read nothing else.  A file whose name holds slashes lies
in a folder inside.  When two files have one name, the later one replaces the earlier.
-/

namespace SubstLisp

/-- A folder, as its files' names with their contents. -/
structure Folder where
  files : List (String × String)
deriving DecidableEq, Inhabited

namespace Folder

def fileAt? (folder : Folder) (place : List (List Char)) : Option String :=
  (folder.files.reverse.find? fun file => pathComponents file.1 = place).map Prod.snd

def isInhabited (folder : Folder) (place : List (List Char)) : Bool :=
  folder.files.any fun file =>
    place.isPrefixOf (pathComponents file.1) && pathComponents file.1 ≠ place

/-- The place that some components of a path lead to from another place.  Nothing lies behind a
file, not even the file itself, and above the folder nothing is known. -/
def walk (folder : Folder) (place : List (List Char)) :
    List (List Char) → Except String (List (List Char))
  | [] => .ok place
  | component :: rest =>
      if (folder.fileAt? place).isSome then .error notFolderReason
      else if component = [] || component = ['.'] then folder.walk place rest
      else if component = ['.', '.'] then
        if place.isEmpty then .error missingFileReason else folder.walk place.dropLast rest
      else if (folder.fileAt? (place ++ [component])).isSome ||
          folder.isInhabited (place ++ [component]) then
        folder.walk (place ++ [component]) rest
      else .error missingFileReason

/-- The content of the file that a path leads to, or the reason why there is none. -/
def content (folder : Folder) (path : String) : Except String String := do
  if path.isEmpty || path.startsWith "/" then throw missingFileReason
  let place ← folder.walk [] (splitAt '/' path.toList)
  match folder.fileAt? place with
  | some text => return text
  | none => throw folderReason

end Folder

end SubstLisp
