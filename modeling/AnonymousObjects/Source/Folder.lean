import AnonymousObjects.Source.Path

/-!
# Folders

A `Folder` holds files and folders by their paths. `Folder.find` follows a path from inside it. A
path may leave the folder by two dots, and everything outside is taken to be empty; it may not go
through a file or through a name that is missing. Overlong names and paths are refused where they
are met, unless the path can lead nowhere because it holds a null character.
-/

namespace AnonymousObjects

/-- Why something at a path cannot be read. -/
inductive AccessFault where
  | isDirectory
  | nameTooLong
deriving DecidableEq, Repr

/-- What stands at a path. -/
inductive PathTarget where
  | missing
  | barred (fault : AccessFault)
  | file (bytes : List UInt8)
deriving DecidableEq, Repr

namespace Path

/-- The largest number of bytes in a name. -/
def nameLimit : Nat := 255

/-- The largest number of bytes in a path. -/
def lengthLimit : Nat := 4095

end Path

/-- The files of a folder, each at the names that lead to it. -/
structure Folder where
  files : List (List String × List UInt8)

namespace Folder

/-- The folder with files at paths. -/
def ofFiles (files : List (String × List UInt8)) : Folder :=
  ⟨files.map fun (path, bytes) => (Path.names path, bytes)⟩

/-- The place that two dots lead to. Nothing is known of places outside the folder. -/
def parent : Option (List String) → Option (List String)
  | none | some [] => none
  | some (name :: names) => some (name :: names).dropLast

/-- What stands at the end of names, from a place inside the folder or from outside. -/
def follow (f : Folder) : Option (List String) → List String → PathTarget
  | _, [] => .barred .isDirectory
  | place, name :: rest =>
    if name = ".." then follow f (parent place) rest
    else if Path.nameLimit < name.utf8ByteSize then .barred .nameTooLong
    else
      match place with
      | none => .missing
      | some inside =>
        let here := inside ++ [name]
        match f.files.lookup here with
        | some bytes => if rest.isEmpty then .file bytes else .missing
        | none =>
          if f.files.any fun (names, _) => here.isPrefixOf names then follow f (some here) rest
          else .missing

/-- What stands at a path. -/
def find (f : Folder) (path : String) : PathTarget :=
  if Path.leadsNowhere path then .missing
  else if Path.lengthLimit < path.utf8ByteSize then .barred .nameTooLong
  else f.follow (if Path.isAbsolute path then none else some []) (Path.names path)

end Folder

end AnonymousObjects
