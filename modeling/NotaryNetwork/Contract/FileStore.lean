import NotaryNetwork.Text.Search

/-!
# Files of contracts

A store is a tree of folders with texts in it. A file is found by a path from a folder of the store:
parts between slashes, of which empty ones and single dots count for nothing and two dots lead to the
folder above. What lies outside of the store is not known to hold any file.

A path may be refused: no part of it is longer than 255 bytes, and the whole path is shorter than
4096 bytes. A part is looked at only if the folder that it should be in is there.
-/

namespace NotaryNetwork.Contract

/-- What is found at a path. -/
inductive Lookup
  | file (text : String)
  | nothing
  /-- The path or a part of it is too long. -/
  | refused
deriving DecidableEq

/-- A folder or file by the names that lead to it from the top of a store. -/
abbrev Path := List String

/-- Folders, and files with their texts. -/
structure FileStore where
  folders : List Path
  files : List (Path × String)

/-- Where a walk along a path is: in a folder of the store, or in one outside. -/
inductive Place
  | inside (folder : Path)
  | outside
deriving DecidableEq

def Place.parent : Place → Place
  | inside [] => outside
  | inside folder => inside folder.dropLast
  | outside => outside

/-- The most bytes of a part of a path. -/
def longestPart : Nat := 255

def longestPath : Nat := 4095

def pathParts (path : List Char) : List String :=
  ((Text.pieces '/' path).map String.ofList).filter fun part => part ≠ "" && part ≠ "."

namespace FileStore

/-- What the parts of a path lead to from a place. A folder at the end is no file. -/
def walk (store : FileStore) : Place → List String → Lookup
  | _, [] => .nothing
  | place, part :: rest =>
    if part = ".." then store.walk place.parent rest
    else if longestPart < part.utf8ByteSize then .refused
    else
      match place with
      | .outside => .nothing
      | .inside folder =>
        let path := folder ++ [part]
        if store.folders.contains path then store.walk (.inside path) rest
        else if rest.isEmpty then ((store.files.lookup path).map .file).getD .nothing
        else .nothing

/-- The file at a path that starts from a folder, or from outside if it starts with a slash. -/
def read (store : FileStore) (folder : Path) (path : String) : Lookup :=
  let parts := pathParts path.toList
  if path.toList.contains '\x00' then .nothing
  else if longestPath < ("/".intercalate parts).utf8ByteSize then .refused
  else if path.toList.head? = some '/' then store.walk .outside parts
  else if store.folders.contains folder then store.walk (.inside folder) parts
  else .nothing

end FileStore

/-- The files of schemas by their names. -/
abbrev Catalogue := String → Lookup

def fileName (schema : String) : String := schema ++ ".json"

def FileStore.catalogue (store : FileStore) (folder : Path) : Catalogue := fun name =>
  store.read folder (fileName name)

end NotaryNetwork.Contract
