import Rehome.PassError
import Rehome.Text.Split

/-!
# Disks — the files a program may read and write

A disk says what a path holds and whether a file can be written there. `Disk.ofFiles` is a
directory with some files. A path in it may be written in several ways, since empty parts and
single dots mean nothing; a file can be written where there is a directory to hold it and no
directory of its name.
-/

namespace Rehome.Cli

/-- What can be read from and written to. -/
structure Disk where
  /-- The text that a path holds. -/
  read : String → Except FileError String
  /-- Whether a file can be written at a path. -/
  canWrite : String → Bool

namespace Disk

/-- The text of bytes that have to be one. -/
def textOf (bytes : ByteArray) : Except FileError String :=
  match String.fromUTF8? bytes with
  | some text => .ok text
  | none => .error .notText

/-- The parts of a path that say where it leads. -/
def parts (path : String) : List (List Char) :=
  (Text.splitWhere (· == '/') path.toList).filter fun part => part ≠ [] ∧ part ≠ ['.']

/-- Whether a path may name a file of the directory: it does not start at the root and does not
    end as the path of a directory. -/
def isLocal (path : String) : Bool :=
  path.toList.head? != some '/' && path.toList.getLast? != some '/'

/-- Whether a path leads to a directory: the one of the disk, or one with files in it. -/
def isDirectory (files : List (String × ByteArray)) (place : List (List Char)) : Bool :=
  place.isEmpty || files.any fun (name, _) =>
    place.isPrefixOf (parts name) && decide (place.length < (parts name).length)

/-- A directory with some files. -/
def ofFiles (files : List (String × ByteArray)) : Disk where
  read path :=
    match files.find? fun (name, _) => isLocal path && parts name == parts path with
    | some (_, bytes) => textOf bytes
    | none => .error .notFound
  canWrite path :=
    isLocal path && path != "" && isDirectory files (parts path).dropLast
      && !isDirectory files (parts path)

end Disk

end Rehome.Cli
