import GrammarConflict.ErrorKind
import GrammarConflict.Text.Quoted

/-!
# Files

The command reads one file.  `FileError` says why that may fail; the system may have causes of its
own, with words of its own.  A `Folder` is a stand-in for the folder that the command works in:
files by name, and the folders beside them.
-/

namespace GrammarConflict

/-- Why a file cannot be read. -/
inductive FileError where
  | notFound
  | notAFolder
  | isAFolder
  /-- A path, or one part of it, has too many bytes. -/
  | nameTooLong
  /-- A path cannot hold the character zero. -/
  | zeroInPath
  /-- Any other cause, in the words of the system. -/
  | other (message : String)
deriving DecidableEq, Repr

/-- The kind of an error: the system refuses to read, or the path is none. -/
def FileError.kind : FileError → ErrorKind
  | .zeroInPath => .value
  | _ => .system

/-- The words for an error with a path. -/
def FileError.message (path : String) : FileError → String
  | .notFound => "[Errno 2] No such file or directory: " ++ Text.quote path
  | .notAFolder => "[Errno 20] Not a directory: " ++ Text.quote path
  | .isAFolder => "[Errno 21] Is a directory: " ++ Text.quote path
  | .nameTooLong => "[Errno 36] File name too long: " ++ Text.quote path
  | .zeroInPath => "embedded null byte"
  | .other message => message

/-- Files and folders by their paths from one folder. -/
structure Folder where
  files : List (String × List UInt8)
  folders : List String

namespace Folder

/-- What a path leads to. -/
inductive Place where
  | file (content : List UInt8)
  /-- The folder reached by the names, the last one first. -/
  | inside (names : List String)
  /-- A folder of which nothing is known. -/
  | outside

/-- The most bytes in one part of a path. -/
def longestPart : Nat := 255

/-- The most bytes in a path. -/
def longestPath : Nat := 4095

/-- The path of the names. -/
def pathOf (names : List String) : String :=
  "/".intercalate names.reverse

/-- Whether there is a folder at the path, if only because something lies in it. -/
def hasFolder (folder : Folder) (path : String) : Bool :=
  folder.folders.contains path ||
    (folder.files.map (·.1) ++ folder.folders).any fun inner => inner.startsWith (path ++ "/")

/-- Goes on by one part of a path. -/
def enter (folder : Folder) (place : Place) (part : String) : Except FileError Place :=
  match place with
  | .file _ => .error .notAFolder
  | .outside =>
    if part = "" ∨ part = "." ∨ part = ".." then .ok .outside
    else if longestPart < part.utf8ByteSize then .error .nameTooLong
    else .error .notFound
  | .inside names =>
    if part = "" ∨ part = "." then .ok (.inside names)
    else if part = ".." then
      match names with
      | [] => .ok .outside
      | _ :: upper => .ok (.inside upper)
    else if longestPart < part.utf8ByteSize then .error .nameTooLong
    else
      let path := pathOf (part :: names)
      match folder.files.lookup path with
      | some content => .ok (.file content)
      | none =>
        if folder.hasFolder path then .ok (.inside (part :: names)) else .error .notFound

/-- The content of the file that a path leads to. -/
def read (folder : Folder) (path : String) : Except FileError (List UInt8) := do
  if path.toList.contains '\x00' then throw .zeroInPath
  if path.isEmpty then throw .notFound
  if longestPath < path.utf8ByteSize then throw .nameTooLong
  let start : Place := if path.startsWith "/" then .outside else .inside []
  match ← (path.splitOn "/").foldlM folder.enter start with
  | .file content => return content
  | _ => throw .isAFolder

end Folder

end GrammarConflict
