import Solr.Text.Split

/-! Files as paths name them, and why one cannot be read. A path is walked from the root
or from a working directory, one name after the other. -/
namespace Solr.CommandLine

inductive FileFault where
  | noSuchFile
  | accessDenied
  | notDirectory
  | isDirectory
  | nameTooLong
  | notText
  | other (description : String)
  deriving DecidableEq

namespace FileFault

def message : FileFault → String
  | .noSuchFile => "No such file or directory (os error 2)"
  | .accessDenied => "Permission denied (os error 13)"
  | .notDirectory => "Not a directory (os error 20)"
  | .isDirectory => "Is a directory (os error 21)"
  | .nameTooLong => "File name too long (os error 36)"
  | .notText => "stream did not contain valid UTF-8"
  | .other description => description

end FileFault

/-- What a name stands for in a directory. -/
inductive FileEntry where
  | file (contents : String)
  | directory (entries : List (String × FileEntry))

namespace FileEntry

/-- The bytes that a name may have. -/
def longestName : Nat := 255

/-- The bytes that a path may have. -/
def longestPath : Nat := 4095

/-- Walks on from an entry, with the directories above it, the innermost first. Nothing
leads on from a file, and above the root is the root. -/
def walk : List FileEntry → FileEntry → List String → Except FileFault FileEntry
  | _, entry, [] => .ok entry
  | _, .file _, _ :: _ => .error .notDirectory
  | above, .directory entries, name :: rest =>
    if name = "" ∨ name = "." then walk above (.directory entries) rest
    else if name = ".." then
      match above with
      | [] => walk [] (.directory entries) rest
      | parent :: above => walk above parent rest
    else if longestName < name.utf8ByteSize then .error .nameTooLong
    else
      match entries.find? (·.1 = name) with
      | none => .error .noSuchFile
      | some p => walk (.directory entries :: above) p.2 rest

/-- The names of a path from the root on; `working` are those of the working directory. -/
def names (working : List String) (path : String) : List String :=
  let names := (Text.splitAt '/' path.toList).map String.ofList
  if names.head? = some "" then names else working ++ names

/-- The contents of the file at a path. -/
def read (root : FileEntry) (working : List String) (path : String) : Except FileFault String :=
  if path = "" then .error .noSuchFile
  else if longestPath < path.utf8ByteSize then .error .nameTooLong
  else
    match walk [] root (names working path) with
    | .ok (.file contents) => .ok contents
    | .ok (.directory _) => .error .isDirectory
    | .error fault => .error fault

theorem walk_file_cons (above : List FileEntry) (contents name : String) (rest : List String) :
    walk above (.file contents) (name :: rest) = .error .notDirectory := rfl

end FileEntry
end Solr.CommandLine
