import SequenceDiagram.Text.Basic

/-!
Where the program's input comes from and how reading it fails. `Folder` is the plainest place that
files can be read from: a working directory with files in it and no further directory.
-/

namespace SequenceDiagram.CommandLine

/-- Where to read the diagram from. -/
inductive Source where
  | standardInput
  | file (path : Text)
deriving DecidableEq, Repr

/-- Why something cannot be read. -/
inductive ReadError where
  | notFound
  | notDirectory
  | isDirectory
  | nameTooLong
  | denied
  /-- The bytes are no text. -/
  | notText
  /-- The terminal that the editor needs is not there. -/
  | noTerminal
  /-- Another failure that the system gives a number and a text for. -/
  | other (text : String) (number : Nat)
deriving DecidableEq, Repr

/-- The message of a failure that the system has a number for. -/
def ReadError.numbered (text : String) (number : Nat) : String := s!"{text} (os error {number})"

def ReadError.message : ReadError → String
  | notFound => numbered "No such file or directory" 2
  | notDirectory => numbered "Not a directory" 20
  | isDirectory => numbered "Is a directory" 21
  | nameTooLong => numbered "File name too long" 36
  | denied => numbered "Permission denied" 13
  | notText => "stream did not contain valid UTF-8"
  | noTerminal => numbered "No such device or address" 6
  | other text number => numbered text number

/-- The text that bytes encode. -/
def decode (bytes : ByteArray) : Except ReadError Text :=
  match String.fromUTF8? bytes with
  | some s => .ok s.toList
  | none => .error .notText

/-- A working directory that holds files only. -/
structure Folder where
  /-- Names and contents. -/
  files : List (Text × Text)

namespace Folder

/-- Where a path has led so far. -/
inductive Place where
  /-- The working directory itself. -/
  | here
  /-- Some directory above it. -/
  | above
  | file (text : Text)

/-- The greatest length of a name in bytes. -/
def maxName : Nat := 255

/-- The greatest length of a path in bytes. -/
def maxPath : Nat := 4095

/-- Follows one name of a path. -/
def follow (f : Folder) (p : Place) (name : Text) : Except ReadError Place :=
  match p with
  | .file _ => .error .notDirectory
  | p =>
    if name = [] ∨ name = ['.'] then .ok p
    else if name = ['.', '.'] then .ok .above
    else if maxName < (String.ofList name).utf8ByteSize then .error .nameTooLong
    else match p, f.files.lookup name with
      | .here, some text => .ok (.file text)
      | _, _ => .error .notFound

/-- The content of the file that a path leads to. A path that begins with a slash begins above, and one
that is too long as a whole is not followed at all. -/
def read (f : Folder) (path : Text) : Except ReadError Text := do
  if path = [] then throw .notFound
  if maxPath < (String.ofList path).utf8ByteSize then throw .nameTooLong
  let start := if path.head? = some '/' then Place.above else .here
  match ← (path.splitOn '/').foldlM f.follow start with
  | .file text => return text
  | _ => throw .isDirectory

end Folder

end SequenceDiagram.CommandLine
