import LocalGrid.Table.Column
import LocalGrid.Text.Utf8

/-!
# Files

What a run can read, as a function from paths to contents. Nothing else of a file system is known
here, so a run can be followed for any set of files.
-/

namespace LocalGrid

inductive FileError where
  /-- The system refuses, with a description and a code. -/
  | system (description : String) (code : Nat)
  /-- No file can have the name. -/
  | name
  /-- The content is no text. -/
  | encoding
  deriving DecidableEq, Repr

namespace FileError

def notFound : FileError := .system "No such file or directory" 2

def notDirectory : FileError := .system "Not a directory" 20

def isDirectory : FileError := .system "Is a directory" 21

/-- The name of a file or of a directory, or a whole path, has more bytes than the system takes. -/
def longName : FileError := .system "File name too long" 36

def message : FileError → String
  | .system description code => description ++ " (os error " ++ Nat.repr code ++ ")"
  | .name => "file name contained an unexpected NUL byte"
  | .encoding => "stream did not contain valid UTF-8"

end FileError

/-- The contents of files, or why they cannot be read. -/
abbrev Files := String → Except FileError (List UInt8)

def Files.bytes (files : Files) (path : String) : Except FileError (List UInt8) :=
  if path.toList.contains '\x00' then .error .name else files path

def Files.text (files : Files) (path : String) : Except FileError String := do
  (Text.decode (← files.bytes path)).mapError fun _ => .encoding

inductive SeriesError where
  | file (reason : FileError)
  | column (reason : Table.ColumnError)
  deriving DecidableEq, Repr

def SeriesError.message : SeriesError → String
  | .file reason => reason.message
  | .column reason => reason.message

def Files.column (files : Files) (path column : String) : Except SeriesError (List Float32) := do
  let bytes ← (files.bytes path).mapError .file
  (Table.readColumn column bytes).mapError .column

end LocalGrid
