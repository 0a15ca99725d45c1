/-
Programs from files: raw images, and assembly text.
-/
import ChipEight.Assembly.Emission
import ChipEight.Directory
import ChipEight.Text.Utf8

namespace ChipEight

/-- Why a program cannot be had from a file. -/
inductive SourceError
  /-- The file cannot be read. -/
  | path (error : PathError)
  /-- The file is no text. -/
  | encoding (error : Text.Utf8Error)
  /-- The text cannot be assembled. -/
  | assembly (error : Assembly.Error)
  /-- The program does not fit into memory. -/
  | tooLarge (error : Memory.ProgramTooLarge)
  deriving DecidableEq, Repr

/-- The wording of the error. -/
def SourceError.message : SourceError → String
  | path e => e.message
  | encoding e => e.message
  | assembly e => e.message
  | tooLarge e => e.message

namespace Directory

/-- The text of the file at a path. -/
def readText (d : Directory) (path : List Char) : Except SourceError (List Char) :=
  match d.read path with
  | .error e => .error (.path e)
  | .ok bytes =>
    match Text.Utf8.decode bytes with
    | .error e => .error (.encoding e)
    | .ok text => .ok (Text.unifyNewlines text)

/-- Whether the name of a file tells that it holds assembly text. -/
def isAssembly (path : List Char) : Bool :=
  ['.', 'a', 's', 'm'].isSuffixOf path

/-- The program in a file. -/
def readProgram (d : Directory) (path : List Char) : Except SourceError Image :=
  if isAssembly path then
    match d.readText path with
    | .error e => .error e
    | .ok text =>
      match Assembly.assemble text Memory.programStart with
      | .error e => .error (.assembly e)
      | .ok image => .ok image
  else
    match d.read path with
    | .error e => .error (.path e)
    | .ok image => .ok image

end Directory

end ChipEight
