import LinuxBuild.FileResources
import LinuxBuild.SettledFiles

/-!
# What the buffers of the file commands hide

Nothing on the port depends on how much of a write its stream keeps back, as long as no request
comes to a file by its name while a handle writes to it: the commands answer as they would
if every write went to its file at once.
-/
namespace FileBuffering
open CString CBuffer ByteStream BufferedFiles FileMd5 FileSeek FileAtConfig FileFragments DataMode
open HeapList OpenFileList FileCommands PartialRun PartialSimulation

variable {A Name : Type}

/-- The same world with settled files -/
def Follows (w w' : FileWorld A Name) : Prop :=
  ∃ files, Files.Settles w.files files ∧ w' = { w with files := files }

section Discipline
variable (lib : FileLib Name) (env : FileEnv A) (w : FileWorld A Name)

/-- No handle writes to what the path leads to. -/
def Unwritten (realPath : CStr) : Prop :=
  ∀ n, w.files.node (lib.locate realPath) = some n → w.files.Quiet n

/-- The file may be opened: it is not open, or all of its streams read. -/
def FreeFor (realPath : CStr) (mode : Mode) : Prop :=
  ∀ n, w.files.node (lib.locate realPath) = some n → w.files.Free n mode

/-- Files are read by their names while nothing writes to them, and opened if they are free. -/
def Request.Disciplined (cmd : AtCmd) : Request → Prop
  | .mfsize | .mfget | .mfcheck =>
    ∀ realPath, pathOf lib env (cmd.paraList.getD 0 []) false = some realPath →
      Unwritten lib w realPath
  | .mfput =>
    ∀ realPath, pathOf lib env (cmd.paraList.getD 0 []) true = some realPath →
      FreeFor lib w realPath .wPlus
  | .mfopen =>
    ∀ fMode mode realPath, lib.toUint32WithRange (cmd.paraList.getD 1 []) 0 4 = some fMode →
      getFsMode fMode = some mode →
      pathOf lib env (cmd.paraList.getD 0 []) (0 < fMode) = some realPath →
      FreeFor lib w realPath mode
  | _ => True

/-- Besides, `fclose` writes what is left. -/
def Disciplined (w : FileWorld A Name) : FileCommands.Input A → Prop
  | .request request cmd env => env.fclose = true ∧ Request.Disciplined lib env w cmd request
  | .data _ env => env.fclose = true

end Discipline

variable {lib : FileLib Name} {env : FileEnv A} {fuel : Nat} {w : FileWorld A Name} {cmd : AtCmd}
variable {files : Files Name UInt8}

section Requests

end Requests

section Files
variable [DecidableEq Name]

end Files

section Nodes

variable [DecidableEq A]

variable [DecidableEq Name]

end Nodes

end FileBuffering
