import CodeCausality.CommandLine.Run
import Std.Time

/-!
# The program

The command line on a computer: its files, its environment and its clock. All that is decided is
decided in `CommandLine`.
-/

namespace CodeCausality

namespace Disk

/-! ## 1. Files of a computer -/

/-- The number and the description of a fault, if the system gives them. -/
def numbered? : IO.Error → Option (UInt32 × String)
  | .noFileOrDirectory _ code description => some (code, description)
  | .inappropriateType _ code description => some (code, description)
  | .permissionDenied _ code description => some (code, description)
  | .noSuchThing _ code description => some (code, description)
  | .invalidArgument _ code description => some (code, description)
  | .resourceExhausted _ code description => some (code, description)
  | .otherError code description => some (code, description)
  | _ => none

/-- The number of a fault, which some parts of the system give below zero. -/
def faultNumber (code : UInt32) : Nat :=
  code.toInt32.toInt.natAbs

def faultOf (e : IO.Error) : FileFault :=
  match numbered? e with
  | none => .other (toString e) 5
  | some (code, description) =>
    match faultNumber code with
    | 2 => .missing
    | 20 => .notDirectory
    | 21 => .isDirectory
    | n => .other description n

/-- The outcome of an action that may throw. -/
def caught {β : Type} (action : IO β) : IO (Except FileFault β) :=
  try return .ok (← action) catch e => return .error (faultOf e)

def kind? (path : String) : IO (Option FileKind) := do
  let place := (← IO.currentDir) / path
  if ← place.isDir then return some .directory
  else if ← place.pathExists then return some .file
  else return none

def read (path : String) : IO (Except FileFault ByteArray) := do
  match ← kind? path with
  | some .directory => return .error .isDirectory
  | _ => caught (IO.FS.readBinFile path)

def makeDirectory (path : String) : IO (Except FileFault Unit) := do
  match ← kind? path with
  | some .file => return .error .notDirectory
  | _ => caught (IO.FS.createDirAll path)

/-- The files below a directory; one that cannot be listed has none. -/
partial def below (enter : String → Bool) (directory : String) : IO (List String) := do
  let listed ← caught ((← IO.currentDir) / directory).readDir
  let names := (listed.toOption.getD #[]).toList.map (·.fileName)
  names.flatMapM fun name => do
    match ← kind? (Path.join directory name) with
    | some .directory =>
      if enter name then
        return (← below enter (Path.join directory name)).map (Path.join name)
      else return []
    | _ => return [name]

instance : FileAccess IO where
  kind? := kind?
  read := read
  write path bytes := caught (IO.FS.writeBinFile path bytes)
  makeDirectory := makeDirectory
  below := below

end Disk

/-! ## 2. Environment and clock -/

/-- The variables that settings may come from. -/
def settingsVariables : IO (String → Option String) := do
  let seed ← IO.getEnv Settings.seedVariable
  let samples ← IO.getEnv Settings.samplesVariable
  return fun name =>
    if name = Settings.seedVariable then seed
    else if name = Settings.samplesVariable then samples
    else none

def clock : IO Instant := do
  let n := (← Std.Time.Timestamp.now).toNanosecondsSinceUnixEpoch.toInt
  return ⟨n / 1000000000, (n % 1000000000).toNat⟩

end CodeCausality

open CodeCausality

/-- Runs the command line. Words that are no command line end it with 2. -/
def main (words : List String) : IO UInt32 := do
  match CommandLine.Invocation.ofWords? words with
  | none =>
    IO.eprintln s!"error: expected {CommandLine.usage} with its options"
    return 2
  | some i =>
    match ← i.run (← settingsVariables) (← clock) with
    | .ok shown =>
      IO.print shown
      return 0
    | .error f =>
      IO.eprintln s!"Error: {f.message}"
      return f.exitCode.toUInt32
