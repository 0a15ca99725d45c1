/-
The program: it looks up the files that are named, runs, and writes what there is to write.
-/
import ChipEight.CommandLine.Run

namespace ChipEight

/-- What there is on the disk at the parts of a path. -/
def onDisk? (parts : List (List Char)) : IO (Option Entry) := do
  let text := String.ofList (['/'].intercalate (parts.map fun p => if p = Path.root then [] else p))
  match ← (IO.FS.readBinFile (if text.isEmpty then "/" else text)).toBaseIO with
  | .ok bytes => return some (.file bytes.toList)
  | .error (.inappropriateType ..) => return some .directory
  | .error _ => return none

/-- The directory with what there is on the disk along a path. -/
def survey (d : Directory) (path : List Char) : IO Directory := do
  let parts := Path.parts path
  (List.range parts.length).foldlM
    (fun d k => do
      let here := parts.take (k + 1)
      match ← onDisk? here with
      | some e => return d.put here e
      | none => return d)
    d

/-- A session of the monitor at the terminal. -/
partial def converse (trace : Bool) (s : Machine) : IO Unit := do
  let out ← IO.getStdout
  out.putStr Monitor.prompt
  out.flush
  let line ← (← IO.getStdin).getLine
  let line := if line.isEmpty then Monitor.endOfInputLine else line.toList
  let d ← (Monitor.fileOf? line).toList.foldlM survey (.ofFiles [])
  let c := Monitor.onLine d trace line (Monitor.Console.ofMachine s)
  IO.eprint (CommandLine.journalText trace c.journal)
  out.putStr c.printed
  out.flush
  if Monitor.stops line then return
  converse trace c.machine

/-- Write what a run leaves behind, and give its exit code. -/
def finish (before : Directory) (target : Option (List Char)) (r : CommandLine.Report) :
    IO UInt32 := do
  IO.eprint r.errors
  IO.print r.output
  for path in target.toList do
    let written := (r.directory.read path).toOption
    if written ≠ (before.read path).toOption then
      IO.FS.writeBinFile (String.ofList path) ⟨(written.getD []).toArray⟩
  match r.ending with
  | .returned code => return UInt32.ofNat code
  | .exited status => return UInt32.ofNat status
  | .escaped e =>
    IO.eprintln e.message
    return 1

end ChipEight

open ChipEight in
/-- The program. -/
def main (arguments : List String) : IO UInt32 := do
  let arguments := arguments.map String.toList
  let (sources, target) := CommandLine.filesNamed arguments
  let d ← (sources ++ target.toList).foldlM survey (.ofFiles [])
  let entropy ← IO.rand 0 0x4000000000000000
  match CommandLine.start d entropy arguments with
  | .finished r => finish d target r
  | .monitor s trace errors =>
    IO.eprint errors
    IO.println ("\n".intercalate Monitor.greeting)
    converse trace s
    return 0
