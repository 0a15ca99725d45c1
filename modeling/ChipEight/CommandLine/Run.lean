/-
The program as a whole: from the arguments, the files and the input to what is written.

There are three ways to use the program: assembling a file, running a program without a window,
and the monitor.
-/
import ChipEight.CommandLine.Addresses
import ChipEight.CommandLine.Options
import ChipEight.Monitor.Session

namespace ChipEight.CommandLine

/-- How the program ends. -/
inductive Ending
  /-- It returns a code. -/
  | returned (code : Nat)
  /-- The arguments are not such that it can start. -/
  | exited (status : Nat)
  /-- It is broken off by an error. -/
  | escaped (error : SourceError)
  deriving DecidableEq, Repr

/-- What the program leaves behind. -/
structure Report where
  /-- How it ends. -/
  ending : Ending
  /-- The files. -/
  directory : Directory
  /-- What it has written to its output. -/
  output : String
  /-- What it has written to its error output. -/
  errors : String

/-- A text that is a line. -/
def asLine (s : String) : String :=
  s ++ "\n"

/-- Lines as one text. -/
def asLines (lines : List String) : String :=
  String.join (lines.map asLine)

/-- The lines of a journal, which has the latest event first, as far as they are shown. -/
def journalText (trace : Bool) (journal : List Event) : String :=
  asLines <| (journal.reverse.filter fun e => trace || e.level ≠ .debug).map Event.line

/-! ## Assembling a file -/

/-- Assemble a source file into a target file. -/
def assembleFile (d : Directory) (source target : List Char) (listing : Bool) : Report :=
  match d.readText source with
  | .error (.encoding e) => ⟨.escaped (.encoding e), d, "", ""⟩
  | .error e =>
    if e = .path ⟨.nullCharacter, source⟩ then ⟨.escaped e, d, "", ""⟩
    else ⟨.returned 1, d, "", asLine s!"Assembly error: {e.message}"⟩
  | .ok text =>
    let emission := Assembly.emission text Memory.programStart
    let listed := if listing then asLines (emission.listing.map String.ofList) else ""
    match emission.image with
    | .error e => ⟨.returned 1, d, listed, asLine s!"Assembly error: {e.message}"⟩
    | .ok image =>
      match d.write target image with
      | .error e => ⟨.escaped (.path e), d, listed, ""⟩
      | .ok d =>
        let note := s!"Assembled {String.ofList source} -> {String.ofList target} " ++
          s!"({image.length} bytes)"
        ⟨.returned 0, d, listed ++ asLine note, ""⟩

/-! ## Running a program -/

/-- The machine with bytes put into its memory. -/
def withPokes (s : Machine) (pokes : List (Int × UInt8)) : Machine :=
  let memory := pokes.foldl (fun m (address, b) => m.write address b) s.cpu.memory
  { s with cpu := { s.cpu with memory } }

/-- The machine that the settings ask for, before a program is loaded. -/
def Settings.machine (t : Settings) (entropy : Int) (breakpoints : List Int) : Machine :=
  let dialect := (Dialect.presets.lookup t.dialect).getD Dialect.chip8
  let s := Machine.fresh dialect t.clock (t.seed.getD entropy)
  breakpoints.foldl Machine.setBreakpoint s

/-- How a run begins. -/
inductive Start
  /-- It is over already. -/
  | finished (report : Report)
  /-- A session of the monitor begins, after something was written to the error output. -/
  | monitor (machine : Machine) (trace : Bool) (errors : String)

/-- Run a machine without a window, after something was written to the error output. -/
def runHeadless (t : Settings) (d : Directory) (s : Machine) (errors : String) : Report :=
  let o := s.runFrames t.verbose t.frames.toNat
  let errors := errors ++ journalText t.verbose o.journal
  match o.result with
  | .error e => ⟨.returned 1, d, "", errors ++ asLine s!"Fatal: {e.message}"⟩
  | .ok ran =>
    let frames : Int := if t.frames < 0 then t.frames else ran
    let event := Event.ran frames o.machine.cpu.running o.machine.halted
    ⟨.returned 0, d, asLine (String.ofList o.machine.cpu.screen.text),
      errors ++ asLine event.line⟩

/-- Begin to run a machine as the settings ask for, after something was written to the error
output. -/
def startMachine (t : Settings) (d : Directory) (s : Machine) (errors : String) : Start :=
  if t.monitor || (t.program.getD []).isEmpty then .monitor s t.verbose errors
  else if t.headless then .finished (runHeadless t d s errors)
  else
    .finished ⟨.returned 1, d, "", errors ++ asLine "[display] there is no window: use --headless"⟩

/-- Load the program that the settings ask for and begin to run it. -/
def startProgram (t : Settings) (d : Directory) (entropy : Int) (breakpoints : List Int)
    (pokes : List (Int × UInt8)) : Start :=
  let s := t.machine entropy breakpoints
  let path := t.program.getD []
  if path.isEmpty then startMachine t d (withPokes s pokes) ""
  else
    match s.loadProgram d path with
    | .error e =>
      let message := s!"Cannot load '{String.ofList path}': {e.message}"
      .finished ⟨.returned 1, d, "", asLine message⟩
    | .ok (s, n) =>
      let event := Event.loaded n (String.ofList path) t.dialect
      startMachine t d (withPokes s pokes) (asLine event.line)

/-! ## The program -/

/-- The report on wrong arguments. -/
def usageReport (d : Directory) (message : String) : Report :=
  ⟨.exited 2, d, "", asLine s!"chip8: error: {message}"⟩

/-- Begin to do what the settings ask for. -/
def startSettings (t : Settings) (d : Directory) (entropy : Int) : Start :=
  match breakpoints t.breakpoints, pokes t.pokes with
  | .error e, _ => .finished (usageReport d e.message)
  | _, .error e => .finished (usageReport d e.message)
  | .ok breakpoints, .ok pokes =>
    match t.assemble with
    | some (source, target) => .finished (assembleFile d source target t.listing)
    | none => startProgram t d entropy breakpoints pokes

/-- Begin to run the program.  The seed of the random numbers is `entropy` unless the arguments
give one. -/
def start (d : Directory) (entropy : Int) (arguments : List (List Char)) : Start :=
  match Settings.ofArguments arguments with
  | .error .help => .finished ⟨.exited 0, d, "", ""⟩
  | .error (.usage e) => .finished (usageReport d e.message)
  | .ok t => startSettings t d entropy

/-- The lines of an input, where the last need not be ended. -/
def inputLines (input : List Char) : List (List Char) :=
  let lines := input.splitOn '\n'
  if lines.getLast? = some [] then lines.dropLast else lines

/-- Run the program on files and an input. -/
def run (d : Directory) (input : List Char) (entropy : Int) (arguments : List (List Char)) :
    Report :=
  match start d entropy arguments with
  | .finished report => report
  | .monitor s trace errors =>
    let c := Monitor.session d trace s (inputLines input)
    ⟨.returned 0, d, c.printed, errors ++ journalText trace c.journal⟩

/-- The files that the arguments name: those that are read, and the one that is written. -/
def filesNamed (arguments : List (List Char)) : List (List Char) × Option (List Char) :=
  match Settings.ofArguments arguments with
  | .error _ => ([], none)
  | .ok t => (t.program.toList ++ (t.assemble.map (·.1)).toList, t.assemble.map (·.2))

end ChipEight.CommandLine
