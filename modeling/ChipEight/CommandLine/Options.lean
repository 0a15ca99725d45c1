/-
The options of the command line.

An option may be shortened as long as it stays unambiguous, an argument may be attached to its
option by an equals sign, and short options may be run together.  After the argument `--` nothing
is an option.  What looks like a negative number is no option either.  An attached `--` is no
argument: the option is used without one and changes nothing.
-/
import ChipEight.Dialect
import ChipEight.Numeral.Literal
import ChipEight.Machine.Basic

namespace ChipEight.CommandLine

/-! ## Switches -/

/-- The options. -/
inductive Switch
  /-- Show the options. -/
  | help
  /-- The dialect. -/
  | dialect
  /-- The clock. -/
  | clock
  /-- Breakpoints. -/
  | breakpoints
  /-- Bytes to be put into memory. -/
  | pokes
  /-- The scale of the window. -/
  | scale
  /-- Run without a window. -/
  | headless
  /-- The number of frames to run without a window. -/
  | frames
  /-- Start the monitor. -/
  | monitor
  /-- The seed of the random numbers. -/
  | seed
  /-- Assemble a file. -/
  | assemble
  /-- Print a listing. -/
  | listing
  /-- Trace the instructions. -/
  | verbose
  deriving DecidableEq, Repr

namespace Switch

/-- All options. -/
def all : List Switch :=
  [help, dialect, clock, breakpoints, pokes, scale, headless, frames, monitor, seed, assemble,
    listing, verbose]

/-- How the option is written. -/
def spellings : Switch → List String
  | help => ["-h", "--help"]
  | dialect => ["--quirks"]
  | clock => ["--clock"]
  | breakpoints => ["--break"]
  | pokes => ["--set"]
  | scale => ["--scale"]
  | headless => ["--headless"]
  | frames => ["--frames"]
  | monitor => ["--monitor"]
  | seed => ["--seed"]
  | assemble => ["--assemble"]
  | listing => ["--listing", "-l"]
  | verbose => ["-v", "--verbose"]

/-- The option as messages name it. -/
def title (s : Switch) : String :=
  "/".intercalate s.spellings

/-- The number of arguments of the option. -/
def arity : Switch → Nat
  | help | headless | monitor | listing | verbose => 0
  | dialect | clock | breakpoints | pokes | scale | frames | seed => 1
  | assemble => 2

/-- All spellings with their options. -/
def table : List (List Char × Switch) :=
  all.flatMap fun s => s.spellings.map fun text => (text.toList, s)

/-- The option that is written so. -/
def ofSpelling? (text : List Char) : Option Switch :=
  table.lookup text

end Switch

/-! ## Errors -/

/-- What is wrong with the use of an option. -/
inductive Misuse
  /-- Arguments are missing. -/
  | missing
  /-- An argument is attached that is not wanted. -/
  | unwanted (argument : List Char)
  /-- The argument is not a whole number. -/
  | notANumber (argument : List Char)
  /-- The argument is not one of the choices. -/
  | notAChoice (argument : List Char)
  deriving DecidableEq, Repr

/-- What is wrong with the arguments. -/
inductive UsageError
  /-- An option is used in a wrong way. -/
  | misuse (switch : Switch) (misuse : Misuse)
  /-- An option is shortened too much. -/
  | ambiguous (argument : List Char) (candidates : List (List Char))
  /-- Arguments are left over. -/
  | leftOver (arguments : List (List Char))
  deriving DecidableEq, Repr

/-- The wording of the misuse. -/
def Misuse.message (arity : Nat) : Misuse → String
  | missing => if arity = 1 then "expected one argument" else s!"expected {arity} arguments"
  | unwanted argument => s!"ignored explicit argument {Text.quoted argument}"
  | notANumber argument => s!"invalid int value: {Text.quoted argument}"
  | notAChoice argument =>
    let choices := ", ".intercalate (Dialect.presets.map fun (name, _) => Text.quoted name.toList)
    s!"invalid choice: {Text.quoted argument} (choose from {choices})"

/-- The wording of the error. -/
def UsageError.message : UsageError → String
  | misuse switch m => s!"argument {switch.title}: {m.message switch.arity}"
  | ambiguous argument candidates =>
    let shown := ", ".intercalate (candidates.map String.ofList)
    s!"ambiguous option: {String.ofList argument} could match {shown}"
  | leftOver arguments =>
    let shown := " ".intercalate (arguments.map String.ofList)
    s!"unrecognized arguments: {shown}"

/-! ## Tokens -/

/-- What an argument of the command line is. -/
inductive Token
  /-- An argument by itself. -/
  | plain (text : List Char)
  /-- The end of the options. -/
  | endOfOptions
  /-- An option, with the text that is attached to it; a short one has a single dash. -/
  | option (switch : Switch) (short : Bool) (attached : Option (List Char))
  /-- What looks like an option and is none. -/
  | unknown (text : List Char)
  deriving DecidableEq, Repr

namespace Token

/-- What follows the first equals sign. -/
def afterEquals? (text : List Char) : Option (List Char) :=
  match text.dropWhile (· ≠ '=') with
  | _ :: rest => some rest
  | [] => none

/-- What precedes the first equals sign. -/
def beforeEquals (text : List Char) : List Char :=
  text.takeWhile (· ≠ '=')

/-- Whether a digit of some script. -/
def isDigit (c : Char) : Bool :=
  (Text.decimalDigit? c).isSome

/-- Whether the text is a negative number, whole or with a point; a line feed may follow it. -/
def isNegativeNumber (text : List Char) : Bool :=
  match text with
  | '-' :: s =>
    let s := if s.getLast? = some '\n' then s.dropLast else s
    let rest := s.dropWhile isDigit
    match rest with
    | [] => s ≠ []
    | '.' :: decimals => decimals ≠ [] && decimals.all isDigit
    | _ => false
  | _ => false

/-- The options that a text that begins with two dashes may be short for. -/
def longCandidates (text : List Char) : List (List Char × Switch) :=
  Switch.table.filter fun (spelling, _) => (beforeEquals text).isPrefixOf spelling

/-- What an argument is that begins with a dash and is no option as it stands. -/
def ofDashed (text : List Char) : Except UsageError Token :=
  -- No option holds a space, and none looks like a number.
  let other :=
    if isNegativeNumber text || text.contains ' ' then .plain text else .unknown text
  if text.take 2 = ['-', '-'] then
    match longCandidates text with
    | [(_, s)] => .ok (.option s false (afterEquals? text))
    | [] => .ok other
    | candidates => .error (.ambiguous text (candidates.map (·.1)))
  else
    match Switch.ofSpelling? (text.take 2) with
    | some s => .ok (.option s true (some (text.drop 2)))
    | none => .ok other

/-- Whether the spelling of an option is a short one. -/
def isShort (spelling : List Char) : Bool :=
  spelling.take 2 ≠ ['-', '-']

/-- What an argument is. -/
def ofText (text : List Char) : Except UsageError Token :=
  if text.head? ≠ some '-' then .ok (.plain text)
  else
    match Switch.ofSpelling? text with
    | some s => .ok (.option s (isShort text) none)
    | none =>
      if text.length = 1 then .ok (.plain text)
      else
        match afterEquals? text, Switch.ofSpelling? (beforeEquals text) with
        | some attached, some s => .ok (.option s (isShort text) (some attached))
        | _, _ => ofDashed text

/-- What the arguments are. -/
def ofTexts : List (List Char) → Except UsageError (List Token)
  | [] => .ok []
  | text :: rest =>
    if text = ['-', '-'] then .ok (.endOfOptions :: rest.map .plain)
    else do
      let token ← ofText text
      let tokens ← ofTexts rest
      return token :: tokens

end Token

/-! ## Settings -/

/-- What the arguments ask for. -/
structure Settings where
  /-- The program. -/
  program : Option (List Char) := none
  /-- The name of the dialect. -/
  dialect : String := "chip8"
  /-- The clock. -/
  clock : Int := Machine.defaultClock
  /-- The texts of the breakpoints. -/
  breakpoints : List (List Char) := []
  /-- The texts of the bytes to be put into memory. -/
  pokes : List (List Char) := []
  /-- Whether to run without a window. -/
  headless : Bool := false
  /-- The number of frames to run without a window. -/
  frames : Int := 600
  /-- Whether to start the monitor. -/
  monitor : Bool := false
  /-- The seed of the random numbers. -/
  seed : Option Int := none
  /-- The source and the target of an assembly. -/
  assemble : Option (List Char × List Char) := none
  /-- Whether to print a listing. -/
  listing : Bool := false
  /-- Whether to trace the instructions. -/
  verbose : Bool := false
  deriving DecidableEq, Repr

/-- Why there are no settings. -/
inductive NoSettings
  /-- The options are to be shown. -/
  | help
  /-- The arguments are wrong. -/
  | usage (error : UsageError)
  deriving DecidableEq, Repr

namespace Settings

/-- The whole number that an argument of an option shows. -/
def number (s : Switch) (argument : List Char) : Except NoSettings Int :=
  match Literal.read .decimal argument with
  | .ok n => .ok n
  | .error _ => .error (.usage (.misuse s (.notANumber argument)))

/-- The settings with an option and its arguments taken in.  An option without the arguments that
it asks for changes nothing. -/
def take (t : Settings) (s : Switch) (arguments : List (List Char)) : Except NoSettings Settings :=
  match s, arguments with
  | .help, _ => .error .help
  | .dialect, [a] =>
    if (Dialect.presets.lookup (String.ofList a)).isSome then
      .ok { t with dialect := String.ofList a }
    else .error (.usage (.misuse s (.notAChoice a)))
  | .clock, [a] => do return { t with clock := ← number s a }
  | .breakpoints, [a] => .ok { t with breakpoints := t.breakpoints ++ [a] }
  | .pokes, [a] => .ok { t with pokes := t.pokes ++ [a] }
  | .scale, [a] => do
    let _ ← number s a
    return t
  | .headless, _ => .ok { t with headless := true }
  | .frames, [a] => do return { t with frames := ← number s a }
  | .monitor, _ => .ok { t with monitor := true }
  | .seed, [a] => do return { t with seed := some (← number s a) }
  | .assemble, [source, target] => .ok { t with assemble := some (source, target) }
  | .listing, _ => .ok { t with listing := true }
  | .verbose, _ => .ok { t with verbose := true }
  | _, _ => .ok t

/-- The settings with options and their arguments taken in, one after the other. -/
def takeAll (t : Settings) : List (Switch × List (List Char)) → Except NoSettings Settings
  | [] => .ok t
  | (s, arguments) :: rest => do (← t.take s arguments).takeAll rest

end Settings

/-! ## Reading -/

/-- Options with their arguments, and the tokens that follow them. -/
structure Uses where
  /-- The options with their arguments. -/
  uses : List (Switch × List (List Char))
  /-- The tokens that follow. -/
  rest : List Token

/-- The arguments of an option, so many of them, at the beginning of tokens. -/
def argumentsOf (s : Switch) : Nat → List Token → Except UsageError (List (List Char) × List Token)
  | 0, tokens => .ok ([], tokens)
  | n + 1, .plain a :: tokens => do
    let (arguments, tokens) ← argumentsOf s n tokens
    return (a :: arguments, tokens)
  | _ + 1, _ => .error (.misuse s .missing)

/-- Read an option whose arguments are the tokens that follow it. -/
def optionWithTokens (s : Switch) (rest : List Token) : Except UsageError Uses := do
  let (arguments, rest) ← argumentsOf s s.arity rest
  return ⟨[(s, arguments)], rest⟩

/-- The arguments of an option to which a text is attached as its only one. -/
def attachedArguments (text : List Char) : List (List Char) :=
  if text = ['-', '-'] then [] else [text]

/-- Read short options that are written together: `s` has been read, `text` is attached to it. -/
def optionsTogether (s : Switch) (rest : List Token) : List Char → Except UsageError Uses
  | [] => .error (.misuse s (.unwanted []))
  | c :: more =>
    match Switch.ofSpelling? ['-', c] with
    | none => .error (.misuse s (.unwanted (c :: more)))
    | some next => do
      let u ← if more = [] then optionWithTokens next rest else optionsTogether next rest more
      return { u with uses := (s, []) :: u.uses }

/-- Read an option to which a text is attached. -/
def optionWithText (s : Switch) (short : Bool) (text : List Char) (rest : List Token) :
    Except UsageError Uses :=
  match s.arity with
  | 0 => if short then optionsTogether s rest text else .error (.misuse s (.unwanted text))
  | 1 => .ok ⟨[(s, attachedArguments text)], rest⟩
  | _ => .error (.misuse s .missing)

/-- Read an option and its arguments. -/
def optionOf (s : Switch) (short : Bool) (attached : Option (List Char)) (rest : List Token) :
    Except UsageError Uses :=
  match attached with
  | none => optionWithTokens s rest
  | some text => optionWithText s short text rest

/-- Settings under way, with the arguments that are left over. -/
structure Reading where
  /-- The settings. -/
  settings : Settings
  /-- The arguments that are left over. -/
  leftOver : List (List Char)

namespace Reading

/-- The reading after the program is taken from an argument by itself. -/
def takeProgram (r : Reading) (a : List Char) : Reading :=
  { r with settings := { r.settings with program := some a } }

/-- The reading after arguments are left over. -/
def leave (r : Reading) (arguments : List (List Char)) : Reading :=
  { r with leftOver := r.leftOver ++ arguments }

/-- Read tokens, in at most so many steps; a step takes a token or more. -/
def readWithin : Nat → Reading → List Token → Except NoSettings Reading
  | 0, r, _ => .ok r
  | _ + 1, r, [] => .ok r
  | n + 1, r, .plain a :: tokens =>
    -- The end of the options goes with the argument before it, if that is the program.
    match r.settings.program, tokens with
    | some _, tokens => readWithin n (r.leave [a]) tokens
    | none, .endOfOptions :: tokens => readWithin n (r.takeProgram a) tokens
    | none, tokens => readWithin n (r.takeProgram a) tokens
  | n + 1, r, .endOfOptions :: tokens =>
    -- With the program known, even the end of the options is left over.
    match r.settings.program, tokens with
    | some _, tokens => readWithin n (r.leave [['-', '-']]) tokens
    | none, .plain a :: tokens => readWithin n (r.takeProgram a) tokens
    | none, tokens => readWithin n r tokens
  | n + 1, r, .unknown a :: tokens => readWithin n (r.leave [a]) tokens
  | n + 1, r, .option s short attached :: tokens =>
    match optionOf s short attached tokens with
    | .error e => .error (.usage e)
    | .ok u =>
      match r.settings.takeAll u.uses with
      | .error e => .error e
      | .ok settings => readWithin n { r with settings } u.rest

/-- Read tokens. -/
def read (tokens : List Token) : Except NoSettings Reading :=
  readWithin tokens.length ⟨{}, []⟩ tokens

end Reading

/-- The settings that arguments ask for. -/
def Settings.ofArguments (arguments : List (List Char)) : Except NoSettings Settings :=
  match Token.ofTexts arguments with
  | .error e => .error (.usage e)
  | .ok tokens =>
    match Reading.read tokens with
    | .error e => .error e
    | .ok r =>
      if r.leftOver = [] then .ok r.settings else .error (.usage (.leftOver r.leftOver))

end ChipEight.CommandLine
