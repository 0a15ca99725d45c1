/-
Assembling a file from the command line.

The arguments that ask for an assembly are the option with its two files, and those that ask for a
listing, which may stand on either side.  The program reads and assembles the source, and what is
raised meanwhile is handled if it is a failure of the system or of the assembler; then it writes the
target, outside the handler.  That a source is no text is neither, so that this is the one way in
which a program whose target can be written is broken off.

Main definitions:
* `AsksListing`: the arguments that ask for a listing;
* `Job`: actions that may be broken off, with the job of assembling a file, in which the assembler
  has its guards and prints its listing while it goes;
* `AssemblyEnds`: how the program ends.

Main statements:
* `Settings.ofArguments_assemble`: the settings of the arguments that ask for an assembly;
* `Job.run_pass`, `Job.run_assemble`: no guard stops the assembler, and the lines of the listing up
  to its fault are printed;
* `Job.report_assembleFile`: the job does what the program does;
* `assembly_ends`: the three ways in which an assembly ends.
-/
import ChipEight.CommandLine.Run
import ChipEight.Proofs.Assembly.Guards
import ChipEight.Proofs.Monitor.Raising
import ChipEight.Proofs.Sources

namespace ChipEight.CommandLine

/-! ## Arguments -/

namespace Token

theorem ofTexts_cons {text : List Char} {token : Token} (hend : text ≠ ['-', '-'])
    (h : ofText text = .ok token) (rest : List (List Char)) :
    ofTexts (text :: rest) = (ofTexts rest).map (token :: ·) := by
  rw [ofTexts, if_neg hend, h]
  cases ofTexts rest <;> rfl

theorem ofText_of_head {text : List Char} (h : text.head? ≠ some '-') :
    ofText text = .ok (.plain text) := by
  rw [ofText, if_pos h]

theorem ofTexts_plain {text : List Char} (h : text.head? ≠ some '-') (rest : List (List Char)) :
    ofTexts (text :: rest) = (ofTexts rest).map (.plain text :: ·) := by
  refine ofTexts_cons ?_ (ofText_of_head h) rest
  rintro rfl
  exact h rfl

end Token

/-- The argument asks for a listing. -/
def AsksListing (argument : List Char) : Prop :=
  argument ∈ Switch.listing.spellings.map String.toList

instance (argument : List Char) : Decidable (AsksListing argument) :=
  inferInstanceAs (Decidable (argument ∈ Switch.listing.spellings.map String.toList))

theorem AsksListing.eq {a : List Char} (h : AsksListing a) :
    a = "--listing".toList ∨ a = "-l".toList := by
  simpa [AsksListing, Switch.spellings] using h

theorem AsksListing.ofText_eq {a : List Char} (h : AsksListing a) :
    a ≠ ['-', '-'] ∧ Token.ofText a = .ok (.option .listing (Token.isShort a) none) := by
  rcases h.eq with rfl | rfl
  · exact ⟨by decide, rfl⟩
  · exact ⟨by decide, rfl⟩

/-- The tokens of arguments that ask for a listing. -/
def listingTokens (flags : List (List Char)) : List Token :=
  flags.map fun a => .option .listing (Token.isShort a) none

theorem ofTexts_listing {flags : List (List Char)} (h : ∀ a ∈ flags, AsksListing a)
    (rest : List (List Char)) :
    Token.ofTexts (flags ++ rest) = (Token.ofTexts rest).map (listingTokens flags ++ ·) := by
  induction flags with
  | nil => cases ht : Token.ofTexts rest <;> simp [ht, listingTokens, Except.map]
  | cons a flags ih =>
    obtain ⟨hend, ha⟩ := (h a List.mem_cons_self).ofText_eq
    rw [List.cons_append, Token.ofTexts_cons hend ha,
      ih fun b hb => h b (List.mem_cons_of_mem a hb)]
    cases Token.ofTexts rest <;> rfl

/-- The tokens of the arguments that ask for an assembly. -/
theorem ofTexts_assemble {source target : List Char} {before after : List (List Char)}
    (hs : source.head? ≠ some '-') (ht : target.head? ≠ some '-')
    (hbefore : ∀ a ∈ before, AsksListing a) (hafter : ∀ a ∈ after, AsksListing a) :
    Token.ofTexts (before ++ "--assemble".toList :: source :: target :: after) =
      .ok (listingTokens before ++ .option .assemble false none :: .plain source ::
        .plain target :: (listingTokens after ++ [])) := by
  have hflags := ofTexts_listing hafter []
  rw [List.append_nil] at hflags
  have hoption : Token.ofText "--assemble".toList = .ok (.option .assemble false none) := rfl
  rw [ofTexts_listing hbefore, Token.ofTexts_cons (by decide) hoption, Token.ofTexts_plain hs,
    Token.ofTexts_plain ht, hflags]
  rfl

namespace Reading

/-- The reading with a listing asked for, if there are arguments that do. -/
def list (r : Reading) (flags : List (List Char)) : Reading :=
  { r with settings := { r.settings with
      listing := !flags.isEmpty || r.settings.listing } }

theorem readWithin_listing (n : Nat) (r : Reading) (flags : List (List Char))
    (rest : List Token) :
    readWithin (flags.length + n) r (listingTokens flags ++ rest) =
      readWithin n (r.list flags) rest := by
  induction flags generalizing r with
  | nil => simp [list, listingTokens]
  | cons a flags ih =>
    rw [List.length_cons, Nat.add_right_comm]
    show readWithin (flags.length + n) (r.list [a]) (listingTokens flags ++ rest) = _
    rw [ih]
    simp [list]

end Reading

/-- The settings of the arguments that ask for an assembly, with or without a listing. -/
theorem Settings.ofArguments_assemble {source target : List Char} {before after : List (List Char)}
    (hs : source.head? ≠ some '-') (ht : target.head? ≠ some '-')
    (hbefore : ∀ a ∈ before, AsksListing a) (hafter : ∀ a ∈ after, AsksListing a) :
    Settings.ofArguments (before ++ "--assemble".toList :: source :: target :: after) =
      .ok { assemble := some (source, target), listing := !(before ++ after).isEmpty } := by
  rw [Settings.ofArguments, ofTexts_assemble hs ht hbefore hafter]
  dsimp only
  have hlength : (listingTokens before ++ Token.option .assemble false none :: .plain source ::
      .plain target :: (listingTokens after ++ [])).length =
        before.length + (after.length + 3) := by
    simp [listingTokens]
  rw [Reading.read, hlength, Reading.readWithin_listing]
  -- The option takes its two arguments in one step.
  have hoption : ∀ r : Reading,
      Reading.readWithin (after.length + 3) r (.option .assemble false none :: .plain source ::
        .plain target :: (listingTokens after ++ [])) =
      Reading.readWithin (after.length + 2)
        { r with settings := { r.settings with assemble := some (source, target) } }
        (listingTokens after ++ []) := fun r => rfl
  rw [hoption, Reading.readWithin_listing]
  cases before <;> cases after <;> rfl

/-! ## Assembling with failures -/

/-- What assembling a file works on: the files and the two outputs. -/
structure Scene where
  /-- The files. -/
  directory : Directory
  /-- What was written to the output. -/
  output : String
  /-- What was written to the error output. -/
  errors : String

/-- Why a job is broken off. -/
inductive Halt
  /-- A failure was raised. -/
  | failure (error : SourceError)
  /-- The assembler takes a step that it cannot take. -/
  | breach (breach : Assembly.Breach)

/-- Why a job is broken off if the assembler stops. -/
def Halt.ofStop : Assembly.Stop Assembly.Error → Halt
  | .fault e => .failure (.assembly e)
  | .breach b => .breach b

/-- An action on a scene that may be broken off; what it has done by then stays. -/
abbrev Job := EStateM Halt Scene

namespace Job

variable {α : Type} {σ : Scene}

/-- Print a line. -/
def print (line : String) : Job Unit :=
  modify fun σ => { σ with output := σ.output ++ asLine line }

/-- Print a line to the error output. -/
def printError (line : String) : Job Unit :=
  modify fun σ => { σ with errors := σ.errors ++ asLine line }

/-- Print a line of a listing, if it is to be shown. -/
def printListed (shown : Bool) (line : List Char) : Job Unit :=
  if shown then print (String.ofList line) else return ()

/-- The second pass from an address on, with guards, where `code` is what it has put so far.  If the
listing is asked for, a line is printed for each statement but the origins. -/
def pass (listed : Bool) (labels : Assembly.Labels) (address : Int) (code : Image) :
    List Assembly.Placed → Job Image
  | [] => return code
  | p :: ps => do
    let bytes ← ofExcept <| (Assembly.Guarded.statement labels address p.statement).mapError
      fun stop => Halt.ofStop (stop.atLine p.line)
    let piece : Assembly.Piece := ⟨address, bytes, p.text, p.statement.isOrigin⟩
    printListed (listed && !piece.isPadding) piece.listing
    pass listed labels (address + bytes.length) (code ++ bytes) ps

/-- Assemble a source text, and print the listing if it is asked for. -/
def assemble (listed : Bool) (source : List Char) : Job Image := do
  let l ← ofExcept <| (Assembly.Layout.ofSource source Memory.programStart).mapError
    fun e => Halt.failure (.assembly e)
  pass listed l.labels Memory.programStart [] l.placed.reverse

/-- What is raised is handled if it is a failure of the system or of the assembler. -/
def isHandled (e : SourceError) : Bool :=
  let kind := (Monitor.Failure.rejection (.source e)).kind
  kind == .system || kind == .assembly

/-- Tell a failure, if it is handled. -/
def tell : Halt → Job (Option α)
  | .failure e =>
    if isHandled e then do
      printError s!"Assembly error: {e.message}"
      return none
    else throw (.failure e)
  | .breach b => throw (.breach b)

/-- What an action gives, unless a failure was raised that is told. -/
def orTold (act : Job α) : Job (Option α) :=
  tryCatch (some <$> act) tell

/-- Read and assemble a source file. -/
def image (source : List Char) (listed : Bool) : Job Image := do
  let text ← ofExcept (((← get).directory.readText source).mapError Halt.failure)
  assemble listed text

/-- Write bytes to a file. -/
def write (target : List Char) (bytes : Image) : Job Unit := do
  let d ← ofExcept <| ((← get).directory.write target bytes).mapError
    fun e => Halt.failure (.path e)
  modify fun σ => { σ with directory := d }

/-- Assemble a source file into a target file: the code that is returned. -/
def assembleFile (source target : List Char) (listed : Bool) : Job Nat := do
  match ← orTold (image source listed) with
  | none => return 1
  | some image =>
    write target image
    print (s!"Assembled {String.ofList source} -> {String.ofList target} " ++
      s!"({image.length} bytes)")
    return 0

/-- What a job leaves behind, unless the assembler has taken a step that it cannot take. -/
def report? : EStateM.Result Halt Scene Nat → Option Report
  | .ok code σ => some ⟨.returned code, σ.directory, σ.output, σ.errors⟩
  | .error (.failure e) σ => some ⟨.escaped e, σ.directory, σ.output, σ.errors⟩
  | .error (.breach _) _ => none

/-- The scene after lines were printed, if they were asked for. -/
def shown (σ : Scene) (listed : Bool) (lines : List (List Char)) : Scene :=
  if listed then { σ with output := σ.output ++ asLines (lines.map String.ofList) } else σ

@[simp] theorem shown_nil (listed : Bool) : shown σ listed [] = σ := by
  cases listed <;> simp [shown, asLines]

theorem run_printListed (c : Bool) (line : List Char) :
    (printListed c line).run σ = .ok () (shown σ c [line]) := by
  cases c <;> simp [printListed, print, shown, asLines]

/-- The line of the first piece is printed before the others, unless it is padding. -/
theorem shown_shown (listed : Bool) (piece : Assembly.Piece) (e : Assembly.Emission) :
    shown (shown σ (listed && !piece.isPadding) [piece.listing]) listed e.listing =
      shown σ listed (Assembly.Emission.listing ⟨piece :: e.pieces, e.fault⟩) := by
  cases listed with
  | false => rfl
  | true =>
    cases hp : piece.isPadding <;>
      simp [shown, Assembly.Emission.listing, hp, asLines, String.append_assoc]

/-- What the second pass leaves, if it has put `code` before. -/
def afterPass (σ : Scene) (listed : Bool) (code : Image) (e : Assembly.Emission) :
    EStateM.Result Halt Scene Image :=
  match e.fault with
  | none => .ok (code ++ e.bytes) (shown σ listed e.listing)
  | some fault => .error (.failure (.assembly fault)) (shown σ listed e.listing)

/-- No guard stops the second pass, and the lines of the pieces up to its fault are printed. -/
theorem run_pass {listed : Bool} {late : Assembly.Labels} {a b : Int} {ps : List Assembly.Placed}
    (hn : late.Named) (h : Assembly.Trail late a ps b) (hs : ∀ p ∈ ps, p.statement.HasWord)
    (code : Image) :
    (pass listed late a code ps).run σ = afterPass σ listed code (Assembly.emit late a ps) := by
  induction h generalizing code σ with
  | nil a =>
    simp [pass, Assembly.emit, afterPass, Assembly.Emission.bytes, Assembly.Emission.listing]
  | @cons l p ps b c known noted goes _ ih =>
    have hword := hs p List.mem_cons_self
    rw [pass, EStateM.run_bind, Assembly.Guarded.statement_eq hn known goes hword, Assembly.emit,
      Assembly.Placed.emit]
    cases hp : p.statement.emit late l.address with
    | error e =>
      exact congrArg _ (shown_nil listed).symm
    | ok bytes =>
      have hb := (Assembly.contributes_of_emit hn known goes hp).2
      have hrest := fun σ => @ih σ fun q hq => hs q (List.mem_cons_of_mem _ hq)
      show (EStateM.run (printListed _ _ >>= fun _ => _) σ) = _
      rw [EStateM.run_bind, run_printListed]
      dsimp only
      rw [← hb, hrest, afterPass, afterPass, ← shown_shown]
      dsimp only
      rw [Assembly.Emission.bytes, Assembly.Emission.bytes, List.flatMap_cons, List.append_assoc]

/-- No guard stops the assembler. -/
theorem run_assemble (listed : Bool) (source : List Char) :
    (assemble listed source).run σ =
      afterPass σ listed [] (Assembly.emission source Memory.programStart) := by
  rw [assemble, EStateM.run_bind, Assembly.emission]
  cases hl : Assembly.Layout.ofSource source Memory.programStart with
  | error e => exact congrArg _ (shown_nil listed).symm
  | ok l =>
    exact run_pass (Assembly.Layout.named_of_ofSource hl) (Assembly.Layout.trail_of_ofSource hl)
      (Assembly.Layout.hasWord_of_ofSource hl) []

/-- The scene after a failure was told. -/
def told (σ : Scene) (message : String) : Scene :=
  { σ with errors := σ.errors ++ asLine s!"Assembly error: {message}" }

theorem run_tell (e : SourceError) :
    (tell (.failure e) : Job (Option α)).run σ =
      if isHandled e then .ok none (told σ e.message) else .error (.failure e) σ := by
  rw [tell]
  split <;> rfl

theorem run_orTold (act : Job α) :
    (orTold act).run σ =
      match act.run σ with
      | .ok a σ' => .ok (some a) σ'
      | .error (.failure e) σ' =>
        if isHandled e then .ok none (told σ' e.message) else .error (.failure e) σ'
      | .error (.breach b) σ' => .error (.breach b) σ' := by
  rw [orTold]
  show EStateM.tryCatch (EStateM.map some act) tell σ = _
  rw [EStateM.tryCatch, EStateM.map, EStateM.run]
  cases act σ with
  | ok a σ' => rfl
  | error halt σ' =>
    cases halt with
    | failure e => exact run_tell e
    | breach b => rfl

theorem run_image (source : List Char) (listed : Bool) :
    (image source listed).run σ =
      match σ.directory.readText source with
      | .error e => .error (.failure e) σ
      | .ok text => afterPass σ listed [] (Assembly.emission text Memory.programStart) := by
  rw [image, EStateM.run_bind, EStateM.run_get]
  dsimp only
  rw [EStateM.run_bind]
  cases σ.directory.readText source with
  | error e => rfl
  | ok text => exact run_assemble listed text

theorem run_write (target : List Char) (bytes : Image) :
    (write target bytes).run σ =
      match σ.directory.write target bytes with
      | .error e => .error (.failure (.path e)) σ
      | .ok d => .ok () { σ with directory := d } := by
  rw [write, EStateM.run_bind, EStateM.run_get]
  dsimp only
  rw [EStateM.run_bind]
  cases σ.directory.write target bytes <;> rfl

theorem isHandled_path {d : Directory} {source : List Char} {e : PathError}
    (h : d.read source = .error e) :
    isHandled (.path e) = !decide (SourceError.path e = .path ⟨.nullCharacter, source⟩) := by
  obtain ⟨hpath, -⟩ := Directory.read_eq_error h
  obtain ⟨fault, path⟩ := e
  subst hpath
  cases fault <;> simp [isHandled, Monitor.Failure.kind]

/-- The job does what the program does; what is raised and not handled breaks it off. -/
theorem report_assembleFile (d : Directory) (source target : List Char) (listed : Bool) :
    report? ((assembleFile source target listed).run ⟨d, "", ""⟩) =
      some (CommandLine.assembleFile d source target listed) := by
  rw [assembleFile, EStateM.run_bind, run_orTold, run_image, CommandLine.assembleFile]
  dsimp only
  rcases d.readText_cases source with ⟨text, -, hread⟩ | ⟨e, he, hread⟩ | ⟨bytes, e, -, -, hread⟩
  · rw [hread]
    generalize Text.unifyNewlines text = text
    dsimp only
    rw [afterPass, Assembly.Emission.image]
    cases (Assembly.emission text Memory.programStart).fault with
    | some e => cases listed <;> rfl
    | none =>
      dsimp only
      rw [EStateM.run_bind, run_write, List.nil_append]
      -- Printing the listing has touched no file.
      have hsame (lines : List (List Char)) : (shown ⟨d, "", ""⟩ listed lines).directory = d := by
        cases listed <;> rfl
      rw [hsame]
      cases d.write target (Assembly.emission text Memory.programStart).bytes <;>
        cases listed <;> simp [shown, report?, print, -bind_pure_comp]
  · -- The handler takes every path that cannot be read, but for one with a null character.
    rw [hread]
    dsimp only
    rw [isHandled_path he]
    by_cases hnull : SourceError.path e = .path ⟨.nullCharacter, source⟩
    · rw [decide_eq_true hnull, if_pos hnull]
      rfl
    · rw [decide_eq_false hnull, if_neg hnull]
      simp [told, report?]
  · rw [hread]
    rfl

end Job

/-! ## How an assembly ends -/

/-- How the program ends that is to assemble a source file into a target file. -/
inductive AssemblyEnds (d : Directory) (source target : List Char) (r : Report) : Prop
  /-- The image is written. -/
  | written {image : Image} : d.Assembles source image → r.ending = .returned 0 →
    d.write target image = .ok r.directory → r.directory.read target = .ok image →
    r.errors = "" → AssemblyEnds d source target r
  /-- It is told that there is no image, and no file is touched. -/
  | refused {e : SourceError} : d.Unusable source e → r.ending = .returned 1 → r.directory = d →
    r.errors = s!"Assembly error: {e.message}\n" → AssemblyEnds d source target r
  /-- It is broken off, and no file is touched. -/
  | brokenOff {e : SourceError} : d.Unfit source e → r.ending = .escaped e → r.directory = d →
    r.output = "" → r.errors = "" → AssemblyEnds d source target r

theorem assemblyEnds_assembleFile {d : Directory} {target : List Char} (hw : d.Writable target)
    (source : List Char) (listed : Bool) :
    AssemblyEnds d source target (assembleFile d source target listed) := by
  rcases d.readText_cases source with ⟨text, hbytes, hread⟩ | ⟨e, he, hread⟩ |
    ⟨bytes, e, hbytes, hnone, hread⟩
  · rw [assembleFile, hread]
    dsimp only
    rw [← Assembly.assemble]
    cases himage : Assembly.assemble (Text.unifyNewlines text) Memory.programStart with
    | error e => exact .refused (.faulty hbytes himage) rfl rfl rfl
    | ok image =>
      obtain ⟨d', hd'⟩ := hw.exists_write image
      dsimp only
      rw [hd']
      exact .written ⟨text, hbytes, himage⟩ rfl hd' (Directory.read_write hd') rfl
  · obtain ⟨hpath, hnull⟩ := Directory.read_eq_error he
    obtain ⟨fault, path⟩ := e
    subst hpath
    rw [assembleFile, hread]
    dsimp only at hnull ⊢
    by_cases hfault : fault = .nullCharacter
    · subst hfault
      rw [if_pos rfl]
      exact .brokenOff (.path he (hnull.1 rfl)) rfl rfl rfl rfl
    · rw [if_neg (by simpa using hfault)]
      exact .refused (.unreadable he (mt hnull.2 hfault)) rfl rfl rfl
  · rw [assembleFile, hread]
    exact .brokenOff (.encoding hbytes hnone) rfl rfl rfl rfl

/-- To assemble a file ends in one of three ways, with or without a listing: the target holds the
image of the source, or it is told why there is none, or the source is no text and the program is
broken off. -/
theorem assembly_ends (d : Directory) (input : List Char) (entropy : Int)
    {source target : List Char} {before after : List (List Char)}
    (hs : source.head? ≠ some '-') (ht : target.head? ≠ some '-')
    (hflags : ∀ a ∈ before ++ after, AsksListing a) (hw : d.Writable target) :
    let r := run d input entropy (before ++ "--assemble".toList :: source :: target :: after)
    AssemblyEnds d source target r ∧
      Job.report? ((Job.assembleFile source target (!(before ++ after).isEmpty)).run ⟨d, "", ""⟩) =
        some r := by
  have hrun : run d input entropy (before ++ "--assemble".toList :: source :: target :: after) =
      assembleFile d source target (!(before ++ after).isEmpty) := by
    rw [run, start, Settings.ofArguments_assemble hs ht
      (fun a ha => hflags a (List.mem_append_left after ha))
      (fun a ha => hflags a (List.mem_append_right before ha))]
    rfl
  rw [hrun]
  exact ⟨assemblyEnds_assembleFile hw source _, Job.report_assembleFile d source target _⟩

/-- A file with the text `ret` is assembled, with a listing, and the target holds its two bytes. -/
theorem assembly_ends_of_ret :
    let d := Directory.ofFiles [("a.asm".toList, Text.Utf8.encode "ret".toList)]
    let r := run d [] 0 ["--assemble".toList, "a.asm".toList, "a.ch8".toList, "-l".toList]
    ("a.asm".toList.head? ≠ some '-' ∧ "a.ch8".toList.head? ≠ some '-' ∧
      (∀ a ∈ [] ++ ["-l".toList], AsksListing a) ∧ d.Writable "a.ch8".toList) ∧
    r.ending = .returned 0 ∧ r.directory.read "a.ch8".toList = .ok [0x00, 0xEE] := by
  intro d r
  have hs : "a.asm".toList.head? ≠ some '-' := by decide
  have ht : "a.ch8".toList.head? ≠ some '-' := by decide
  have hflags : ∀ a ∈ [] ++ ["-l".toList], AsksListing a := by decide
  have hw : d.Writable "a.ch8".toList := ⟨d.put ["a.ch8".toList] (.file []), rfl⟩
  refine ⟨⟨hs, ht, hflags, hw⟩, ?_⟩
  have hread : d.read "a.asm".toList = .ok (Text.Utf8.encode "ret".toList) := rfl
  have himage : Assembly.assemble (Text.unifyNewlines "ret".toList) 0x200 = .ok [0x00, 0xEE] := by
    decide +kernel
  -- The file is the text `ret` and no other.
  have htext {text : List Char} (h : d.read "a.asm".toList = .ok (Text.Utf8.encode text)) :
      text = "ret".toList := by
    rw [hread] at h
    have hsame := Text.Utf8.decode_eq_ok_iff.2 (Except.ok.inj h)
    rw [Text.Utf8.decode_eq_ok_iff.2 rfl] at hsame
    exact (Except.ok.inj hsame).symm
  obtain ⟨hends, -⟩ := assembly_ends d [] 0 hs ht hflags hw
  cases hends with
  | written hsource hending _ hholds _ =>
    obtain ⟨text, hbytes, hassembled⟩ := hsource
    rw [htext hbytes, himage] at hassembled
    cases hassembled
    exact ⟨hending, hholds⟩
  | refused hsource _ _ _ =>
    cases hsource with
    | unreadable he _ =>
      rw [hread] at he
      cases he
    | faulty hbytes he =>
      rw [htext hbytes, himage] at he
      cases he
  | brokenOff hsource _ _ _ _ =>
    cases hsource with
    | path he _ =>
      rw [hread] at he
      cases he
    | encoding hbytes hnone =>
      rw [hread] at hbytes
      cases hbytes
      exact absurd rfl (hnone _)

/-- A byte that no character starts with is no text: the program returns nothing at all. -/
theorem assembly_broken_off :
    (Directory.ofFiles [("a.asm".toList, [0xFF])]).Writable "a.ch8".toList ∧
      ¬∃ code, (run (.ofFiles [("a.asm".toList, [0xFF])]) [] 0
        ["--assemble".toList, "a.asm".toList, "a.ch8".toList]).ending = .returned code := by
  have hending : (run (.ofFiles [("a.asm".toList, [0xFF])]) [] 0
      ["--assemble".toList, "a.asm".toList, "a.ch8".toList]).ending =
        .escaped (.encoding ⟨.startByte, 0, 0xFF, 1⟩) := by decide +kernel
  refine ⟨⟨(Directory.ofFiles [("a.asm".toList, [0xFF])]).put ["a.ch8".toList] (.file []), ?_⟩, ?_⟩
  · rfl
  · rw [hending]
    rintro ⟨code, h⟩
    cases h

end ChipEight.CommandLine
