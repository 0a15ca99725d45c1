/-
The files that programs are read from and written to, as they are seen from a directory.

A path is walked part by part.  Empty parts and the part `.` stay where they are.  The root and
the directories above are directories, of which only the entries that are listed are known.

Main statement: `Directory.read_write`, what is written to a file can be read from it.
-/
import ChipEight.Memory.Basic
import ChipEight.Text.Quoted

namespace ChipEight

/-! ## Errors -/

/-- Why a path cannot be read or written. -/
inductive PathFault
  /-- There is nothing at the path. -/
  | notFound
  /-- A part of the path that should be a directory is a file. -/
  | notADirectory
  /-- There is a directory at the path. -/
  | isADirectory
  /-- A part of the path, or the path, is too long. -/
  | nameTooLong
  /-- The path holds the null character. -/
  | nullCharacter
  deriving DecidableEq, Repr

/-- A fault with the path that has it. -/
structure PathError where
  /-- The fault. -/
  fault : PathFault
  /-- The path. -/
  path : List Char
  deriving DecidableEq, Repr

/-- The wording of the error. -/
def PathError.message (e : PathError) : String :=
  match e.fault with
  | .notFound => s!"[Errno 2] No such file or directory: {Text.quoted e.path}"
  | .notADirectory => s!"[Errno 20] Not a directory: {Text.quoted e.path}"
  | .isADirectory => s!"[Errno 21] Is a directory: {Text.quoted e.path}"
  | .nameTooLong => s!"[Errno 36] File name too long: {Text.quoted e.path}"
  | .nullCharacter => "embedded null byte"

/-! ## Paths -/

namespace Path

/-- The part that stands for the root. -/
def root : List Char := ['/']

/-- The part that stands for the directory above. -/
def above : List Char := ['.', '.']

/-- The parts of a path that lead somewhere. -/
def parts (path : List Char) : List (List Char) :=
  let walked := (path.splitOn '/').filter fun part => part ≠ [] && part ≠ ['.']
  if path.head? = some '/' then root :: walked else walked

/-- The last part of a path as it is written; it is empty if the path ends with a slash. -/
def lastPart (path : List Char) : List Char :=
  ((path.splitOn '/').getLast?).getD []

/-- Whether a path can only name a directory. -/
def namesDirectory (path : List Char) : Bool :=
  lastPart path == [] || lastPart path == ['.']

/-- The number of bytes of a name. -/
def size (name : List Char) : Nat :=
  (String.ofList name).utf8ByteSize

/-- The most bytes that a part of a path may have. -/
def partLimit : Nat := 255

/-- The most bytes that a path may have. -/
def pathLimit : Nat := 4095

end Path

/-! ## Entries -/

/-- What there is at a path. -/
inductive Entry
  /-- A directory. -/
  | directory
  /-- A file with its bytes. -/
  | file (bytes : Image)
  deriving DecidableEq, Repr

/-- The entries that are known, by the parts of their paths. -/
structure Directory where
  /-- The entries. -/
  entries : List (List (List Char) × Entry)

namespace Directory

/-- The entry at the parts of a path. -/
def find? (d : Directory) (parts : List (List Char)) : Option Entry :=
  if parts.all fun part => part == Path.root || part == Path.above then some .directory
  else d.entries.lookup parts

/-- The directory in which the given names are files. -/
def ofFiles (files : List (List Char × Image)) : Directory :=
  ⟨files.map fun (name, bytes) => ([name], .file bytes)⟩

/-- Walk the parts of a path from the directory at `here`, of which all but the last have to be
directories. -/
def walk (d : Directory) (here : List (List Char)) :
    List (List Char) → Except PathFault (List (List Char))
  | [] => .ok here
  | part :: rest =>
    if Path.partLimit < Path.size part then .error .nameTooLong
    else if rest = [] then .ok (here ++ [part])
    else
      match d.find? (here ++ [part]) with
      | some .directory => d.walk (here ++ [part]) rest
      | some (.file _) => .error .notADirectory
      | none => .error .notFound

/-- Where a path leads to. -/
def resolve (d : Directory) (path : List Char) : Except PathFault (List (List Char)) :=
  if path.contains '\x00' then .error .nullCharacter
  else if path = [] then .error .notFound
  else if Path.pathLimit < Path.size path then .error .nameTooLong
  else d.walk [] (Path.parts path)

/-- The bytes of the file at a path. -/
def read (d : Directory) (path : List Char) : Except PathError Image :=
  match d.resolve path with
  | .error f => .error ⟨f, path⟩
  | .ok parts =>
    match d.find? parts with
    | none => .error ⟨.notFound, path⟩
    | some .directory => .error ⟨.isADirectory, path⟩
    | some (.file bytes) =>
      if Path.namesDirectory path then .error ⟨.notADirectory, path⟩ else .ok bytes

/-- The directory with an entry put in. -/
def put (d : Directory) (parts : List (List Char)) (e : Entry) : Directory :=
  ⟨(parts, e) :: d.entries.filter (·.1 ≠ parts)⟩

/-- The directory after bytes are written to a path. -/
def write (d : Directory) (path : List Char) (bytes : Image) : Except PathError Directory :=
  match d.resolve path with
  | .error f => .error ⟨f, path⟩
  | .ok parts =>
    match d.find? parts with
    | some .directory => .error ⟨.isADirectory, path⟩
    | entry =>
      -- Nothing is made at a path that can only name a directory.
      if Path.lastPart path = [] then .error ⟨.isADirectory, path⟩
      else if Path.namesDirectory path then
        .error ⟨if entry.isSome then .notADirectory else .notFound, path⟩
      else .ok (d.put parts (.file bytes))

/-! ## Reading what was written -/

theorem find?_put_self {d : Directory} {parts : List (List Char)}
    (h : d.find? parts ≠ some .directory) (e : Entry) :
    (d.put parts e).find? parts = some e := by
  unfold find? at h ⊢
  split
  · simp_all
  · simp [put]

theorem find?_put_of_directory {d : Directory} {parts other : List (List Char)} {e : Entry}
    (hp : d.find? parts ≠ some .directory) (h : d.find? other = some .directory) :
    (d.put parts e).find? other = some .directory := by
  have hne : other ≠ parts := fun heq => hp (heq ▸ h)
  have key : ∀ es : List (List (List Char) × Entry),
      (es.filter (·.1 ≠ parts)).lookup other = es.lookup other := by
    intro es
    induction es with
    | nil => rfl
    | cons p es ih =>
      obtain ⟨q, e'⟩ := p
      by_cases hq : q = parts
      · subst hq
        simp only [ne_eq, not_true_eq_false, decide_false, Bool.false_eq_true, not_false_eq_true,
          List.filter_cons_of_neg, List.lookup_cons, beq_false_of_ne hne]
        exact ih
      · by_cases ho : other = q
        · subst ho
          simp [hq]
        · simp only [ne_eq, hq, not_false_eq_true, decide_true, List.filter_cons_of_pos,
            List.lookup_cons, beq_false_of_ne ho]
          exact ih
  unfold find? at h ⊢
  split
  · rfl
  · rename_i hall
    rw [if_neg hall] at h
    simp only [put, List.lookup_cons, beq_false_of_ne hne, key, h]

theorem walk_put {d : Directory} {parts : List (List Char)} {e : Entry}
    (hp : d.find? parts ≠ some .directory) {here rest goal : List (List Char)}
    (h : d.walk here rest = .ok goal) : (d.put parts e).walk here rest = .ok goal := by
  induction rest generalizing here with
  | nil => exact h
  | cons part rest ih =>
    unfold walk at h ⊢
    split at h
    · cases h
    · rename_i hsize
      rw [if_neg hsize]
      split at h
      · rename_i hrest
        rw [if_pos hrest]
        exact h
      · rename_i hrest
        rw [if_neg hrest]
        split at h
        · rename_i hd
          rw [find?_put_of_directory hp hd]
          exact ih h
        · cases h
        · cases h

theorem resolve_put {d : Directory} {parts : List (List Char)} {e : Entry} {path : List Char}
    (hp : d.find? parts ≠ some .directory) (h : d.resolve path = .ok parts) :
    (d.put parts e).resolve path = .ok parts := by
  unfold resolve at h ⊢
  split at h
  · cases h
  · rename_i h1
    rw [if_neg h1]
    split at h
    · cases h
    · rename_i h2
      rw [if_neg h2]
      split at h
      · cases h
      · rename_i h3
        rw [if_neg h3]
        exact walk_put hp h

theorem read_write {d d' : Directory} {path : List Char} {bytes : Image}
    (h : d.write path bytes = .ok d') : d'.read path = .ok bytes := by
  unfold write at h
  split at h
  · cases h
  · rename_i parts hr
    split at h
    · cases h
    · rename_i hentry
      have hp : d.find? parts ≠ some .directory := hentry
      split at h
      · cases h
      · split at h
        · cases h
        · rename_i hname
          cases h
          simp [read, resolve_put hp hr, find?_put_self hp, hname]

end Directory

end ChipEight
