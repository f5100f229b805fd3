import PanelSketch.Files.Path

/-!
# Trees of Files

A tree of files is what a program finds around it: directories, files with their
contents, and the directory it is in. A place in the tree is written as its
names from the innermost to the outermost, so that the root is the empty list
and leaving a directory drops the first name.

A path is followed name by name. Every name but the last has to lead to a
directory. What the last name has to lead to depends on the purpose: a file that
is read has to exist, and a file that is written may be new, but neither can be
a directory.

## Main definitions

* `FileFault`: Why a file can be neither read nor written.
* `FileTree`: Directories and files with contents.
* `FileTree.read`, `FileTree.write`: The contents of the file at a path.
* `FileTree.add`: A file together with the directories on the way to it.

## Theorems

* `FileTree.read_write`: What has been written is read.
-/

namespace PanelSketch

/-- Why a file can be neither read nor written. -/
inductive FileFault where
  | missing
  | notDirectory
  | isDirectory
  | nameTooLong
  /-- Anything else, in the words of the system. -/
  | other (reason : String)
  deriving DecidableEq, Repr

/-- The wording of a cause. -/
def FileFault.message : FileFault → String
  | missing => "No such file or directory (os error 2)"
  | notDirectory => "Not a directory (os error 20)"
  | isDirectory => "Is a directory (os error 21)"
  | nameTooLong => "File name too long (os error 36)"
  | other reason => reason

/-- A place in a tree: names from the innermost to the outermost. -/
abbrev Place := List String

/-- What stands at a place. -/
inductive FileTree.Entry (κ : Type) where
  | directory
  | file (contents : κ)

/-- Directories and files with contents. -/
structure FileTree (κ : Type) where
  /-- The places of all directories but the root. -/
  directories : List Place
  files : List (Place × κ)
  /-- The place of the current directory. -/
  current : Place

namespace FileTree

variable {κ : Type}

/-- What stands at a place. -/
def lookup? (t : FileTree κ) (place : Place) : Option (Entry κ) :=
  if place = [] ∨ place ∈ t.directories then some .directory
  else (t.files.find? (·.1 == place)).map fun (_, contents) => .file contents

/-- The greatest number of bytes in a name. -/
def longestName : Nat := 255

/-- The greatest number of bytes in a path. -/
def longestPath : Nat := 4095

/-- The place that a name leads to from a directory. -/
def step (place : Place) (name : String) : Except FileFault Place :=
  if name = "." then .ok place
  else if name = ".." then .ok place.tail
  else if longestName < name.utf8ByteSize then .error .nameTooLong
  else .ok (name :: place)

/-- The directory that a name leads to from a directory. -/
def enter (t : FileTree κ) (place : Place) (name : String) : Except FileFault Place :=
  match step place name with
  | .error fault => .error fault
  | .ok place =>
    match t.lookup? place with
    | some .directory => .ok place
    | some (.file _) => .error .notDirectory
    | none => .error .missing

/-- The directory that names lead to from a directory. -/
def enterAll (t : FileTree κ) : Place → List String → Except FileFault Place
  | place, [] => .ok place
  | place, name :: names =>
    match t.enter place name with
    | .error fault => .error fault
    | .ok place => t.enterAll place names

/-- The directory that a path leads to before its last name. -/
def approach (t : FileTree κ) (path : Path) : Except FileFault Place :=
  t.enterAll (if path.fromRoot then [] else t.current) path.names.dropLast

/-- The path that a text spells, if it is neither empty nor too long. -/
def pathOf (text : String) : Except FileFault Path :=
  if text.isEmpty then .error .missing
  else if longestPath < text.utf8ByteSize then .error .nameTooLong
  else .ok (.ofText text)

/-- The contents of the file with a name in a directory. -/
def readAt (t : FileTree κ) (place : Place) (name : String) (endsInSlash : Bool) :
    Except FileFault κ :=
  match step place name with
  | .error fault => .error fault
  | .ok place =>
    match t.lookup? place with
    | none => .error .missing
    | some .directory => .error .isDirectory
    | some (.file contents) => if endsInSlash then .error .notDirectory else .ok contents

/-- The contents of the file at a path. -/
def read (t : FileTree κ) (text : String) : Except FileFault κ := do
  let path ← pathOf text
  let place ← t.approach path
  match path.names.getLast? with
  | none => throw .isDirectory
  | some name => t.readAt place name path.endsInSlash

/-- Set the contents at a place. -/
def set (t : FileTree κ) (place : Place) (contents : κ) : FileTree κ :=
  { t with files := (place, contents) :: t.files.filter (·.1 != place) }

/-- Whether a name at the end of a path can only be that of a directory. -/
def namesDirectory (name : String) (endsInSlash : Bool) : Bool :=
  endsInSlash || name == "." || name == ".."

/-- Write the file with a name in a directory. -/
def writeAt (t : FileTree κ) (place : Place) (name : String) (endsInSlash : Bool)
    (contents : κ) : Except FileFault (FileTree κ) :=
  if namesDirectory name endsInSlash then .error .isDirectory
  else
    match step place name with
    | .error fault => .error fault
    | .ok place =>
      match t.lookup? place with
      | some .directory => .error .isDirectory
      | _ => .ok (t.set place contents)

/-- Write the file at a path. -/
def write (t : FileTree κ) (text : String) (contents : κ) : Except FileFault (FileTree κ) := do
  let path ← pathOf text
  let place ← t.approach path
  match path.names.getLast? with
  | none => throw .isDirectory
  | some name => t.writeAt place name path.endsInSlash contents

/-- Add a directory with all that hold it. -/
def addDirectory (t : FileTree κ) : Place → FileTree κ
  | [] => t
  | name :: place =>
    let t := t.addDirectory place
    { t with directories := (name :: place) :: t.directories }

/-- Add a file with all directories that hold it. -/
def add (t : FileTree κ) (place : Place) (contents : κ) : FileTree κ :=
  (t.addDirectory place.tail).set place contents

/-- A directory is entered in the same way after a file has been set. -/
theorem enter_set {t : FileTree κ} {place place' : Place} {name : String} (at' : Place)
    (contents : κ) (h : t.enter place name = .ok place') :
    (t.set at' contents).enter place name = .ok place' := by
  unfold enter at h ⊢
  split at h
  · cases h
  · next place'' _ =>
    have hd : ∀ p, t.lookup? p = some .directory →
        (t.set at' contents).lookup? p = some .directory := by
      intro p hp
      unfold lookup? at hp ⊢
      split at hp
      · next hq => exact if_pos hq
      · cases hf : t.files.find? (·.1 == p) <;> simp [hf] at hp
    split at h
    · next hp =>
      rw [hd _ hp]
      exact h
    · cases h
    · cases h

/-- Directories are entered in the same way after a file has been set. -/
theorem enterAll_set {t : FileTree κ} (at' : Place) (contents : κ) (names : List String) :
    ∀ {place place' : Place}, t.enterAll place names = .ok place' →
      (t.set at' contents).enterAll place names = .ok place' := by
  induction names with
  | nil => exact fun h => h
  | cons name names ih =>
    intro place place' h
    unfold enterAll at h ⊢
    split at h
    · cases h
    · next p hp =>
      rw [enter_set at' contents hp]
      exact ih h

/-- The file at a place that has been set is there, unless the place is a
    directory. -/
theorem lookup?_set {t : FileTree κ} {place : Place} (contents : κ)
    (h : t.lookup? place ≠ some .directory) :
    (t.set place contents).lookup? place = some (.file contents) := by
  unfold lookup? at h ⊢
  by_cases hd : place = [] ∨ place ∈ t.directories
  · simp [hd] at h
  · have : ¬(place = [] ∨ place ∈ (t.set place contents).directories) := hd
    rw [if_neg this]
    simp [set]

/-- What has been written in a directory is read there. -/
theorem readAt_writeAt {t t' : FileTree κ} {place : Place} {name : String} {endsInSlash : Bool}
    {contents : κ} (h : t.writeAt place name endsInSlash contents = .ok t') :
    t'.readAt place name endsInSlash = .ok contents ∧ ∃ p, t' = t.set p contents := by
  unfold writeAt at h
  split at h
  · cases h
  · next hn =>
    have hs : endsInSlash = false := by
      cases endsInSlash
      · rfl
      · simp [namesDirectory] at hn
    unfold readAt
    split at h
    · cases h
    · next p _ =>
      split at h
      · cases h
      · next he =>
        cases h
        refine ⟨?_, p, rfl⟩
        simp [lookup?_set contents he, hs]

/-- What has been written is read. -/
theorem read_write {t t' : FileTree κ} {text : String} {contents : κ}
    (h : t.write text contents = .ok t') : t'.read text = .ok contents := by
  unfold write at h
  unfold read
  cases hp : pathOf text with
  | error fault => simp [hp, bind, Except.bind] at h
  | ok path =>
    cases ha : t.approach path with
    | error fault => simp [hp, ha, bind, Except.bind] at h
    | ok place =>
      cases hl : path.names.getLast? with
      | none => simp [hp, ha, hl, bind, Except.bind, throw, throwThe, MonadExceptOf.throw] at h
      | some name =>
        simp only [hp, ha, hl, bind, Except.bind] at h
        obtain ⟨hr, p, rfl⟩ := readAt_writeAt h
        have ha' : (t.set p contents).approach path = .ok place := enterAll_set p contents _ ha
        simp only [bind, Except.bind, ha', hl]
        exact hr

end FileTree

end PanelSketch
