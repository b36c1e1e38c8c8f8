/-!
# Files

The files that a session sees: a finite number of entries, each under the names that lead to it
from the root, and a working directory from which relative paths start.

A path is followed name by name (`Files.walk`).  Every name but the last has to lead into a
directory that is there, also when the next name is `..` and leads out of it again.  The last name
may be missing, and what that means is up to the operation: a file that is read must be there, a
file that is written may be new.

Reading and writing fail for one of six causes (`FileError`).

## Main statement

* `read_write` — a text that was written under a path is what is read under it.
-/

set_option autoImplicit false
namespace SymbolTree

/-- Why a file cannot be read or written. -/
inductive FileError where
  | notFound | notADirectory | isADirectory | notText | nameTooLong | nulCharacter
  deriving DecidableEq, Repr

/-- The wording of a cause. -/
def FileError.message : FileError → String
  | .notFound => "No such file or directory (os error 2)"
  | .notADirectory => "Not a directory (os error 20)"
  | .isADirectory => "Is a directory (os error 21)"
  | .notText => "stream did not contain valid UTF-8"
  | .nameTooLong => "File name too long (os error 36)"
  | .nulCharacter => "file name contained an unexpected NUL byte"

/-- What is stored under a path. -/
inductive FileEntry where
  /-- A file that holds a text. -/
  | text (content : String)
  /-- A file that holds no text. -/
  | binary
  /-- A directory. -/
  | directory
  deriving DecidableEq, Repr

/-! ## Paths -/

/-- A place: the names that lead to it from the root. -/
abbrev Location := List String

/-- A path: where it starts, the names along it, and whether it must lead to a directory. -/
structure FilePath where
  /-- The path starts at the root. -/
  absolute : Bool
  /-- The names along the path, `.` and `..` among them. -/
  names : List String
  /-- The path ends in a slash. -/
  toDirectory : Bool
  deriving DecidableEq, Repr

namespace FilePath

/-- Reads a path.  Several slashes count as one. -/
def ofString (s : String) : FilePath :=
  ⟨s.startsWith "/", (s.splitOn "/").filter (!·.isEmpty), s.endsWith "/"⟩

/-- A path below a directory: an absolute one replaces it, and one slash divides the two. -/
def join (directory name : String) : String :=
  if name.startsWith "/" || directory.isEmpty then name
  else if directory.endsWith "/" then directory ++ name
  else directory ++ "/" ++ name

/-- The greatest number of bytes in a path. -/
def maximumSize : Nat := 4095

/-- The greatest number of bytes in a name. -/
def maximumNameSize : Nat := 255

/-- A text that can be a path, or the cause for which it cannot. -/
def check (s : String) : Except FileError FilePath :=
  if s.contains '\x00' then .error .nulCharacter
  else if s.isEmpty then .error .notFound
  else if maximumSize < s.utf8ByteSize then .error .nameTooLong
  else .ok (ofString s)

end FilePath

/-! ## Following a path -/

/-- The directories at the root. -/
def rootDirectories : List String :=
  ["bin", "boot", "dev", "etc", "home", "lib", "media", "mnt", "opt", "proc", "root", "run",
    "sbin", "srv", "sys", "tmp", "usr", "var"]

/-- The files that can be reached. -/
structure Files where
  /-- The entries other than the root itself. -/
  entries : List (Location × FileEntry) :=
    (["tmp", "work"], .directory) :: rootDirectories.map fun name => ([name], .directory)
  /-- Where relative paths start. -/
  workingDirectory : Location := ["tmp", "work"]
  deriving Repr

/-- What a path leads to once its directories are found. -/
inductive FileTarget where
  /-- A directory, since the path ends in a dot, in two dots or at the root. -/
  | directory (place : Location)
  /-- A name, of an entry or free, in a directory; `toDirectory` says that a slash follows it. -/
  | member (parent : Location) (name : String) (toDirectory : Bool)
  deriving DecidableEq, Repr

namespace Files

/-- The entry at a place; the root is always there. -/
def get? (fs : Files) (place : Location) : Option FileEntry :=
  if place.isEmpty then some .directory else fs.entries.lookup place

/-- Puts an entry at a place. -/
def put (fs : Files) (place : Location) (e : FileEntry) : Files :=
  { fs with entries := (place, e) :: fs.entries.filter (fun x => x.1 ≠ place) }

/-- The place to which one name leads from a directory: a dot stays, two dots lead back, and the
directory above the root is the root. -/
def step (fs : Files) (here : Location) (name : String) : Except FileError Location :=
  if name = "." then .ok here
  else if name = ".." then .ok here.dropLast
  else if FilePath.maximumNameSize < name.utf8ByteSize then .error .nameTooLong
  else match fs.get? (here ++ [name]) with
    | none => .error .notFound
    | some .directory => .ok (here ++ [name])
    | some _ => .error .notADirectory

/-- The place to which names lead from a directory, each through a directory that is there. -/
def walk (fs : Files) : Location → List String → Except FileError Location
  | here, [] => .ok here
  | here, name :: names =>
      match fs.step here name with
      | .ok next => fs.walk next names
      | .error e => .error e

/-- Where a path starts. -/
def start (fs : Files) (p : FilePath) : Location := if p.absolute then [] else fs.workingDirectory

/-- What the last name of a path stands for in the directory before it. -/
def lastTarget (parent : Location) (name : String) (toDirectory : Bool) : FileTarget :=
  if name = "." then .directory parent
  else if name = ".." then .directory parent.dropLast
  else .member parent name toDirectory

/-- What a path leads to. -/
def target (fs : Files) (s : String) : Except FileError FileTarget :=
  match FilePath.check s with
  | .error e => .error e
  | .ok p =>
      match p.names.getLast? with
      | none => .ok (.directory (fs.start p))
      | some name =>
          match fs.walk (fs.start p) p.names.dropLast with
          | .error e => .error e
          | .ok parent => .ok (lastTarget parent name p.toDirectory)

/-! ## Reading -/

/-- The place and the entry that a target stands for, if it is there. -/
def find (fs : Files) : FileTarget → Except FileError (Location × FileEntry)
  | .directory place => .ok (place, .directory)
  | .member parent name toDirectory =>
      if FilePath.maximumNameSize < name.utf8ByteSize then .error .nameTooLong
      else match fs.get? (parent ++ [name]) with
        | none => .error .notFound
        | some .directory => .ok (parent ++ [name], .directory)
        | some e => if toDirectory then .error .notADirectory else .ok (parent ++ [name], e)

/-- The place and the entry under a path. -/
def lookup (fs : Files) (s : String) : Except FileError (Location × FileEntry) :=
  match fs.target s with
  | .ok t => fs.find t
  | .error e => .error e

/-- The text of a file. -/
def read (fs : Files) (s : String) : Except FileError String :=
  match fs.lookup s with
  | .ok (_, .text content) => .ok content
  | .ok (_, .binary) => .error .notText
  | .ok (_, .directory) => .error .isADirectory
  | .error e => .error e

/-- The names of the entries of a directory, in order. -/
def list (fs : Files) (s : String) : Except FileError (List String) :=
  match fs.lookup s with
  | .ok (place, .directory) =>
      let below := fs.entries.filterMap fun e =>
        if e.1.dropLast = place then e.1.getLast? else none
      .ok (below.mergeSort (fun x y => x ≤ y))
  | .ok _ => .error .notADirectory
  | .error e => .error e

/-! ## Writing -/

/-- Puts a file at a target.  Nothing is written where a directory is, nor under a name with a
slash behind it. -/
def storeAt (fs : Files) (e : FileEntry) : FileTarget → Except FileError Files
  | .directory _ => .error .isADirectory
  | .member parent name toDirectory =>
      if toDirectory then .error .isADirectory
      else if FilePath.maximumNameSize < name.utf8ByteSize then .error .nameTooLong
      else if fs.get? (parent ++ [name]) = some .directory then .error .isADirectory
      else .ok (fs.put (parent ++ [name]) e)

/-- Puts a file under a path, in a directory that is there. -/
def store (fs : Files) (s : String) (e : FileEntry) : Except FileError Files :=
  match fs.target s with
  | .ok t => fs.storeAt e t
  | .error e => .error e

/-- Writes a text under a path, in a directory that is there. -/
def write (fs : Files) (s : String) (content : String) : Except FileError Files :=
  fs.store s (.text content)

/-- Walks along names and makes each directory that is missing; the place is `none` when a name
cannot be a directory. -/
def makeDirectories : Files → Location → List String → Files × Option Location
  | fs, here, [] => (fs, some here)
  | fs, here, name :: names =>
      match fs.step here name with
      | .ok next => makeDirectories fs next names
      | .error .notFound =>
          makeDirectories (fs.put (here ++ [name]) .directory) (here ++ [name]) names
      | .error _ => (fs, none)

/-- Puts an entry under a path together with the directories above it, as far as there can be such
an entry. -/
def install (fs : Files) (s : String) (e : FileEntry) : Files :=
  match FilePath.check s with
  | .error _ => fs
  | .ok p =>
      if e = .directory then (fs.makeDirectories (fs.start p) p.names).1
      else
        let above := (fs.makeDirectories (fs.start p) p.names.dropLast).1
        (above.store s e).toOption.getD above

/-- Removes a file; the answer is `none` when there is no such file. -/
def remove (fs : Files) (s : String) : Option Files :=
  match fs.lookup s with
  | .ok (_, .directory) => none
  | .ok (place, _) => some { fs with entries := fs.entries.filter (fun x => x.1 ≠ place) }
  | .error _ => none

/-! ## What was written can be read -/

theorem lookup_filter_ne {place other : Location} (h : other ≠ place)
    (entries : List (Location × FileEntry)) :
    (entries.filter (fun x => x.1 ≠ place)).lookup other = entries.lookup other := by
  induction entries with
  | nil => rfl
  | cons x xs ih =>
    obtain ⟨k, e⟩ := x
    by_cases hk : k = place
    · have hne : (other == k) = false := beq_eq_false_iff_ne.mpr (hk ▸ h)
      rw [List.lookup_cons, hne]
      simpa [hk] using ih
    · rw [List.filter_cons_of_pos (by simpa using hk), List.lookup_cons, List.lookup_cons, ih]

theorem get?_put (fs : Files) {place : Location} (e : FileEntry) (other : Location)
    (h : place ≠ []) :
    (fs.put place e).get? other = if other = place then some e else fs.get? other := by
  by_cases ho : other = place
  · subst ho
    simp [get?, put, h]
  · have hne : (other == place) = false := beq_eq_false_iff_ne.mpr ho
    rw [if_neg ho, get?, get?, put]
    simp only [List.lookup_cons, hne, lookup_filter_ne ho]

/-- A step never leads through a place without a directory, so it is the same after a file was put
there. -/
theorem step_put (fs : Files) {place : Location} (e : FileEntry) (hp : place ≠ [])
    (h : fs.get? place ≠ some .directory) {here there : Location} {name : String}
    (hs : fs.step here name = .ok there) : (fs.put place e).step here name = .ok there := by
  unfold step at hs ⊢
  by_cases h1 : name = "."
  · simpa only [if_pos h1] using hs
  rw [if_neg h1] at hs ⊢
  by_cases h2 : name = ".."
  · simpa only [if_pos h2] using hs
  rw [if_neg h2] at hs ⊢
  by_cases h3 : FilePath.maximumNameSize < name.utf8ByteSize
  · rw [if_pos h3] at hs
    exact absurd hs (by simp)
  rw [if_neg h3] at hs ⊢
  rw [get?_put fs e _ hp]
  by_cases h4 : here ++ [name] = place
  · rw [h4] at hs
    split at hs
    · exact absurd hs (by simp)
    · exact absurd ‹_› h
    · exact absurd hs (by simp)
  · rw [if_neg h4]
    exact hs

theorem walk_put (fs : Files) {place : Location} (e : FileEntry) (hp : place ≠ [])
    (h : fs.get? place ≠ some .directory) (names : List String) :
    ∀ {here there : Location}, fs.walk here names = .ok there →
      (fs.put place e).walk here names = .ok there := by
  induction names with
  | nil => intro here there hw; exact hw
  | cons name names ih =>
    intro here there hw
    unfold walk at hw ⊢
    cases hs : fs.step here name with
    | error _ =>
      rw [hs] at hw
      exact absurd hw (by simp)
    | ok next =>
      rw [hs] at hw
      rw [step_put fs e hp h hs]
      exact ih hw

theorem target_put (fs : Files) {place : Location} (e : FileEntry) (hp : place ≠ [])
    (h : fs.get? place ≠ some .directory) {s : String} {t : FileTarget}
    (ht : fs.target s = .ok t) : (fs.put place e).target s = .ok t := by
  unfold target at ht ⊢
  cases hc : FilePath.check s with
  | error _ =>
    rw [hc] at ht
    exact absurd ht (by simp)
  | ok p =>
    rw [hc] at ht
    simp only at ht ⊢
    cases hn : p.names.getLast? with
    | none =>
      rw [hn] at ht
      exact ht
    | some name =>
      rw [hn] at ht
      simp only at ht ⊢
      cases hw : fs.walk (fs.start p) p.names.dropLast with
      | error _ =>
        rw [hw] at ht
        exact absurd ht (by simp)
      | ok parent =>
        rw [hw] at ht
        have hw' := walk_put fs e hp h _ hw
        rw [show (fs.put place e).start p = fs.start p from rfl, hw']
        exact ht

/-- **What was written is what is read.** -/
theorem read_write {fs after : Files} {s content : String}
    (h : fs.write s content = .ok after) : after.read s = .ok content := by
  unfold write store at h
  cases ht : fs.target s with
  | error _ =>
    rw [ht] at h
    exact absurd h (by simp)
  | ok t =>
    rw [ht] at h
    cases t with
    | directory _ => exact absurd h (by simp [storeAt])
    | member parent name toDirectory =>
      simp only [storeAt] at h
      split at h
      · exact absurd h (by simp)
      split at h
      · exact absurd h (by simp)
      split at h
      · exact absurd h (by simp)
      · next hd hl he =>
        obtain rfl := Except.ok.inj h
        have hp : parent ++ [name] ≠ [] := by simp
        have hl' := target_put fs (.text content) hp he ht
        simp [read, lookup, hl', find, hl, get?_put fs _ _ hp, hd]

end Files

end SymbolTree
