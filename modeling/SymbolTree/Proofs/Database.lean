import Mathlib.Data.List.Induction
import SymbolTree.Database
import SymbolTree.Proofs.Json.Uncommented

/-!
# The database that was saved is the one that is loaded

A database keeps its packages, and each package its elements, in the order of their names
(`Database.Ordered`).  Saved to a file and loaded again, it is the same database
(`Database.load_save`): the header is taken out as comments, no name is mistaken for a comment or
the end of a string, and every field finds its place.

## Main statements

* `Element.ofMembers_fields`, `Package.ofMembers_members` — what a document says of an element and
  of a package.
* `Database.ofDocument_sorted` — what it says of all packages.
* `Database.Built.ordered` — the order, however the database came about.
* `Database.ofText_fileText` — what is read in a file that was saved.
* `Database.load_save` — the file.
-/

set_option autoImplicit false
namespace SymbolTree

open Dictionary (Sorted)

/-! ## Documents -/

namespace Element

/-- The fields of an element in the order of their names. -/
def fields (e : Element) : List (String × Json) :=
  [("filename", .string e.filename), ("line", .integer e.line), ("type", .string e.type)]

theorem sorted_document (e : Element) : e.document.sorted = .object e.fields := by
  have hfilename : "filename" < "type" := by decide
  have hline : "line" < "type" := by decide
  have hbetween : ¬ "line" < "filename" := by decide
  have hentries : Dictionary.ofList [("type", Json.string e.type),
      ("filename", Json.string e.filename), ("line", Json.integer e.line)] = e.fields := by
    simp [Dictionary.ofList, Dictionary.insert, fields, hfilename, hline, hbetween]
  simp only [document, Json.sorted, Json.sortedMembers, hentries]

theorem readable_document (e : Element) (depth : Nat) : Json.Readable (depth + 1) e.document := by
  refine .object fun m hm => ?_
  simp only [List.mem_cons, List.not_mem_nil, or_false] at hm
  rcases hm with rfl | rfl | rfl
  · exact .string _
  · exact .string _
  · exact .integer _

/-- The fields of an element say all of it and are not at fault. -/
theorem ofMembers_fields (e : Element) : ofMembers e.fields = (e, []) := rfl

end Element

/-- The members of an object that stand in order stay where they are. -/
theorem Json.sorted_object {α : Type} {d : Dictionary α} (hd : Sorted d) (f : α → Json) :
    (Json.object (d.map fun e => (e.1, f e.2))).sorted
      = .object (d.map fun e => (e.1, (f e.2).sorted)) := by
  have hmap : (d.map fun e => (e.1, f e.2)).map (fun m => (m.1, m.2.sorted))
      = d.map fun e => (e.1, (f e.2).sorted) := List.map_map
  rw [Json.sorted, Json.sortedMembers_eq, hmap,
    Dictionary.ofList_of_sorted ((Dictionary.sorted_map fun e => (f e.2).sorted).2 hd)]

namespace Package

/-- The document of a package. -/
def document (p : Package) : Json := .object (p.map fun e => (e.1, e.2.document))

/-- The elements of a package, each with its fields in the order of their names. -/
def members (p : Package) : List (String × Json) := p.map fun e => (e.1, .object e.2.fields)

theorem sorted_document {p : Package} (hp : Sorted p) :
    (document p).sorted = .object (members p) := by
  simp only [document, Json.sorted_object hp, Element.sorted_document, members]

theorem readable_document (p : Package) (depth : Nat) : Json.Readable (depth + 2) (document p) := by
  refine .object fun m hm => ?_
  obtain ⟨e, _, rfl⟩ := List.mem_map.1 hm
  exact e.2.readable_document depth

/-- What the last member of a document adds to a package. -/
theorem ofMembers_concat (ms : List (String × Json)) (name : String) (value : Json) :
    ofMembers (ms ++ [(name, value)]) = match value.members? with
      | some fields => (Dictionary.insert (ofMembers ms).1 name (Element.ofMembers fields).1,
          (ofMembers ms).2 ++ (Element.ofMembers fields).2)
      | none => ((ofMembers ms).1, (ofMembers ms).2 ++ [elementFault]) := by
  rw [ofMembers, List.foldl_append]
  rfl

/-- The elements of a package, in order, make that package. -/
theorem ofMembers_members {p : Package} (hp : Sorted p) : ofMembers (members p) = (p, []) := by
  induction p using List.reverseRecOn with
  | nil => rfl
  | append_singleton p e ih =>
    have hbefore := ih (List.pairwise_append.1 hp).1
    rw [members, List.map_append, List.map_singleton, ofMembers_concat, ← members, hbefore]
    simp only [Json.members?, Element.ofMembers_fields, hp.insert_append, List.append_nil]

/-- Whatever a document says, its elements are put in order. -/
theorem sorted_ofMembers (ms : List (String × Json)) : Sorted (ofMembers ms).1 := by
  induction ms using List.reverseRecOn with
  | nil => exact List.Pairwise.nil
  | append_singleton ms m ih =>
    rw [ofMembers_concat]
    split
    · exact Dictionary.sorted_insert ih _ _
    · exact ih

end Package

namespace Database

/-- The packages stand in the order of their names, and the elements of each package do. -/
structure Ordered (packages : Dictionary Package) : Prop where
  /-- The packages. -/
  names : Sorted packages
  /-- The elements of each package. -/
  elements : ∀ p ∈ packages, Sorted p.2

variable {packages : Dictionary Package}

theorem Ordered.nil : Ordered [] := ⟨List.Pairwise.nil, fun _ hp => nomatch hp⟩

theorem Ordered.insert (h : Ordered packages) (name : String) {p : Package} (hp : Sorted p) :
    Ordered (Dictionary.insert packages name p) where
  names := Dictionary.sorted_insert h.names name p
  elements q hq := by
    rcases Dictionary.mem_insert hq with rfl | hq
    · exact hp
    · exact h.elements q hq

theorem document_eq : document packages
    = .object (packages.map fun p => (p.1, Package.document p.2)) := rfl

theorem sorted_document (h : Ordered packages) :
    (document packages).sorted
      = .object (packages.map fun p => (p.1, .object (Package.members p.2))) := by
  rw [document_eq, Json.sorted_object h.names]
  refine congrArg Json.object (List.map_congr_left fun p hp => ?_)
  rw [Package.sorted_document (h.elements p hp)]

theorem readable_document (packages : Dictionary Package) (depth : Nat) :
    Json.Readable (depth + 3) (document packages) := by
  rw [document_eq]
  refine .object fun m hm => ?_
  obtain ⟨p, _, rfl⟩ := List.mem_map.1 hm
  exact Package.readable_document p.2 depth

/-- The packages in a document are put behind those that are already there. -/
theorem packagesOfMembers_members {before : Dictionary Package}
    (h : Ordered (before ++ packages)) :
    packagesOfMembers (packages.map fun p => (p.1, .object (Package.members p.2))) before
      = (before ++ packages, [], true) := by
  induction packages generalizing before with
  | nil => rw [List.append_nil]; rfl
  | cons p packages ih =>
    have hp := h.elements p (List.mem_append_right _ List.mem_cons_self)
    have hmore : Ordered ((before ++ [p]) ++ packages) := by rwa [List.append_assoc]
    rw [List.map_cons, packagesOfMembers]
    simp only [Json.members?, Package.ofMembers_members hp, h.names.insert_append, ih hmore,
      List.append_nil, List.append_assoc, List.singleton_append]

/-- What a document says of all packages. -/
theorem ofDocument_sorted (h : Ordered packages) :
    ofDocument (document packages).sorted = (packages, [], true) := by
  rw [sorted_document h, ofDocument]
  exact packagesOfMembers_members (h : Ordered ([] ++ packages))

/-! ## Order -/

theorem ordered_packagesOfMembers (ms : List (String × Json)) (h : Ordered packages) :
    Ordered (packagesOfMembers ms packages).1 := by
  induction ms generalizing packages with
  | nil => exact h
  | cons m ms ih =>
    rw [packagesOfMembers]
    split
    · exact h
    · exact ih (h.insert m.1 (Package.sorted_ofMembers _))

theorem ordered_ofText (position : Position) (text : String) (d : Diagnostics) :
    Ordered (ofText position text d).1 := by
  rw [ofText]
  split
  · exact Ordered.nil
  · next v _ =>
    cases v with
    | object ms => exact ordered_packagesOfMembers ms Ordered.nil
    | _ => exact Ordered.nil

variable {db : Database}

/-- What is loaded is in order, whatever the file says. -/
theorem ordered_load (h : Ordered db.packages) (fs : Files) (path : String) (d : Diagnostics) :
    Ordered (db.load fs path d).2.1.packages := by
  rw [load]
  split
  · exact h
  · dsimp only
    split
    · exact ordered_ofText _ _ _
    · exact Ordered.nil
    · exact Ordered.nil

theorem ordered_addPackage (h : Ordered db.packages) {name : String} {p : Package} {db' : Database}
    (hadd : db.addPackage name = .ok (p, db')) : Sorted p ∧ Ordered db'.packages := by
  rw [addPackage] at hadd
  split at hadd
  · split at hadd
    · next q hq =>
      obtain ⟨rfl, rfl⟩ := Prod.mk.inj (Except.ok.inj hadd)
      exact ⟨h.elements _ (Dictionary.mem_of_find? hq), h⟩
    · obtain ⟨rfl, rfl⟩ := Prod.mk.inj (Except.ok.inj hadd)
      exact ⟨List.Pairwise.nil, h.insert name List.Pairwise.nil⟩
  · cases hadd

/-- Packages and elements that are added or changed go to their place. -/
theorem ordered_changeElement (h : Ordered db.packages) {package name : String}
    {f : Element → Element} {e : Element} {db' : Database}
    (hchange : db.changeElement package name f = .ok (e, db')) : Ordered db'.packages := by
  rw [changeElement] at hchange
  cases hadd : db.addPackage package with
  | error _ => rw [hadd] at hchange; cases hchange
  | ok r =>
    obtain ⟨hp, hordered⟩ := ordered_addPackage h hadd
    rw [hadd] at hchange
    obtain ⟨-, rfl⟩ := Prod.mk.inj (Except.ok.inj hchange)
    exact hordered.insert package (Dictionary.sorted_insert hp name _)

/-- A database as a program comes to hold it: a fresh one is loaded, and packages and elements are
added and changed. -/
inductive Built : Database → Prop
  /-- A fresh database. -/
  | fresh : Built {}
  /-- A database that is loaded from a file. -/
  | load {db : Database} (h : Built db) (fs : Files) (path : String) (d : Diagnostics) :
      Built (db.load fs path d).2.1
  /-- A database with one more package. -/
  | addPackage {db db' : Database} {name : String} {p : Package} (h : Built db)
      (hadd : db.addPackage name = .ok (p, db')) : Built db'
  /-- A database with an element that is new or changed. -/
  | changeElement {db db' : Database} {package name : String} {f : Element → Element} {e : Element}
      (h : Built db) (hchange : db.changeElement package name f = .ok (e, db')) : Built db'

/-- However a database came about, it is in order. -/
theorem Built.ordered (h : Built db) : Ordered db.packages := by
  induction h with
  | fresh => exact Ordered.nil
  | load _ fs path d ih => exact ordered_load ih fs path d
  | addPackage _ hadd ih => exact (ordered_addPackage ih hadd).2
  | changeElement _ hchange ih => exact ordered_changeElement ih hchange

/-! ## The file -/

theorem isRemarks_header : Comment.isRemarks false header.toList = true := by
  unfold header
  repeat rewrite [String.toList_append]
  repeat rewrite [String.toList_ofList]
  decide +kernel

/-- Without its comments the file is the document below blank lines. -/
theorem strip_fileText (packages : Dictionary Package) :
    Comment.strip (fileText packages) = String.ofList
      (List.replicate (header.toList.count '\n' + 1) '\n' ++ Json.write 0 (document packages)
        ++ ['\n']) := by
  have htext : ∀ (head : String) (v : Json), (head ++ "\n" ++ v.render ++ "\n").toList
      = head.toList ++ '\n' :: (Json.write 0 v ++ ['\n']) := fun head v => by
    simp [Json.render, String.toList_append]
  have hremarks := Comment.stripFrom_remarks isRemarks_header
    (Json.write 0 (document packages) ++ ['\n'])
  rw [Comment.strip, fileText, htext]
  refine congrArg String.ofList (hremarks.trans ?_)
  rw [Comment.bare_write, List.append_assoc]
  rfl

/-- The document in a file that was saved is read as it was written. -/
theorem parseWithComments_fileText (packages : Dictionary Package) :
    Json.parseWithComments (fileText packages) = .ok (document packages).sorted := by
  have hread : ∀ n, Json.readDocument
      (List.replicate n '\n' ++ Json.write 0 (document packages) ++ ['\n'])
        = .ok (document packages).sorted := fun n =>
    Json.readDocument_write (readable_document packages 124)
      (fun c hc => (List.mem_replicate.1 hc).2 ▸ rfl) fun _ hc => nomatch hc
  rw [Json.parseWithComments, Json.parse, strip_fileText, String.toList_ofList, hread]

/-- The file says what the packages are, and there is nothing to report. -/
theorem ofText_fileText (h : Ordered packages) (position : Position) (d : Diagnostics) :
    ofText position (fileText packages) d = (packages, d, true) := by
  rw [ofText, parseWithComments_fileText]
  dsimp only
  rw [ofDocument_sorted h]
  rfl

/-- **The database that was saved is the one that is loaded.**  Whatever the names, the types and
the file names hold, a fresh database finds the file valid, has nothing to report and holds the same
packages.  Every database that a program can hold is in order (`Built.ordered`). -/
theorem load_save {fs after : Files} {path : String} {valid : Bool} (h : Ordered db.packages)
    (hloaded : db.loaded = some (path, valid)) (hsave : db.save fs = .ok after) (d : Diagnostics) :
    load {} after path d
      = (true, { loaded := some (path, true), packages := db.packages }, d) := by
  have hwrite : fs.write path (fileText db.packages) = .ok after := by
    rw [save, hloaded] at hsave
    dsimp only at hsave
    split at hsave
    · next hw =>
      obtain rfl := Except.ok.inj hsave
      exact hw
    · cases hsave
  rw [load]
  dsimp only
  rw [Files.read_write hwrite]
  dsimp only
  rw [ofText_fileText h]

/-- Packages and elements with names that hold quotes, backslashes, control characters and the
beginnings of comments, and a package without elements. -/
def awkward : Dictionary Package :=
  [("", []),
    ("// a \"b\\\" c", [("/* \n \x01 \\", ⟨"é\"", "C:\\dir\\// \t\x0c*/", Int64.minValue⟩),
      ("\x7f\"", ⟨"class", "", Int64.maxValue⟩)])]

/-- A file can be written in the working directory. -/
theorem write_db (text : String) :
    Files.write {} "db" text = .ok (Files.put {} ["tmp", "work", "db"] (.text text)) := by
  have hnul : "db".contains '\x00' = false := by simp
  have hstart : "db".startsWith "/" = false := by simp
  have hend : "db".endsWith "/" = false := by decide +kernel
  -- neither of the two characters is a slash
  have hsplit : "db".splitOn "/" = ["db"] := by
    rw [String.splitOn, if_neg (by decide),
      String.splitOnAux, if_neg (by decide), if_neg (by decide +kernel),
      String.splitOnAux, if_neg (by decide), if_neg (by decide +kernel),
      String.splitOnAux, if_pos (by decide)]
    decide +kernel
  have hpath : FilePath.check "db" = .ok ⟨false, ["db"], false⟩ := by
    rw [FilePath.check, hnul, FilePath.ofString, hstart, hend, hsplit]
    rfl
  rw [Files.write, Files.store, Files.target, hpath]
  rfl

/-- A database that is awkward to write is loaded as it was saved. -/
theorem load_save_awkward : ∃ after : Files,
    Ordered awkward ∧
    save { loaded := some ("db", true), packages := awkward } {} = .ok after ∧
    load {} after "db" {} = (true, { loaded := some ("db", true), packages := awkward }, {}) := by
  have hordered : Ordered awkward := by
    refine ⟨?_, fun p hp => ?_⟩
    · unfold Sorted
      decide
    · unfold Sorted
      revert p
      decide
  have hsave : save { loaded := some ("db", true), packages := awkward } {}
      = .ok (Files.put {} ["tmp", "work", "db"] (.text (fileText awkward))) := by
    rw [save]
    dsimp only
    rw [write_db]
  exact ⟨_, hordered, hsave, load_save hordered rfl hsave {}⟩

end Database

end SymbolTree
