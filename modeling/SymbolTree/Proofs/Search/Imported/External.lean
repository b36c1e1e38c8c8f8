import SymbolTree.Proofs.Arena.Command
import SymbolTree.Proofs.Database.Lookup
import SymbolTree.Proofs.Search.Follows

/-!
# The module that the database names

An import whose package is not in the program asks the database which module declares a member.
Both names are taken for patterns then, although a program writes them as names.  As long as neither
holds an asterisk this makes no difference: the module is the one that is recorded for that very
member of that very package.

## Main statements

* `Search.exec_findExternalPackage` — one import, from what the database finds.
* `Search.findExternalPackage_first` — what the database finds, and where an import is led to.
-/

set_option autoImplicit false
namespace SymbolTree.Search

variable {c : Context} {import_ : NodeId} {name : String}

/-- An import is led to the module of what the database finds, and nowhere if it finds nothing. -/
theorem exec_findExternalPackage (c : Context) (import_ : NodeId) (name : String) :
    (findExternalPackage import_ name).exec c =
      match c.database.findElement (c.arena.name import_) name none with
      | none => (.ok none, c)
      | some x => (some <$> findModule x.2.filename).exec c := by
  rw [findExternalPackage, exec_nameOf_bind, exec_get_bind]
  cases c.database.findElement (c.arena.name import_) name none with
  | none => rfl
  | some x => rfl

/-- A module that is asked for is loaded, or the compilation fails. -/
theorem exec_findModule_ne_none (file : String) (c : Context) :
    ((some <$> findModule file).exec c).1 ≠ .ok none := by
  rw [map_eq_pure_bind, exec_bind]
  cases (findModule file).exec c with
  | mk r d =>
    cases r with
    | ok m => exact nofun
    | error e => exact nofun

/-- **What the database finds, and where an import is led to.**  In a database in order, as every
database is that a program can hold (`Database.Built.ordered`), a lookup finds the first record that
fits the patterns and the type, by package and then by name, and nothing if and only if none fits.
So an import without asterisks in its name or in the name it asks for is led to the file that is
recorded for that member of that package, and nowhere if and only if there is no such record. -/
theorem findExternalPackage_first (c : Context) (h : Database.Ordered c.database.packages) :
    (∀ package element type,
      (∀ x, c.database.findElement package element type = some x ↔
        ∃ r, c.database.Candidate package element type r ∧
          (∀ q, c.database.Candidate package element type q → q = r ∨ r.Precedes q) ∧
          (r.name, r.element) = x) ∧
      (c.database.findElement package element type = none ↔
        ∀ r, ¬ c.database.Candidate package element type r)) ∧
    ∀ import_ name, '*' ∉ (c.arena.name import_).toList → '*' ∉ name.toList →
      (∀ e, c.database.element? (c.arena.name import_) name = some e →
        (findExternalPackage import_ name).exec c = (some <$> findModule e.filename).exec c) ∧
      (((findExternalPackage import_ name).exec c).1 = .ok none ↔
        c.database.element? (c.arena.name import_) name = none) := by
  refine ⟨fun package element type => ⟨fun x => Database.findElement_eq_some_iff h,
    Database.findElement_eq_none_iff h⟩, fun import_ name hp hn => ?_⟩
  rw [exec_findExternalPackage, Database.findElement_of_starless h hp hn]
  cases he : c.database.element? (c.arena.name import_) name with
  | none => exact ⟨nofun, iff_of_true rfl rfl⟩
  | some e =>
    refine ⟨fun e' he' => ?_, iff_of_false (exec_findModule_ne_none _ c) nofun⟩
    rw [Option.some.inj he']
    rfl

/-- A database in which two packages declare a `size`, and an import of the second one. -/
def externalContext : Context where
  arena := after [.create .import_ {}, .setText ⟨0⟩ "p2"]
  database := { packages :=
    [("p1", [("Stream", ⟨"class", "io.js", 1⟩), ("size", ⟨"getter", "io.js", 4⟩)]),
      ("p2", [("size", ⟨"setter", "b.js", 7⟩)])] }
  parser := fun _ => .rejected

/-- Of the two, the first one is found under patterns and the other one by the import, which is led
to the file of that one and not of the first. -/
theorem findExternalPackage_first_sizes :
    Database.Ordered externalContext.database.packages ∧
    (∃ r, externalContext.database.Candidate "p*" "*size" none r ∧
      (∀ q, externalContext.database.Candidate "p*" "*size" none q → q = r ∨ r.Precedes q) ∧
      (r.name, r.element) = ("size", ⟨"getter", "io.js", 4⟩)) ∧
    '*' ∉ (externalContext.arena.name ⟨0⟩).toList ∧ '*' ∉ "size".toList ∧
    (findExternalPackage ⟨0⟩ "size").exec externalContext =
      (some <$> findModule "b.js").exec externalContext := by
  have hordered : Database.Ordered externalContext.database.packages := by
    refine ⟨?_, fun p hp => ?_⟩
    · unfold Dictionary.Sorted
      decide
    · unfold Dictionary.Sorted
      revert p
      decide
  have himport : '*' ∉ (externalContext.arena.name ⟨0⟩).toList := by decide +kernel
  have hname : '*' ∉ "size".toList := by decide +kernel
  have hfirst := findExternalPackage_first externalContext hordered
  have hmember := (hfirst.2 ⟨0⟩ "size" himport hname).1 ⟨"setter", "b.js", 7⟩ (by decide +kernel)
  exact ⟨hordered, ((hfirst.1 "p*" "*size" none).1 _).1 (by decide +kernel), himport, hname,
    hmember⟩

end SymbolTree.Search
