import SymbolTree.Proofs.Search.Imported.Kept

/-!
# What the package database remembers of a module

Indexing a module records each declaration of its packages that is neither private nor internal nor
excluded, under the name of the package and its own, together with the file where it stands.  When
all of the database comes from one file, looking up what was recorded leads to that file, also where
the names contain an asterisk and fit other entries before it.

## Main statements

* `nameFits_self` — a name fits itself as a pattern.
* `Database.findElement_of_records` — what was recorded is found.
* `Search.answers_indexPackages` — indexing is sure to come to its end, and records everything.
-/

set_option autoImplicit false
namespace SymbolTree

/-! ## Patterns -/

theorem Pattern.fits_self (cs : List Char) : fits cs cs = true := by
  induction cs with
  | nil => rfl
  | cons c cs ih =>
    by_cases hc : c = '*'
    · subst hc
      rw [fits_star, onSuffix_eq_true]
      exact ⟨['*'], cs, rfl, ih⟩
    · rw [fits]
      · simp [ih]
      · exact hc

/-- A name fits itself as a pattern. -/
theorem nameFits_self (name : String) : nameFits name name = true := Pattern.fits_self _

/-! ## Databases -/

namespace Database

variable {db db' : Database} {file package name : String} {e : Element}

/-- Everything in the database comes from one file. -/
def From (db : Database) (file : String) : Prop :=
  ∀ p ∈ db.packages, ∀ e ∈ p.2, e.2.filename = file

/-- An element of a package is in the database. -/
def Records (db : Database) (package name : String) : Prop :=
  ∃ p, db.getPackage package = some p ∧ ∃ e, Dictionary.find? p name = some e

/-- One element of a database that was loaded is changed: the package has it, and all the rest is as
it was. -/
structure Changed (db : Database) (package name : String) (e : Element) (db' : Database) :
    Prop where
  /-- The database stays loaded. -/
  loaded : db'.isLoaded = db.isLoaded
  /-- The packages of each name. -/
  getPackage : ∀ q, db'.getPackage q = if q = package then
    some (Dictionary.insert ((db.getPackage package).getD []) name e) else db.getPackage q
  /-- A package that is there is the changed one, an empty one, or was there before. -/
  mem : ∀ p ∈ db'.packages, p.2 = Dictionary.insert ((db.getPackage package).getD []) name e ∨
    p.2 = [] ∨ p ∈ db.packages

theorem exists_changed (h : db.isLoaded = true) (package name : String) (f : Element → Element) :
    ∃ e db', db.changeElement package name f = .ok (f e, db') ∧
      Changed db package name (f e) db' := by
  rw [changeElement, addPackage, if_pos h]
  cases hp : db.getPackage package with
  | some p =>
    refine ⟨_, _, rfl, rfl, fun q => ?_, fun q hq => ?_⟩
    · rw [hp]
      exact Dictionary.find?_insert ..
    · rw [hp]
      rcases Dictionary.mem_insert hq with rfl | hq
      · exact .inl rfl
      · exact .inr (.inr hq)
  | none =>
    refine ⟨_, _, rfl, rfl, fun q => ?_, fun q hq => ?_⟩
    · rw [hp, Database.getPackage, Dictionary.find?_insert, Dictionary.find?_insert]
      split
      · rfl
      · rfl
    · rw [hp]
      rcases Dictionary.mem_insert hq with rfl | hq
      · exact .inl rfl
      · rcases Dictionary.mem_insert hq with rfl | hq
        · exact .inr (.inl rfl)
        · exact .inr (.inr hq)

namespace Changed

theorem from_ (h : Changed db package name e db') (hdb : db.From file) (he : e.filename = file) :
    db'.From file := by
  intro p hp x hx
  rcases h.mem p hp with hp | hp | hp
  · rw [hp] at hx
    rcases Dictionary.mem_insert hx with rfl | hx
    · exact he
    · cases hq : db.getPackage package with
      | none => rw [hq] at hx; cases hx
      | some q =>
        rw [hq] at hx
        exact hdb _ (Dictionary.mem_of_find? hq) x hx
  · rw [hp] at hx
    cases hx
  · exact hdb p hp x hx

theorem records_self (h : Changed db package name e db') : db'.Records package name := by
  refine ⟨_, (h.getPackage package).trans (if_pos rfl), e, ?_⟩
  rw [Dictionary.find?_insert, if_pos rfl]

theorem records (h : Changed db package name e db') {q x : String} (hq : db.Records q x) :
    db'.Records q x := by
  obtain ⟨p, hp, y, hy⟩ := hq
  by_cases hqp : q = package
  · subst hqp
    refine ⟨_, (h.getPackage q).trans (if_pos rfl), ?_⟩
    rw [hp, Option.getD_some, Dictionary.find?_insert]
    split
    · exact ⟨e, rfl⟩
    · exact ⟨y, hy⟩
  · exact ⟨p, (h.getPackage q).trans ((if_neg hqp).trans hp), y, hy⟩

end Changed

/-- **What was recorded is found**, be it under another name that the names fit as patterns, and
comes from the file from which everything comes. -/
theorem findElement_of_records (hdb : db.From file) (h : db.Records package name) :
    ∃ e, db.findElement package name none = some e ∧ e.2.filename = file := by
  obtain ⟨p, hp, e, he⟩ := h
  have hmem : (name, e) ∈ (db.findPackages package).flatMap fun p => p.2.findElements name := by
    refine List.mem_flatMap.2 ⟨(package, p), ?_, ?_⟩
    · exact List.mem_filter.2 ⟨Dictionary.mem_of_find? hp, nameFits_self package⟩
    · exact List.mem_filter.2 ⟨Dictionary.mem_of_find? he, nameFits_self name⟩
  have hsome : (db.findElement package name none).isSome = true :=
    List.find?_isSome.2 ⟨_, hmem, rfl⟩
  obtain ⟨x, hx⟩ := Option.isSome_iff_exists.1 hsome
  refine ⟨x, hx, ?_⟩
  obtain ⟨q, hq, hxq⟩ := List.mem_flatMap.1 (List.mem_of_find?_eq_some hx)
  exact hdb q (List.mem_of_mem_filter hq) x (List.mem_of_mem_filter hxq)

end Database

/-! ## Indexing -/

/-- A module that can be indexed: the database was loaded and is empty, and the module was loaded
from the file that its nodes name. -/
structure Context.Indexable (c : Context) (m : NodeId) (file : String) : Prop
    extends c.HoldsModule m where
  /-- All nodes name the file. -/
  filed : ∀ n, c.arena.Inside n m → (c.arena.position n).filename = file
  /-- The database was loaded. -/
  loaded : c.database.isLoaded = true
  /-- It is empty. -/
  empty : c.database.packages = []
  /-- The module is known under the file. -/
  cached : c.modules.lookup file = some m

namespace Search

variable {c d : Context} {m : NodeId} {file : String} {fuel : Nat} {done : List Arena.Entry}
  {e : Arena.Entry}

/-- Where indexing has come to: the entries in `done` were recorded. -/
structure Indexed (c : Context) (m : NodeId) (file : String) (done : List Arena.Entry)
    (d : Context) : Prop where
  /-- The module is as it was. -/
  kept : Kept c m 0 d.arena d.attributeCache
  /-- Nothing else has happened but that attributes were worked out. -/
  same : Same { c with database := d.database } d
  /-- Nothing is locked. -/
  unlocked : d.arena.lockCount = c.arena.lockCount
  /-- The database stays loaded. -/
  loaded : d.database.isLoaded = true
  /-- All of it comes from the file. -/
  from_ : d.database.From file
  /-- What is to be recorded was recorded. -/
  records : ∀ e ∈ done, c.arena.isRecorded e.node = true →
    d.database.Records e.package (c.arena.name e.node)

/-- Working out an attribute changes nothing of this. -/
theorem Indexed.answers_hasAttribute (h : c.Indexable m file) (hd : Indexed c m file done d)
    {n : NodeId} (hn : c.arena.Inside n m) {t : Attribute} (ht : t ≠ .type)
    (hfuel : c.arena.size + 1 < fuel) :
    Answers d (hasAttribute (answer fuel) n t) fun r e =>
      Indexed c m file done e ∧ r = (c.arena.effective n).contains t := by
  refine (hd.kept.answers_hasAttribute h.toHoldsModule hn ht hfuel).mono fun r e he => ?_
  obtain ⟨⟨hkept, hsame, hlocks⟩, hr⟩ := he
  have hdb : e.database = d.database := congrArg (·.database) hsame.eq
  refine ⟨⟨hkept, ⟨?_, hsame.locks.trans hd.same.locks⟩, hlocks.trans hd.unlocked, hdb ▸ hd.loaded,
    hdb ▸ hd.from_, hdb ▸ hd.records⟩, hr⟩
  rw [hdb]
  exact hsame.eq.trans (congrArg (fun x : Context => { x with
    arena := { x.arena with locks := e.arena.locks }
    diagnostics := e.diagnostics
    rejections := e.rejections
    attributeCache := e.attributeCache }) hd.same.eq)

/-- An entry with one of these attributes is not to be recorded. -/
theorem Indexed.skip (hd : Indexed c m file done d) {t : Attribute}
    (ht : t ∈ [Attribute.private_, .false_, .internal])
    (hcontains : (c.arena.effective e.node).contains t = true) :
    Indexed c m file (done ++ [e]) d := by
  have hhidden : c.arena.isRecorded e.node = false := by
    rw [Arena.isRecorded, Bool.not_eq_false', AttributeSet.any, List.any_eq_true]
    exact ⟨t, ht, hcontains⟩
  refine { hd with records := fun x hx hrecorded => ?_ }
  rcases List.mem_append.1 hx with hx | hx
  · exact hd.records x hx hrecorded
  · rw [List.mem_singleton.1 hx, hhidden] at hrecorded
    cases hrecorded

/-- An entry is recorded by a change of the database. -/
theorem Indexed.record (hd : Indexed c m file done d) {x : Element} {db : Database}
    (h : Database.Changed d.database e.package (c.arena.name e.node) x db)
    (hfile : x.filename = file) :
    Indexed c m file (done ++ [e]) { d with database := db } where
  kept := hd.kept
  same := ⟨congrArg (fun x : Context => { x with database := db }) hd.same.eq, hd.same.locks⟩
  unlocked := hd.unlocked
  loaded := h.loaded.trans hd.loaded
  from_ := h.from_ hd.from_ hfile
  records y hy hrecorded := by
    rcases List.mem_append.1 hy with hy | hy
    · exact h.records (hd.records y hy hrecorded)
    · rw [List.mem_singleton.1 hy]
      exact h.records_self

/-- One entry is recorded, if it is to be. -/
theorem answers_addEntry (h : c.Indexable m file) (he : c.arena.Inside e.node m)
    (hfuel : c.arena.size + 1 < fuel) (hd : Indexed c m file done d) :
    Answers d (addEntry (answer fuel) e) fun _ => Indexed c m file (done ++ [e]) := by
  refine (hd.answers_hasAttribute h he (by decide) hfuel).bind fun r d hd => ?_
  obtain ⟨hd, rfl⟩ := hd
  split
  · next hr => exact Answers.pure (hd.skip (by decide) hr)
  refine (hd.answers_hasAttribute h he (by decide) hfuel).bind fun r d hd => ?_
  obtain ⟨hd, rfl⟩ := hd
  split
  · next hr => exact Answers.pure (hd.skip (by decide) hr)
  refine (hd.answers_hasAttribute h he (by decide) hfuel).bind fun r d hd => ?_
  obtain ⟨hd, rfl⟩ := hd
  split
  · next hr => exact Answers.pure (hd.skip (by decide) hr)
  refine Answers.get_bind ?_
  have hlt := h.lt_size he
  have hfile : (d.arena.position e.node).filename = file := by
    rw [Arena.position, (hd.kept.grows.node e.node hlt).position]
    exact h.filed e.node he
  obtain ⟨_, db, hchange, hchanged⟩ := Database.exists_changed hd.loaded e.package
    (d.arena.name e.node) fun _ => {
      type := e.type
      filename := (d.arena.position e.node).filename
      line := (d.arena.position e.node).line.toInt64 }
  rw [hd.kept.grows.name hlt] at hchange hchanged
  dsimp only
  rw [hd.kept.grows.name hlt, hchange]
  exact Answers.modify (hd.record hchanged hfile)

/-- **Indexing** is sure to come to its end, and records all that is to be recorded. -/
theorem answers_indexPackages (h : c.Indexable m file) (hfuel : c.arena.size + 1 < fuel) :
    Answers c (indexPackages (answer fuel) m) fun _ => Indexed c m file (c.arena.entries m) := by
  have hall : ∀ rest done, (∀ e ∈ rest, c.arena.Inside e.node m) → ∀ d,
      Indexed c m file done d →
      Answers d (rest.forM (addEntry (answer fuel))) fun _ => Indexed c m file (done ++ rest) := by
    intro rest
    induction rest with
    | nil =>
      intro done _ d hd
      rw [List.append_nil]
      exact Answers.pure hd
    | cons e rest ih =>
      intro done hinside d hd
      refine (answers_addEntry h (hinside e List.mem_cons_self) hfuel hd).bind fun _ d hd => ?_
      have hrest := ih (done ++ [e]) (fun x hx => hinside x (List.mem_cons_of_mem e hx)) d hd
      rwa [List.append_assoc, List.singleton_append] at hrest
  refine Answers.arena_bind ?_
  refine hall _ [] (fun e he => Arena.inside_of_mem_entries h.sound.consistent he) c
    ⟨.refl h.toHoldsModule, .refl c, rfl, h.loaded, ?_, fun e he => by cases he⟩
  rw [Database.From, h.empty]
  exact fun p hp => by cases hp

end Search

end SymbolTree
