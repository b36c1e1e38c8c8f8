import SymbolTree.Proofs.Arena.Deed
import SymbolTree.Proofs.Database.Record
import SymbolTree.Proofs.Search.Imported.Declares
import SymbolTree.Proofs.Search.Imported.Kept

/-!
# Indexing is exact

Indexing a program records what its packages declare, and nothing else.  Of several declarations of
one name in packages of one name the last one counts, functions that differ in their parameters
among them.  What is private, internal or excluded from the compilation leaves no trace, not even
the package that declares it.

Which attributes a declaration has is worked out once and remembered.  So a second run has nothing
to work out, and it records what is recorded already: it changes nothing at all.

## Main statements

* `Search.answers_indexPackages_exact` — the database after a run.
* `Search.exec_indexPackages_again` — the second run.
* `Search.indexPackages_exact` — both, in terms of the tree.
-/

set_option autoImplicit false
namespace SymbolTree

open Relation (TransGen)

namespace Arena

variable {a : Arena} {m n : NodeId} {e : Entry} {es es' : List Entry} {package name : String}

/-- A program that is a tree without attribute lists. -/
structure BareProgram (a : Arena) (m : NodeId) : Prop where
  /-- It is a program. -/
  program : a.kind m = .program
  /-- It does not stand below itself. -/
  tree : ¬ TransGen a.Under m m
  /-- Nothing in it has an attribute list. -/
  bare : ∀ n, a.Inside n m → a.attributeNode n = none

/-- A declaration leaves a trace: its attributes, those that it inherits included, say neither that
it is private or internal nor that it is excluded from the compilation. -/
def Recorded (a : Arena) (n : NodeId) : Prop :=
  ∃ s, a.Effective n s ∧ ∀ t ∈ [Attribute.private_, .false_, .internal], s.contains t = false

/-- What is recorded of a declaration. -/
def elementOf (a : Arena) (e : Entry) : Element :=
  { type := e.type
    filename := (a.position e.node).filename
    line := (a.position e.node).line.toInt64 }

/-- A package of a program declares something under a name that leaves a trace, and whatever else
does so under the same names stands before it. -/
structure DeclaresLast (a : Arena) (m : NodeId) (package name : String) (e : Entry) : Prop where
  /-- It is declared. -/
  declares : a.Declares m e
  /-- It leaves a trace. -/
  recorded : a.Recorded e.node
  /-- This is the name of the package. -/
  inPackage : e.package = package
  /-- This is its name. -/
  named : a.name e.node = name
  /-- All others stand before it. -/
  last : ∀ x, a.Declares m x → a.Recorded x.node → x.package = package → a.name x.node = name →
    x = e ∨ [x.node, e.node].Sublist (a.preorder m)

/-- The packages of a program declare nothing under a name that leaves a trace. -/
def DeclaresNone (a : Arena) (m : NodeId) (package name : String) : Prop :=
  ∀ e, a.Declares m e → a.Recorded e.node → ¬ (e.package = package ∧ a.name e.node = name)

namespace BareProgram

variable (h : a.BareProgram m)

include h

theorem graded : a.Graded (a.Inside · m) fun n => (n :: a.ancestors n).idxOf m :=
  graded_inside h.tree h.program

theorem legible (hn : a.Inside n m) : a.Legible n := by
  intro e he
  rw [attributeEntries, h.bare n hn] at he
  cases he

/-- The attributes of a node of the program, by the tree. -/
theorem effective (hn : a.Inside n m) : a.Effective n (a.effective n) :=
  h.graded.effective hn (Nat.le_of_lt (depth_lt_size h.tree h.program hn))

theorem isRecorded_iff (hn : a.Inside n m) : a.isRecorded n = true ↔ a.Recorded n := by
  have hany : a.isRecorded n = true ↔ ∀ t ∈ [Attribute.private_, .false_, .internal],
      (a.effective n).contains t = false := by
    rw [isRecorded, Bool.not_eq_true', AttributeSet.any, List.any_eq_false]
    exact forall₂_congr fun _ _ => Bool.not_eq_true _ ▸ Iff.rfl
  rw [hany]
  refine ⟨fun hs => ⟨_, h.effective hn, hs⟩, fun hs => ?_⟩
  obtain ⟨s, hs, hall⟩ := hs
  rwa [(h.effective hn).unique hs]

end BareProgram

/-! ## Records -/

/-- What is to be written into the database for a declaration. -/
def recordOf (a : Arena) (e : Entry) : Database.Record := ⟨e.package, a.name e.node, a.elementOf e⟩

/-- What is to be written into the database for a list of declarations. -/
def recordsOf (a : Arena) (es : List Entry) : List Database.Record :=
  (es.filter fun e => a.isRecorded e.node).map a.recordOf

theorem recordsOf_append : a.recordsOf (es ++ es') = a.recordsOf es ++ a.recordsOf es' := by
  rw [recordsOf, List.filter_append, List.map_append]
  rfl

theorem recordsOf_singleton :
    a.recordsOf [e] = if a.isRecorded e.node then [a.recordOf e] else [] := by
  rw [recordsOf, List.filter_singleton]
  cases a.isRecorded e.node <;> rfl

theorem mem_recordsOf {r : Database.Record} : r ∈ a.recordsOf es ↔
    ∃ e ∈ es, a.isRecorded e.node = true ∧ a.recordOf e = r := by
  simp [recordsOf, and_assoc]

/-- An entry with one of these attributes is not to be recorded. -/
theorem isRecorded_of_contains {t : Attribute} (ht : t ∈ [Attribute.private_, .false_, .internal])
    (hcontains : (a.effective n).contains t = true) : a.isRecorded n = false := by
  rw [isRecorded, Bool.not_eq_false', AttributeSet.any, List.any_eq_true]
  exact ⟨t, ht, hcontains⟩

theorem entries_congr {b : Arena} (h : b.node = a.node) (hsize : b.size = a.size) :
    b.entries m = a.entries m := by
  have hpackage : ∀ fuel package list,
      b.packageEntries fuel package list = a.packageEntries fuel package list := by
    intro fuel
    induction fuel with
    | zero => exact fun _ _ => rfl
    | succ fuel ih =>
      simp only [packageEntries, functionType, children, kind, h, ih, implies_true]
  have hfrom : ∀ fuel list, b.entriesFrom fuel list = a.entriesFrom fuel list := by
    intro fuel
    induction fuel with
    | zero => exact fun _ => rfl
    | succ fuel ih =>
      simp only [entriesFrom, children, kind, h, hsize, hpackage, ih, implies_true]
  rw [entries, entries, hsize, hfrom, kind, kind, h]

section Last

variable (h : a.Consistent) (hm : a.BareProgram m)

include h hm

/-- What is written last is what stands last in the tree. -/
theorem declaresLast_of_last? {r : Database.Record}
    (hr : Database.last? (a.recordsOf (a.entries m)) package name = some r) :
    ∃ e, a.DeclaresLast m package name e ∧ r.element = a.elementOf e := by
  have hinside : ∀ e ∈ a.entries m, a.Inside e.node m := fun e he => inside_of_mem_entries h he
  have hdeclares : ∀ e, e ∈ a.entries m ↔ a.Declares m e :=
    fun e => mem_entries_iff h hm.tree hm.program
  obtain ⟨hpackage, hname, before, after, hsplit, hafter⟩ := Database.exists_of_last?_eq_some hr
  -- the entries that leave a trace, split in the same way
  obtain ⟨front, rest, hfilter, hfront, hrest⟩ := List.map_eq_append_iff.1 hsplit
  obtain ⟨e, back, rfl, rfl, hback⟩ := List.map_eq_cons_iff.1 hrest
  have hmem : ∀ x, x ∈ front ++ e :: back ↔ x ∈ a.entries m ∧ a.isRecorded x.node = true := by
    intro x
    rw [← hfilter, List.mem_filter]
  have hkept := (hmem e).1 (List.mem_append_right _ List.mem_cons_self)
  have hsublist : ((front ++ e :: back).map Entry.node).Sublist (a.preorder m) := by
    rw [← hfilter]
    exact ((List.filter_sublist).map Entry.node).trans
      (sublist_preorder_entries h hm.tree hm.program)
  refine ⟨e, ⟨(hdeclares e).1 hkept.1, (hm.isRecorded_iff (hinside e hkept.1)).1 hkept.2, hpackage,
    hname, fun x hx hrecorded hxpackage hxname => ?_⟩, rfl⟩
  have hx := (hdeclares x).2 hx
  have hmet := (hmem x).2 ⟨hx, (hm.isRecorded_iff (hinside x hx)).2 hrecorded⟩
  rcases List.mem_append.1 hmet with hmet | hmet
  · have htwo : [x, e].Sublist (front ++ e :: back) :=
      (List.singleton_sublist.2 hmet).append
        (List.cons_sublist_cons.2 (List.nil_sublist back))
    exact .inr ((htwo.map Entry.node).trans hsublist)
  · rcases List.mem_cons.1 hmet with rfl | hmet
    · exact .inl rfl
    · have hmem : a.recordOf x ∈ after := hback ▸ List.mem_map.2 ⟨x, hmet, rfl⟩
      exact absurd ⟨hxpackage, hxname⟩ (hafter _ hmem)

/-- What is not written is not declared. -/
theorem declaresNone_of_last?
    (hr : Database.last? (a.recordsOf (a.entries m)) package name = none) :
    a.DeclaresNone m package name := by
  intro e he hrecorded
  have hmem := (mem_entries_iff h hm.tree hm.program).2 he
  exact Database.last?_eq_none_iff.1 hr (a.recordOf e) (mem_recordsOf.2
    ⟨e, hmem, (hm.isRecorded_iff (inside_of_mem_entries h hmem)).2 hrecorded, rfl⟩)

end Last

end Arena

namespace Search

variable {c d : Context} {m n : NodeId} {fuel : Nat} {done : List Arena.Entry} {e : Arena.Entry}

/-! ## The first run -/

/-- Where indexing has come to: the entries in `done` were recorded, and their attributes are
remembered. -/
structure Recording (c : Context) (m : NodeId) (done : List Arena.Entry) (d : Context) : Prop where
  /-- Nothing else has happened but that attributes of the program were worked out. -/
  settled : Settled (c.arena.Inside · m) { c with database := d.database } [] d
  /-- What is in the database. -/
  database : d.database = c.database.putAll (c.arena.recordsOf done)
  /-- Attributes that were asked for are remembered. -/
  remembered : ∀ e ∈ done, ∃ s, d.attributeCache.lookup e.node = some s

/-- An attribute is worked out, and then all attributes of the node are remembered. -/
theorem Recording.answers_hasAttribute (hc : c.arena.Consistent) (hm : c.arena.BareProgram m)
    (hd : Recording c m done d) (hn : c.arena.Inside n m) {t : Attribute} (ht : t ≠ .type)
    (hfuel : c.arena.size < fuel) :
    Answers d (hasAttribute (answer fuel) n t) fun r e => Recording c m done e ∧
      (∃ s, e.attributeCache.lookup n = some s) ∧ r = (c.arena.effective n).contains t := by
  have hdepth := Arena.depth_lt_size hm.tree hm.program hn
  have hworked := (answers_effective_of_graded (c := { c with database := d.database }) hm.graded
    (fun x hx => hm.legible hx) hn (show _ < fuel by omega) hd.settled).follow
    (faithful_answer fuel (.effectiveAttributes n)) (hd.settled.same.consistent hc)
  refine hworked.bind fun s e he => Answers.pure ?_
  obtain ⟨⟨hsettled, hfits, hlookup⟩, hcourse⟩ := he
  have hdatabase : e.database = d.database := congrArg (·.database) hsettled.same.eq
  refine ⟨⟨hdatabase ▸ hsettled, hdatabase.trans hd.database, fun x hx => ?_⟩, ⟨s, hlookup⟩,
    hfits _ (hm.effective hn) t ht⟩
  obtain ⟨u, hu⟩ := hd.remembered x hx
  exact ⟨u, hcourse.lookup hu⟩

/-- An entry is written into the database. -/
def record (d : Context) (e : Arena.Entry) : Context :=
  { d with
    database := d.database.put e.package (d.arena.name e.node) (d.arena.elementOf e) }

/-- In a database that was loaded nothing prevents an entry from being written. -/
theorem exec_record (hd : d.database.isLoaded = true) (e : Arena.Entry) :
    (do
      let c ← get
      let p := c.arena.position e.node
      let set (_ : Element) : Element :=
        { type := e.type, filename := p.filename, line := p.line.toInt64 }
      match c.database.changeElement e.package (c.arena.name e.node) set with
      | .ok (_, db) => modify fun c => { c with database := db }
      | .error e => fail (.database e) : Search Unit).exec d = (.ok (), record d e) := by
  rw [exec_get_bind]
  dsimp only
  rw [Database.changeElement_const hd]
  rfl

theorem recordOf_congr {a b : Arena} (h : b.node e.node = a.node e.node) :
    b.recordOf e = a.recordOf e := by
  rw [Arena.recordOf, Arena.recordOf, Arena.elementOf, Arena.elementOf, Arena.name, Arena.name,
    Arena.kind, Arena.kind, Arena.position, Arena.position, h]

theorem Recording.node (hd : Recording c m done d) (n : NodeId) :
    d.arena.node n = c.arena.node n := by
  have hnodes : d.arena.nodes = c.arena.nodes := hd.settled.same.nodes
  rw [Arena.node, Arena.node, hnodes]

/-- An entry that is not to be recorded is done. -/
theorem Recording.skip (hd : Recording c m done d)
    (hlookup : ∃ s, d.attributeCache.lookup e.node = some s)
    (hhidden : c.arena.isRecorded e.node = false) : Recording c m (done ++ [e]) d := by
  refine ⟨hd.settled, ?_,
    List.forall_mem_append.2 ⟨hd.remembered, List.forall_mem_singleton.2 hlookup⟩⟩
  rw [Arena.recordsOf_append, Arena.recordsOf_singleton, if_neg (Bool.eq_false_iff.1 hhidden),
    List.append_nil]
  exact hd.database

/-- An entry that is to be recorded is done once it was written. -/
theorem Recording.write (hd : Recording c m done d)
    (hlookup : ∃ s, d.attributeCache.lookup e.node = some s)
    (hrecorded : c.arena.isRecorded e.node = true) :
    Recording c m (done ++ [e]) (record d e) := by
  refine ⟨⟨⟨?_, hd.settled.same.locks⟩, hd.settled.agrees, hd.settled.known⟩, ?_,
    List.forall_mem_append.2 ⟨hd.remembered, List.forall_mem_singleton.2 hlookup⟩⟩
  · exact congrArg (fun x : Context => { x with database := (record d e).database })
      hd.settled.same.eq
  · rw [Arena.recordsOf_append, Arena.recordsOf_singleton, if_pos hrecorded,
      Database.putAll_concat, ← hd.database, ← recordOf_congr (hd.node e.node)]
    rfl

/-- One entry is recorded, if it is to be. -/
theorem answers_addEntry_exact (hc : c.arena.Consistent) (hm : c.arena.BareProgram m)
    (hloaded : c.database.isLoaded = true) (he : c.arena.Inside e.node m)
    (hfuel : c.arena.size < fuel) (hd : Recording c m done d) :
    Answers d (addEntry (answer fuel) e) fun _ => Recording c m (done ++ [e]) := by
  have hhidden : ∀ {t}, t ∈ [Attribute.private_, .false_, .internal] →
      (c.arena.effective e.node).contains t = true → c.arena.isRecorded e.node = false :=
    Arena.isRecorded_of_contains
  refine (hd.answers_hasAttribute hc hm he (by decide) hfuel).bind fun r d hd => ?_
  obtain ⟨hd, hlookup, rfl⟩ := hd
  split
  · next hprivate => exact Answers.pure (hd.skip hlookup (hhidden (by decide) hprivate))
  next hprivate =>
  refine (hd.answers_hasAttribute hc hm he (by decide) hfuel).bind fun r d hd => ?_
  obtain ⟨hd, hlookup, rfl⟩ := hd
  split
  · next hfalse => exact Answers.pure (hd.skip hlookup (hhidden (by decide) hfalse))
  next hfalse =>
  refine (hd.answers_hasAttribute hc hm he (by decide) hfuel).bind fun r d hd => ?_
  obtain ⟨hd, hlookup, rfl⟩ := hd
  split
  · next hinternal => exact Answers.pure (hd.skip hlookup (hhidden (by decide) hinternal))
  next hinternal =>
  have hrecorded : c.arena.isRecorded e.node = true := by
    rw [Arena.isRecorded, Bool.not_eq_true', AttributeSet.any, List.any_eq_false]
    simp only [List.mem_cons, List.not_mem_nil, or_false, forall_eq_or_imp, forall_eq]
    exact ⟨hprivate, hfalse, hinternal⟩
  have hload : d.database.isLoaded = true := by
    rw [Database.isLoaded, hd.database, Database.loaded_putAll]
    exact hloaded
  exact ⟨_, _, exec_record hload e, hd.write hlookup hrecorded⟩

/-- **Indexing** is sure to come to its end, and records exactly what is to be recorded. -/
theorem answers_indexPackages_exact (hc : c.arena.Consistent) (hm : c.arena.BareProgram m)
    (hcache : c.attributeCache = []) (hloaded : c.database.isLoaded = true)
    (hfuel : c.arena.size < fuel) :
    Answers c (indexPackages (answer fuel) m) fun _ => Recording c m (c.arena.entries m) := by
  have hall : ∀ rest done, (∀ e ∈ rest, c.arena.Inside e.node m) → ∀ d, Recording c m done d →
      Answers d (rest.forM (addEntry (answer fuel))) fun _ => Recording c m (done ++ rest) := by
    intro rest
    induction rest with
    | nil =>
      intro done _ d hd
      rw [List.append_nil]
      exact Answers.pure hd
    | cons e rest ih =>
      intro done hinside d hd
      refine (answers_addEntry_exact hc hm hloaded (hinside e List.mem_cons_self) hfuel hd).bind
        fun _ d hd => ?_
      have hrest := ih (done ++ [e]) (fun x hx => hinside x (List.mem_cons_of_mem e hx)) d hd
      rwa [List.append_assoc, List.singleton_append] at hrest
  have hstart : Recording c m [] c :=
    ⟨.start fun x s _ hs => (by rw [hcache] at hs; cases hs), rfl, fun e he => nomatch he⟩
  exact Answers.arena_bind
    (hall _ [] (fun e he => Arena.inside_of_mem_entries hc he) c hstart)

/-! ## The second run -/

/-- What is remembered is answered, and nothing is done. -/
theorem exec_hasAttribute_of_lookup {s : AttributeSet} (hs : d.attributeCache.lookup n = some s)
    (fuel : Nat) (t : Attribute) :
    (hasAttribute (answer (fuel + 1)) n t).exec d = (.ok (s.contains t), d) := by
  have hcall : (answer (fuel + 1) (.effectiveAttributes n)).exec d = (.ok s, d) := by
    change (effectiveAttributes (answer fuel) n).exec d = _
    rw [effectiveAttributes, exec_get_bind, hs]
    rfl
  rw [hasAttribute, exec_bind, hcall]
  rfl

/-- Where attributes are remembered, an entry is recorded, if it is to be, and nothing else is
done. -/
theorem exec_addEntry_of_lookup {s : AttributeSet} (hs : d.attributeCache.lookup e.node = some s)
    (hloaded : d.database.isLoaded = true) (fuel : Nat) :
    (addEntry (answer (fuel + 1)) e).exec d =
      (.ok (), if (s.any [.private_, .false_, .internal]) = true then d else record d e) := by
  have hask := exec_hasAttribute_of_lookup hs fuel
  have hany : s.any [.private_, .false_, .internal] = (s.contains .private_ ||
      (s.contains .false_ || (s.contains .internal || false))) := rfl
  rw [hany, addEntry, exec_bind, hask]
  cases s.contains .private_ with
  | true => rfl
  | false =>
    dsimp only
    rw [if_neg Bool.false_ne_true, exec_bind, hask]
    cases s.contains .false_ with
    | true => rfl
    | false =>
      dsimp only
      rw [if_neg Bool.false_ne_true, exec_bind, hask]
      cases s.contains .internal with
      | true => rfl
      | false => exact exec_record hloaded e

/-- **The second run changes nothing.** -/
theorem exec_indexPackages_again (hc : c.arena.Consistent) (hm : c.arena.BareProgram m)
    (hloaded : c.database.isLoaded = true) (hordered : Database.Ordered c.database.packages)
    (hd : Recording c m (c.arena.entries m) d) (fuel : Nat) :
    (indexPackages (answer (fuel + 1)) m).exec d = (.ok (), d) := by
  have hrecorded : ∀ e ∈ c.arena.entries m, ∃ s, d.attributeCache.lookup e.node = some s ∧
      s.any [.private_, .false_, .internal] = !c.arena.isRecorded e.node := by
    intro e he
    obtain ⟨s, hs⟩ := hd.remembered e he
    have hinside := Arena.inside_of_mem_entries hc he
    have hfits := hd.settled.agrees e.node s hinside List.not_mem_nil hs _ (hm.effective hinside)
    refine ⟨s, hs, ?_⟩
    rw [Arena.isRecorded, Bool.not_not, AttributeSet.any, AttributeSet.any]
    simp only [List.any_cons, List.any_nil, hfits .private_ (by decide), hfits .false_ (by decide),
      hfits .internal (by decide)]
  have hall : ∀ es : List Arena.Entry, (∀ e ∈ es, e ∈ c.arena.entries m) → ∀ db : Database,
      db.isLoaded = true → (es.forM (addEntry (answer (fuel + 1)))).exec { d with database := db } =
        (.ok (), { d with database := db.putAll (c.arena.recordsOf es) }) := by
    intro es
    induction es with
    | nil => exact fun _ db _ => rfl
    | cons e es ih =>
      intro hes db hdb
      obtain ⟨hmem, hes⟩ := List.forall_mem_cons.1 hes
      obtain ⟨s, hs, hany⟩ := hrecorded e hmem
      have hentry := exec_addEntry_of_lookup (d := { d with database := db }) hs hdb fuel
      have hsplit : c.arena.recordsOf (e :: es)
          = c.arena.recordsOf [e] ++ c.arena.recordsOf es :=
        show c.arena.recordsOf ([e] ++ es) = _ from Arena.recordsOf_append
      change (addEntry (answer (fuel + 1)) e >>= fun _ =>
        es.forM (addEntry (answer (fuel + 1)))).exec _ = _
      rw [exec_bind, hentry, hany, hsplit, Database.putAll_append, Arena.recordsOf_singleton,
        ← recordOf_congr (hd.node e.node)]
      cases c.arena.isRecorded e.node with
      | true => exact ih hes _ hdb
      | false => exact ih hes db hdb
  have hsame : c.database.putAll (c.arena.recordsOf (c.arena.entries m)) = d.database :=
    hd.database.symm
  have hload : d.database.isLoaded = true := by
    rw [Database.isLoaded, hd.database, Database.loaded_putAll]
    exact hloaded
  have hsize : d.arena.size = c.arena.size := congrArg Array.size hd.settled.same.nodes
  have hrun := hall (c.arena.entries m) (fun _ => id) d.database hload
  rw [← hsame, Database.putAll_putAll hordered, hsame] at hrun
  rw [indexPackages, exec_arena_bind, Arena.entries_congr (funext hd.node) hsize]
  exact hrun

/-! ## Both runs -/

/-- **Indexing is exact, and once is enough.**  A run is sure to come to its end.  Where a package
of the program declares something that leaves a trace, the database has the last such declaration;
everything else in the database is as it was, and a package without a trace is not made.  A second
run changes nothing, neither in the database nor elsewhere. -/
theorem indexPackages_exact (c : Context) (m : NodeId) (hc : c.arena.Consistent)
    (hm : c.arena.BareProgram m) (hcache : c.attributeCache = [])
    (hloaded : c.database.isLoaded = true) (hordered : Database.Ordered c.database.packages) :
    ∃ d, (run (indexPackages · m)).exec c = (.ok (), d) ∧
      (∀ package name,
        (∃ e, c.arena.DeclaresLast m package name e ∧
          d.database.element? package name = some (c.arena.elementOf e)) ∨
        c.arena.DeclaresNone m package name ∧
          d.database.element? package name = c.database.element? package name) ∧
      (∀ package, (∀ name, c.arena.DeclaresNone m package name) →
        d.database.getPackage package = c.database.getPackage package) ∧
      (run (indexPackages · m)).exec d = (.ok (), d) := by
  have hfuel : c.arena.size < Search.fuel c := by
    rw [Search.fuel]
    omega
  obtain ⟨_, d, hrun, hd⟩ := answers_indexPackages_exact hc hm hcache hloaded hfuel
  refine ⟨d, hrun, fun package name => ?_, fun package hnone => ?_, ?_⟩
  · rw [hd.database, Database.element?_putAll]
    cases hlast : Database.last? (c.arena.recordsOf (c.arena.entries m)) package name with
    | some r =>
      obtain ⟨e, he, hr⟩ := Arena.declaresLast_of_last? hc hm hlast
      exact .inl ⟨e, he, congrArg some hr⟩
    | none => exact .inr ⟨Arena.declaresNone_of_last? hc hm hlast, rfl⟩
  · rw [hd.database, Database.getPackage_putAll fun r hr hpackage => ?_]
    obtain ⟨e, he, hrecorded, rfl⟩ := Arena.mem_recordsOf.1 hr
    have hinside := Arena.inside_of_mem_entries hc he
    exact hnone _ e ((Arena.mem_entries_iff hc hm.tree hm.program).1 he)
      ((hm.isRecorded_iff hinside).1 hrecorded) ⟨hpackage, rfl⟩
  · obtain ⟨fuel, hfuel⟩ : ∃ k, Search.fuel d = k + 1 :=
      Nat.exists_eq_succ_of_ne_zero (by rw [Search.fuel]; omega)
    rw [exec_run, hfuel]
    exact exec_indexPackages_again hc hm hloaded hordered hd fuel

/-! ### Two packages of one name -/

/-- The requests that make a program with two packages `P`.  The first one has a class `C`, a
private class `S` and a package `Q` with a variable `x`; the second one has a getter `C`. -/
def recordHistory : List Command :=
  [.create .program {}, .create .directiveList {},
   .create .package {}, .create .directiveList {}, .create .class_ {}, .create .class_ {},
   .create .package {}, .create .directiveList {}, .create .var {}, .create .variable_ {},
   .create .package {}, .create .directiveList {},
   .create .function { filename := "p.js", line := 7 },
   .setText ⟨2⟩ "P", .setText ⟨4⟩ "C", .setText ⟨5⟩ "S", .setText ⟨6⟩ "Q", .setText ⟨9⟩ "x",
   .setText ⟨10⟩ "P", .setText ⟨12⟩ "C", .setAttribute ⟨5⟩ .private_ true,
   .setFlag ⟨12⟩ .functionGetter true,
   .appendChild ⟨0⟩ ⟨1⟩, .appendChild ⟨1⟩ ⟨2⟩, .appendChild ⟨2⟩ ⟨3⟩, .appendChild ⟨3⟩ ⟨4⟩,
   .appendChild ⟨3⟩ ⟨5⟩, .appendChild ⟨3⟩ ⟨6⟩, .appendChild ⟨6⟩ ⟨7⟩, .appendChild ⟨7⟩ ⟨8⟩,
   .appendChild ⟨8⟩ ⟨9⟩, .appendChild ⟨1⟩ ⟨10⟩, .appendChild ⟨10⟩ ⟨11⟩, .appendChild ⟨11⟩ ⟨12⟩]

/-- The context of that program, with a database that was loaded and knows a private class. -/
def recordContext : Context :=
  { arena := after recordHistory, parser := fun _ => .rejected,
    database := { loaded := some ("db", true), packages := [("P", [("S", {})])] } }

theorem consistent_recordContext : recordContext.arena.Consistent :=
  .of_history recordHistory (by rw [recordContext])

theorem bareProgram_recordContext : recordContext.arena.BareProgram ⟨0⟩ where
  program := by decide +kernel
  tree h := by
    obtain ⟨p, hp, -⟩ := TransGen.head'_iff.1 h
    have hroot : recordContext.arena.parent ⟨0⟩ = none := by decide +kernel
    exact nomatch hroot.symm.trans hp
  bare n _ := by
    have hnode := Arena.forall_node (a := recordContext.arena)
      (P := fun d => d.attributeNode = none) (by decide +kernel) rfl n
    rw [Arena.attributeNode, hnode]
    rfl

/-- What is declared there, and which of it counts. -/
theorem entries_recordContext :
    (⟨"P", ⟨12⟩, "getter"⟩ : Arena.Entry) ∈ recordContext.arena.entries ⟨0⟩ ∧
    recordContext.arena.isRecorded ⟨12⟩ = true ∧ recordContext.arena.name ⟨12⟩ = "C" ∧
    (∀ e ∈ recordContext.arena.entries ⟨0⟩, e.package = "P" →
      recordContext.arena.name e.node = "C" → e = ⟨"P", ⟨12⟩, "getter"⟩ ∨
        ⟨"P", ⟨12⟩, "getter"⟩ ≠ e ∧ ¬ [⟨12⟩, e.node].Sublist (recordContext.arena.preorder ⟨0⟩)) ∧
    (∀ e ∈ recordContext.arena.entries ⟨0⟩, e.package = "P" →
      recordContext.arena.name e.node = "S" → recordContext.arena.isRecorded e.node = false) ∧
    recordContext.arena.elementOf ⟨"P", ⟨12⟩, "getter"⟩ =
      { type := "getter", filename := "p.js", line := 7 } := by
  decide +kernel

/-- After a run the name `C` in `P` leads to the getter, and what was known about the private class
is still there. -/
theorem indexPackages_recordContext : ∃ d,
    (run (indexPackages · ⟨0⟩)).exec recordContext = (.ok (), d) ∧
    d.database.element? "P" "C" = some { type := "getter", filename := "p.js", line := 7 } ∧
    d.database.element? "P" "S" = some {} ∧
    (run (indexPackages · ⟨0⟩)).exec d = (.ok (), d) := by
  have hordered : Database.Ordered recordContext.database.packages :=
    Database.Ordered.nil.insert "P" (List.pairwise_singleton _ _)
  have hm := bareProgram_recordContext
  have hdeclares : ∀ e, e ∈ recordContext.arena.entries ⟨0⟩ ↔ recordContext.arena.Declares ⟨0⟩ e :=
    fun e => Arena.mem_entries_iff consistent_recordContext hm.tree hm.program
  have hinside : ∀ e ∈ recordContext.arena.entries ⟨0⟩, recordContext.arena.Inside e.node ⟨0⟩ :=
    fun e he => Arena.inside_of_mem_entries consistent_recordContext he
  obtain ⟨hgetter, hrecorded, hname, hlast, hprivate, helement⟩ := entries_recordContext
  have htrace := (hm.isRecorded_iff (hinside _ hgetter)).1 hrecorded
  obtain ⟨d, hrun, helements, -, hagain⟩ := indexPackages_exact recordContext ⟨0⟩
    consistent_recordContext hm rfl rfl hordered
  refine ⟨d, hrun, ?_, ?_, hagain⟩
  · rcases helements "P" "C" with ⟨e, he, hd⟩ | ⟨hnone, -⟩
    · rcases hlast e ((hdeclares e).2 he.declares) he.inPackage he.named with rfl | ⟨hne, hbefore⟩
      · rw [hd, helement]
      · have hlater := he.last _ ((hdeclares _).1 hgetter) htrace rfl hname
        exact absurd (hlater.resolve_left hne) hbefore
    · exact absurd ⟨rfl, hname⟩ (hnone _ ((hdeclares _).1 hgetter) htrace)
  · rcases helements "P" "S" with ⟨e, he, -⟩ | ⟨-, hd⟩
    · have hmem := (hdeclares e).2 he.declares
      have hshown := (hm.isRecorded_iff (hinside e hmem)).2 he.recorded
      rw [hprivate e hmem he.inPackage he.named] at hshown
      cases hshown
    · exact hd

end Search

end SymbolTree
