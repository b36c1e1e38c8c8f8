import SymbolTree.Proofs.Arena.Deed
import SymbolTree.Proofs.Search.Imported.Index
import SymbolTree.Proofs.Search.Imported.Labels
import SymbolTree.Proofs.Search.Imported.Member

/-!
# What was indexed and what can be imported

Indexing and looking up are two walks through the same tree.  Indexing enters a package inside
another, under the names of both with a dot between them, and every package of a name; a lookup
compares the whole name with that of a package outside of other packages, and takes the first one.
So the database may name a declaration that no import can reach, and where it names a package inside
another the import does not only find nothing but ends the compilation.

## Main statements

* `Search.checkImport_indexed` — what an import gets of a declaration that was recorded.
* `Search.indexed_not_importable` — not everything that was recorded can be imported.
-/

set_option autoImplicit false
namespace SymbolTree

/-- An import that implements all of a package. -/
structure Arena.ImportsAll (a : Arena) (import_ : NodeId) (package : String) : Prop where
  /-- It is an import. -/
  kind : a.kind import_ = .import_
  /-- It implements. -/
  flag : (a.node import_).flags.contains .importImplements = true
  /-- It names the package. -/
  name : a.name import_ = package

namespace Search

variable {α : Type} {c d : Context} {m n p import_ : NodeId} {name file : String} {fuel : Nat}
  {mode : SearchMode} {b : Arena} {cache : List (NodeId × AttributeSet)}

/-! ## The name that is looked for -/

/-- A name is added. -/
theorem Kept.create (hb : Kept c m 0 b cache) (position : Position) (name : String) :
    Looking c m ⟨b.size⟩ name
      (b.push { kind := .identifier, position := position, text := name }).2 cache := by
  have heffect : Effect none b
      (b.push { kind := .identifier, position := position, text := name }).2 :=
    .create position name none (.inl rfl)
  have hnode : (b.push { kind := .identifier, position := position, text := name }).2.node ⟨b.size⟩
      = { kind := .identifier, position := position, text := name } := by
    rw [Arena.node_push, if_pos rfl]
  have hsize : b.size = c.arena.size := hb.size
  refine ⟨⟨?_, hb.grows.trans (.of_frame (heffect.frame hb.sound.consistent)),
    ⟨heffect.consistent hb.sound.consistent, heffect.housed hb.sound.housed⟩,
    fun x y hxy => hb.under x y (Arena.under_of_push rfl hxy), fun x hx => ?_, hb.remembered⟩,
    hsize, ?_, ?_, ?_, ?_, ?_⟩
  · rw [Arena.size_push, hsize]
  · have hlt := Arena.lt_size_of_kind_ne (a := c.arena) (n := x) (by rw [hx]; decide)
    rw [Arena.node_push, if_neg (by omega)]
    exact hb.imports x hx
  · rw [Arena.kind, hnode]
  · rw [Arena.name, Arena.kind, hnode]
    rfl
  · rw [Arena.modifying_eq_ok_iff, Arena.isAlive, hnode, Arena.lockCount_push]
    exact ⟨rfl, Arena.lockCount_of_size_le hb.sound.consistent (Nat.le_refl _)⟩
  · rw [Arena.parent, hnode]
  · rw [Arena.inst, Arena.link, hnode]
    rfl

/-- A name is created to be looked for. -/
theorem answers_createName {k : NodeId → Search α} {ψ : α → Context → Prop}
    (hd : Kept c m 0 d.arena d.attributeCache)
    (hk : ∀ id e, Looks c m id name e → e.arena.lockCount = d.arena.lockCount →
      Answers e (k id) ψ) :
    Answers d (do
      let id ← createReplacement n .identifier
      change fun a => a.setText id name
      k id) ψ := by
  have hempty := hd.create (d.arena.position n) ""
  have hset : (d.arena.push { kind := .identifier, position := d.arena.position n }).2.setText
      ⟨d.arena.size⟩ name = .ok (d.arena.push
        { kind := .identifier, position := d.arena.position n, text := name }).2 := by
    rw [Arena.setText_of_modifying (by rw [hempty.kind]; rfl) hempty.modifying]
    exact congrArg Except.ok (Arena.update_push d.arena
      { kind := .identifier, position := d.arena.position n } fun d => { d with text := name })
  have hcreate : Answers d (createReplacement n .identifier) fun id e =>
      id = ⟨d.arena.size⟩ ∧ e = { d with arena := (d.arena.push
        { kind := .identifier, position := d.arena.position n }).2 } := by
    refine ⟨_, _, ?_, rfl, rfl⟩
    rw [createReplacement, exec_checked]
    rfl
  refine hcreate.bind fun id e he => ?_
  rw [he.1, he.2]
  have hname : Answers
      { d with arena := (d.arena.push { kind := .identifier, position := d.arena.position n }).2 }
      (change fun a => a.setText ⟨d.arena.size⟩ name) fun _ e =>
        Looks c m ⟨d.arena.size⟩ name e ∧ e.arena.lockCount = d.arena.lockCount :=
    Answers.change hset ⟨hd.create _ name, funext (Arena.lockCount_push d.arena _)⟩
  exact hname.bind fun _ e he => hk _ e he.1 he.2

/-! ## One package -/

/-- A package is put on the list of packages to compile. -/
theorem answers_markReferenced {k : Nat} (h : c.HoldsModule m) (hp : c.arena.Inside p m)
    (hkp : c.arena.kind p = .package) (hd : Kept c m k d.arena d.attributeCache)
    (hunlocked : d.arena.lockCount = c.arena.lockCount) :
    Answers d (markReferenced p) fun _ _ => True := by
  have hlt := h.lt_size hp
  have hkpd : d.arena.kind p = .package := (hd.grows.kind hlt).trans hkp
  have hfree : d.arena.modifying p = .ok () := by
    rw [Arena.modifying_eq_ok_iff, hunlocked, Arena.isAlive, (hd.grows.node p hlt).alive]
    exact ⟨h.alive p hp, h.unlocked p⟩
  refine Answers.ask_bind (Arena.flag_of_accepts (by rw [hkpd]; rfl)) ?_
  split
  · exact Answers.pure trivial
  obtain ⟨b, hb⟩ := Arena.exists_setFlag (f := .packageReferenced) (by rw [hkpd]; rfl) hfree
  exact (Answers.change (φ := fun _ _ => True) hb trivial).bind fun _ _ _ => Answers.modify trivial

/-- An import gets what the package offers. -/
theorem answers_importMember (h : c.HoldsModule m) (hp : c.arena.Inside p m)
    (hkp : c.arena.kind p = .package) (hs : c.arena.Searchable name p)
    (hget : mode.getters = false) (hset : mode.setters = false)
    (hfuel : 2 * c.arena.size + 4 < fuel) (hd : Kept c m 0 d.arena d.attributeCache)
    (hunlocked : d.arena.lockCount = c.arena.lockCount) :
    Answers d (importMember (answer fuel) import_ p name none mode) fun x _ =>
      x = c.arena.imported? name p := by
  refine answers_createName hd fun id d hd hlocks => ?_
  have hunlocked := hlocks.trans hunlocked
  refine ((answers_findOffered h hp hkp hs hget hset hfuel hd).follow
    (follows_findField (faithful_answer fuel) p id 0 mode) hd.sound.consistent).bind
      fun x d hd => ?_
  obtain ⟨⟨hd, rfl⟩, hcourse⟩ := hd
  have hunlocked := hcourse.lockCount.trans hunlocked
  cases hx : c.arena.imported? name p with
  | none => exact Answers.pure rfl
  | some x =>
    obtain ⟨-, hinside, hopen⟩ := Arena.of_imported? h.sound.consistent hx
    have hx := hinside.trans hp
    have hfalse : ∀ t ∈ [Attribute.private_, .protected_, .internal],
        (c.arena.effective x).contains t = false := by
      rw [Arena.isOpen, Bool.not_eq_true', AttributeSet.any, List.any_eq_false] at hopen
      exact fun t ht => Bool.eq_false_iff.2 (hopen t ht)
    refine Answers.bind (φ := fun r e => r = some x ∧ e = d) (Answers.pure ⟨rfl, rfl⟩)
      fun r e he => ?_
    obtain ⟨rfl, rfl⟩ := he
    refine (hd.answers_hasAttribute h hx (by decide) (by omega)).bind fun r d hd => ?_
    obtain ⟨⟨hd, -, hlocks⟩, rfl⟩ := hd
    have hunlocked := hlocks.trans hunlocked
    rw [hfalse .private_ (by decide), if_neg Bool.false_ne_true]
    refine (hd.answers_hasAttribute h hx (by decide) (by omega)).bind fun r d hd => ?_
    obtain ⟨⟨hd, -, hlocks⟩, rfl⟩ := hd
    rw [hfalse .internal (by decide), if_neg Bool.false_ne_true]
    exact (answers_markReferenced h hp hkp hd (hlocks.trans hunlocked)).bind fun _ _ _ =>
      Answers.pure rfl

/-- The package that an import names has to be in the module to which it is led. -/
theorem exec_findPackageItem_missing (h : c.HoldsModule m) (hmust : mode.packageMustExist = true)
    (hd : Kept c m 0 d.arena d.attributeCache) (call : Call)
    (hnone : c.arena.findPackage m (d.arena.name import_) = none) :
    ((findPackageItem call m import_ name none mode).exec d).1 =
      .error (.failed (.packageMustExist (d.arena.name import_))) := by
  rw [← hd.findPackage h] at hnone
  rw [findPackageItem, exec_nameOf_bind, exec_arena_bind, hnone]
  dsimp only
  rw [if_pos hmust, exec_bind]
  rfl

/-- A module is searched for the package that an import names, and the package for the name. -/
theorem answers_findPackageItem (h : c.HoldsModule m) (hget : mode.getters = false)
    (hset : mode.setters = false) (hfuel : 2 * c.arena.size + 4 < fuel)
    (hd : Kept c m 0 d.arena d.attributeCache)
    (hunlocked : d.arena.lockCount = c.arena.lockCount) (hlabels : ∀ n, c.arena.Inside n m →
      (d.arena.node n).labels = (c.arena.node n).labels)
    (hfound : c.arena.findPackage m (d.arena.name import_) = some p)
    (hs : c.arena.Searchable name p) :
    Answers d (findPackageItem (answer fuel) m import_ name none mode) fun x _ =>
      x = c.arena.imported? name p := by
  obtain ⟨hkp, -, hp⟩ := Arena.of_findPackage h.sound.consistent hfound
  have hlt := h.lt_size hp
  rw [← hd.findPackage h] at hfound
  refine Answers.nameOf_bind (Answers.arena_bind ?_)
  rw [hfound]
  dsimp only
  rw [hd.grows.children hlt]
  cases hbody : (c.arena.children p).head? with
  | none =>
    refine Answers.pure ?_
    rw [Arena.imported?, Arena.body, List.head?_eq_none_iff.1 hbody]
    rfl
  | some body =>
    have hfree : d.arena.modifying p = .ok () := by
      rw [Arena.modifying_eq_ok_iff, hunlocked, Arena.isAlive, (hd.grows.node p hlt).alive]
      exact ⟨h.alive p hp, h.unlocked p⟩
    have hlabelled : Labelled c m p d := ⟨hd, fun l hl => h.registered p hp l (hlabels p hp ▸ hl)⟩
    refine ((answers_registerLabels h hp hkp (List.mem_of_head? hbody) hlabelled hfree).follow
      (follows_registerLabels p body) hd.sound.consistent).bind fun _ d hd => ?_
    exact answers_importMember h hp hkp hs hget hset hfuel hd.1.kept
      (hd.2.lockCount.trans hunlocked)

/-- Where no program is compiled, an import is led to the module that the database names. -/
theorem exec_checkImport (hk : d.arena.kind import_ = .import_)
    (hflag : (d.arena.node import_).flags.contains .importImplements = true)
    (hprogram : d.program = none) {e : String × Element}
    (hfind : d.database.findElement (d.arena.name import_) name none = some e)
    (hcached : d.modules.lookup e.2.filename = some m) (call : Call) (params : Option NodeId)
    (mode : SearchMode) : (checkImport call import_ name params mode).exec d =
      (findPackageItem call m import_ name params
        { mode with packageMustExist := true }).exec d := by
  have hask : (ask fun a => a.flag import_ .importImplements).exec d = (.ok true, d) := by
    rw [exec_ask, Arena.flag_of_accepts (by rw [hk]; rfl), hflag]
  have hmodule : (findModule e.2.filename).exec d = (.ok m, d) := by
    rw [findModule, exec_get_bind, hcached]
    rfl
  have hexternal : (findExternalPackage import_ name).exec d = (.ok (some m), d) := by
    rw [findExternalPackage, exec_nameOf_bind, exec_get_bind, hfind]
    dsimp only
    rw [map_eq_pure_bind, exec_bind, hmodule]
    rfl
  rw [checkImport, exec_bind, hask]
  dsimp only
  rw [Bool.not_true, if_neg Bool.false_ne_true, exec_get_bind, hprogram]
  rw [pure_bind]
  dsimp only
  rw [exec_bind, hexternal]

/-! ## What was indexed -/

/-- **What an import gets of what was indexed.**  Indexing a module is sure to come to its end.  A
declaration that it records is looked for in the first package of the recorded name that the module
has outside of other packages.  If there is none, the import fails; otherwise it gets what that
package offers under the name.  So it gets a declaration of the name for sure when the entry was
recorded for that very package and is open to all. -/
theorem checkImport_indexed (c : Context) (m : NodeId) (file : String) (h : c.Indexable m file)
    (hprogram : c.program = none) : ∃ d, (run (indexPackages · m)).exec c = (.ok (), d) ∧
      ∀ e ∈ c.arena.entries m, c.arena.isRecorded e.node = true →
      ∀ import_, c.arena.ImportsAll import_ e.package →
        (c.arena.findPackage m e.package = none →
          ((run (checkImport · import_ (c.arena.name e.node) none {})).exec d).1 =
            .error (.failed (.packageMustExist e.package))) ∧
        ∀ p, c.arena.findPackage m e.package = some p →
          c.arena.Searchable (c.arena.name e.node) p →
          ((run (checkImport · import_ (c.arena.name e.node) none {})).exec d).1 =
            .ok (c.arena.imported? (c.arena.name e.node) p) ∧
          (c.arena.Publishes p e → ∃ x, c.arena.imported? (c.arena.name e.node) p = some x ∧
            c.arena.name x = c.arena.name e.node ∧ c.arena.Inside x m) := by
  have hfuel : c.arena.size + 1 < Search.fuel c := by
    rw [Search.fuel]
    omega
  obtain ⟨_, d, hrun, hd⟩ := answers_indexPackages h hfuel
  refine ⟨d, hrun, fun e he hrecorded import_ himport => ?_⟩
  have hnodes : d.arena.nodes = c.arena.nodes := hd.same.nodes
  have halike : c.arena.Alike d.arena := .of_nodes hnodes
  have hname : d.arena.name import_ = e.package := (congrFun halike.name import_).trans himport.name
  have hnode : ∀ n, d.arena.node n = c.arena.node n := fun n => by
    rw [Arena.node, Arena.node, hnodes]
  obtain ⟨x, hx, hfile⟩ := Database.findElement_of_records hd.from_ (hd.records e he hrecorded)
  have hexec : (run (checkImport · import_ (c.arena.name e.node) none {})).exec d =
      (findPackageItem (answer (Search.fuel d)) m import_ (c.arena.name e.node) none
        { packageMustExist := true }).exec d := by
    rw [exec_run]
    refine exec_checkImport ((congrFun halike.kind import_).trans himport.kind) ?_ ?_
      (hname ▸ hx) ?_ _ none {}
    · rw [hnode]
      exact himport.flag
    · exact (congrArg (·.program) hd.same.eq).trans hprogram
    · rw [hfile]
      exact (congrArg (fun d : Context => d.modules.lookup file) hd.same.eq).trans h.cached
  have hfuel' : 2 * c.arena.size + 4 < Search.fuel d := by
    rw [Search.fuel, hd.kept.size]
    omega
  rw [hexec]
  refine ⟨fun hnone => ?_, fun p hp hs => ⟨?_, fun hpublishes => ?_⟩⟩
  · rw [← hname] at hnone ⊢
    exact exec_findPackageItem_missing h.toHoldsModule rfl hd.kept _ hnone
  · have hitem : Answers d (findPackageItem (answer (Search.fuel d)) m import_
        (c.arena.name e.node) none { packageMustExist := true }) fun x _ =>
          x = c.arena.imported? (c.arena.name e.node) p :=
      answers_findPackageItem h.toHoldsModule rfl rfl hfuel' hd.kept hd.unlocked
        (fun n _ => by rw [hnode]) (hname ▸ hp) hs
    obtain ⟨x, _, hr, rfl⟩ := hitem
    exact congrArg Prod.fst hr
  · obtain ⟨-, htext, hinside⟩ := Arena.of_findPackage h.sound.consistent hp
    obtain ⟨x, hx⟩ := hpublishes.exists_imported? hs.lists htext
    obtain ⟨hxname, hxp, -⟩ := Arena.of_imported? h.sound.consistent hx
    exact ⟨x, hx, hxname, hxp.trans hinside⟩

/-! ### A package inside another, and one that is declared twice -/

/-- Where a node of the module stands. -/
def importPosition : Position := { filename := "m.js" }

/-- The requests that make a program with a package `A`, in which there is a package `B` with a
class `C`, and with two packages `P`: one with a class `C` and a variable `x`, the other with a
class `D`.  Two imports are for the packages `A.B` and `P`. -/
def importHistory : List Command :=
  [.create .program importPosition, .create .directiveList importPosition,
   .create .package importPosition, .create .directiveList importPosition,
   .create .package importPosition, .create .directiveList importPosition,
   .create .class_ importPosition,
   .create .package importPosition, .create .directiveList importPosition,
   .create .class_ importPosition, .create .var importPosition, .create .variable_ importPosition,
   .create .package importPosition, .create .directiveList importPosition,
   .create .class_ importPosition, .create .import_ {}, .create .import_ {},
   .setText ⟨2⟩ "A", .setText ⟨4⟩ "B", .setText ⟨6⟩ "C", .setText ⟨7⟩ "P", .setText ⟨9⟩ "C",
   .setText ⟨11⟩ "x", .setText ⟨12⟩ "P", .setText ⟨14⟩ "D", .setText ⟨15⟩ "A.B", .setText ⟨16⟩ "P",
   .setFlag ⟨15⟩ .importImplements true, .setFlag ⟨16⟩ .importImplements true,
   .appendChild ⟨0⟩ ⟨1⟩,
   .appendChild ⟨1⟩ ⟨2⟩, .appendChild ⟨2⟩ ⟨3⟩, .appendChild ⟨3⟩ ⟨4⟩, .appendChild ⟨4⟩ ⟨5⟩,
   .appendChild ⟨5⟩ ⟨6⟩,
   .appendChild ⟨1⟩ ⟨7⟩, .appendChild ⟨7⟩ ⟨8⟩, .appendChild ⟨8⟩ ⟨9⟩, .appendChild ⟨8⟩ ⟨10⟩,
   .appendChild ⟨10⟩ ⟨11⟩,
   .appendChild ⟨1⟩ ⟨12⟩, .appendChild ⟨12⟩ ⟨13⟩, .appendChild ⟨13⟩ ⟨14⟩]

/-- The context of that program, after it was loaded, with an empty database. -/
def importContext : Context :=
  { arena := after importHistory, parser := fun _ => .rejected,
    database := { loaded := some ("db", true) }, modules := [("m.js", ⟨0⟩)] }

theorem consistent_importContext : importContext.arena.Consistent :=
  .of_history importHistory (by rw [importContext])

theorem indexable_importContext : importContext.Indexable ⟨0⟩ "m.js" := by
  have hnode := Arena.forall_node (a := importContext.arena)
    (P := fun d => d.attributeNode = none ∧ d.labels = [] ∧ d.kind ≠ .label) (by decide +kernel)
    (by decide)
  have hall : ∀ i < importContext.arena.size, importContext.arena.isAlive ⟨i⟩ = true ∧
      ((importContext.arena.kind ⟨i⟩ ≠ .import_ →
        (importContext.arena.position ⟨i⟩).filename = "m.js") ∧
      ∀ p ∈ importContext.arena.parent ⟨i⟩, p.index < i ∧
        importContext.arena.kind ⟨i⟩ ≠ .import_) := by
    decide +kernel
  have hinside : ∀ n, importContext.arena.Inside n ⟨0⟩ → n.index < importContext.arena.size ∧
      importContext.arena.kind n ≠ .import_ := by
    intro n hn
    rcases Relation.ReflTransGen.cases_head hn with rfl | ⟨p, hp, -⟩
    · decide +kernel
    · have hlt := Arena.lt_size_of_parent hp
      exact ⟨hlt, ((hall n.index hlt).2.2 p hp).2⟩
  have hunlisted : ∀ n, importContext.arena.attributeNode n = none := fun n => by
    rw [Arena.attributeNode, (hnode n).1]
    rfl
  exact {
    sound := ⟨consistent_importContext, fun n l hl => by rw [(hnode n).1] at hl; cases hl⟩
    forest := Arena.forest_of_lt fun n p hp =>
      ((hall n.index (Arena.lt_size_of_parent hp)).2.2 p hp).1
    program := by decide +kernel
    alive := fun n hn => (hall n.index (hinside n hn).1).1
    unlocked := Arena.lockCount_eq_zero (by decide +kernel)
    legible := fun n _ e he => by
      rw [Arena.attributeEntries, hunlisted] at he
      cases he
    remembered := fun n s _ hs => by cases hs
    labelled := fun n _ hk => absurd hk (hnode n).2.2
    registered := fun n _ l hl => by
      rw [(hnode n).2.1] at hl
      cases hl
    filed := fun n hn => (hall n.index (hinside n hn).1).2.1 (hinside n hn).2
    loaded := rfl
    empty := rfl
    cached := rfl }

theorem importsAll_importContext : importContext.arena.ImportsAll ⟨15⟩ "A.B" ∧
    importContext.arena.ImportsAll ⟨16⟩ "P" := by
  have hnodes : (importContext.arena.kind ⟨15⟩ = .import_ ∧
      (importContext.arena.node ⟨15⟩).flags.contains .importImplements = true ∧
      importContext.arena.name ⟨15⟩ = "A.B") ∧ importContext.arena.kind ⟨16⟩ = .import_ ∧
      (importContext.arena.node ⟨16⟩).flags.contains .importImplements = true ∧
      importContext.arena.name ⟨16⟩ = "P" := by
    decide +kernel
  obtain ⟨⟨hk, hflag, hname⟩, hk', hflag', hname'⟩ := hnodes
  exact ⟨⟨hk, hflag, hname⟩, ⟨hk', hflag', hname'⟩⟩

/-- The first package `P` publishes its variable, and an import can look for it there. -/
theorem publishes_importContext :
    importContext.arena.Publishes ⟨7⟩ ⟨"P", ⟨11⟩, "variable"⟩ ∧
    importContext.arena.Searchable "x" ⟨7⟩ ∧ importContext.arena.name ⟨11⟩ = "x" ∧
    importContext.arena.findPackage ⟨0⟩ "P" = some ⟨7⟩ ∧
    importContext.arena.isRecorded ⟨11⟩ = true ∧
    (⟨"P", ⟨11⟩, "variable"⟩ : Arena.Entry) ∈ importContext.arena.entries ⟨0⟩ := by
  have hfirst : importContext.arena.ComesFirst ⟨11⟩ := by
    intro n _ hn
    rw [consistent_importContext.mem_children] at hn
    obtain rfl : ⟨10⟩ = n := Option.some.inj
      ((by decide +kernel : importContext.arena.parent ⟨11⟩ = some ⟨10⟩).symm.trans hn)
    decide +kernel
  have hlists : ∀ n ∈ importContext.arena.children ⟨7⟩,
      importContext.arena.kind n = .directiveList := by
    decide +kernel
  have hbody : ∀ n ∈ importContext.arena.body ⟨7⟩,
      importContext.arena.contests "x" n = false := by
    decide +kernel
  have hvariable : (⟨"P", ⟨11⟩, "variable"⟩ : Arena.Entry) ∈ importContext.arena.entriesOf ⟨7⟩ ∧
      importContext.arena.kind ⟨11⟩ = .variable_ ∧ importContext.arena.isOpen ⟨11⟩ = true := by
    decide +kernel
  refine ⟨⟨hvariable.1, .inr hvariable.2.1, hfirst, hvariable.2.2⟩, ⟨hlists, hbody⟩, ?_⟩
  decide +kernel

/-- The variable of the first package `P` can be imported. -/
theorem checkImport_indexed_variable : ∃ d x,
    (run (indexPackages · ⟨0⟩)).exec importContext = (.ok (), d) ∧
    ((run (checkImport · ⟨16⟩ "x" none {})).exec d).1 = .ok (some x) ∧
    importContext.arena.name x = "x" ∧ importContext.arena.Inside x ⟨0⟩ := by
  obtain ⟨hpublishes, hsearchable, hname, hpackage, hrecorded, hentry⟩ := publishes_importContext
  obtain ⟨d, hrun, hindexed⟩ := checkImport_indexed importContext ⟨0⟩ "m.js"
    indexable_importContext rfl
  obtain ⟨hx, hpublished⟩ := (hindexed _ hentry hrecorded ⟨16⟩ importsAll_importContext.2).2 ⟨7⟩
    hpackage (hname ▸ hsearchable)
  obtain ⟨x, himported, hxname, hinside⟩ := hpublished hpublishes
  refine ⟨d, x, hrun, ?_, hxname.trans hname, hinside⟩
  rw [← himported]
  exact hname ▸ hx

/-- The class in the package inside another is recorded, and the import of it fails; the class of
the second package of a name is recorded, and the import of it finds nothing. -/
theorem checkImport_importContext :
    let d := ((run (indexPackages · ⟨0⟩)).exec importContext).2
    (run (indexPackages · ⟨0⟩)).exec importContext = (.ok (), d) ∧
    ((⟨"A.B", ⟨6⟩, "class"⟩ : Arena.Entry) ∈ importContext.arena.entries ⟨0⟩ ∧
      importContext.arena.kind ⟨6⟩ = .class_ ∧ importContext.arena.isRecorded ⟨6⟩ = true ∧
      importContext.arena.isOpen ⟨6⟩ = true ∧ importContext.arena.name ⟨6⟩ = "C" ∧
      ((run (checkImport · ⟨15⟩ "C" none {})).exec d).1 =
        .error (.failed (.packageMustExist "A.B"))) ∧
    (⟨"P", ⟨14⟩, "class"⟩ : Arena.Entry) ∈ importContext.arena.entries ⟨0⟩ ∧
      importContext.arena.kind ⟨14⟩ = .class_ ∧ importContext.arena.isRecorded ⟨14⟩ = true ∧
      importContext.arena.isOpen ⟨14⟩ = true ∧ importContext.arena.name ⟨14⟩ = "D" ∧
      ((run (checkImport · ⟨16⟩ "D" none {})).exec d).1 = .ok none := by
  refine ⟨exec_of_toOption (by decide +kernel), ?_⟩
  decide +kernel

/-- Not everything that was indexed can be imported. -/
theorem indexed_not_importable : ¬ ∀ (c : Context) (m : NodeId) (file : String),
    c.Indexable m file → c.program = none →
    ∀ d, (run (indexPackages · m)).exec c = (.ok (), d) →
    ∀ e ∈ c.arena.entries m, (c.arena.kind e.node = .class_ ∨ c.arena.kind e.node = .variable_) →
    c.arena.isRecorded e.node = true → c.arena.isOpen e.node = true →
    ∀ import_, c.arena.ImportsAll import_ e.package →
    ∃ x, ((run (checkImport · import_ (c.arena.name e.node) none {})).exec d).1 = .ok (some x) ∧
      c.arena.name x = c.arena.name e.node ∧ c.arena.Inside x m := by
  intro h
  obtain ⟨hrun, ⟨hentry, hk, hrecorded, hopen, hname, hfails⟩, -⟩ := checkImport_importContext
  obtain ⟨x, hx, -⟩ := h importContext ⟨0⟩ "m.js" indexable_importContext rfl _ hrun _ hentry
    (.inl hk) hrecorded hopen ⟨15⟩ importsAll_importContext.1
  rw [hname, hfails] at hx
  cases hx

end Search

end SymbolTree
