import SymbolTree.Proofs.Search.Imported.Kept

/-!
# A name that is looked for in a package

An import looks for a name in a package through a node that it has just created, and that stands
nowhere.  From nowhere only declarations that are open to all are seen, so that the search gives
what the package offers (`Arena.imported?`), unless it meets something of the name that is not a
class, an interface or a variable.

## Main statements

* `Search.answers_rejection_nowhere` — from nowhere a declaration is rejected unless it is open.
* `Search.answers_findOffered` — the whole search.
-/

set_option autoImplicit false
namespace SymbolTree

/-- A package in which an import can look for a name. -/
structure Arena.Searchable (a : Arena) (name : String) (p : NodeId) : Prop where
  /-- It has nothing but lists of directives. -/
  lists : ∀ n ∈ a.children p, a.kind n = .directiveList
  /-- Under the name it declares classes, interfaces and variables only. -/
  uncontested : ∀ n ∈ a.body p, a.contests name n = false

namespace Search

/-- The name `id`, which stands nowhere, is looked for in a module. -/
structure Looking (c : Context) (m id : NodeId) (name : String) (b : Arena)
    (cache : List (NodeId × AttributeSet)) : Prop extends Kept c m 1 b cache where
  /-- The name was not there before. -/
  fresh : id.index = c.arena.size
  /-- It is a name. -/
  kind : b.kind id = .identifier
  /-- It is this one. -/
  name : b.name id = name
  /-- It can be changed. -/
  modifying : b.modifying id = .ok ()
  /-- It stands nowhere. -/
  parent : b.parent id = none
  /-- It is not linked. -/
  inst : b.inst id = none

variable {c d : Context} {m id n p x : NodeId} {name : String} {fuel : Nat} {mode : SearchMode}
  {b : Arena} {cache : List (NodeId × AttributeSet)}

namespace Looking

theorem ne_of_lt (hb : Looking c m id name b cache) (hn : n.index < c.arena.size) : id ≠ n := by
  rintro rfl
  exact Nat.ne_of_lt hn hb.fresh

theorem kind_ne_import (hb : Looking c m id name b cache) : c.arena.kind id ≠ .import_ := by
  rw [Arena.kind, Arena.node_of_size_le hb.fresh.ge]
  decide

/-- What happens to other nodes does not matter to the name. -/
theorem of_node (hb : Looking c m id name b cache) {b' : Arena}
    {cache' : List (NodeId × AttributeSet)} (h : Kept c m 1 b' cache')
    (hnode : b'.node id = b.node id) (hlocks : b'.lockCount id = b.lockCount id)
    (hlive : b'.live = b.live) : Looking c m id name b' cache' where
  toKept := h
  fresh := hb.fresh
  kind := (congrArg Node.kind hnode).trans hb.kind
  name := by rw [Arena.name, Arena.kind, hnode]; exact hb.name
  modifying := by
    rw [Arena.modifying_eq_ok_iff, Arena.isAlive, hnode, hlocks]
    exact Arena.modifying_eq_ok_iff.1 hb.modifying
  parent := (congrArg Node.parent hnode).trans hb.parent
  inst := by rw [Arena.inst, Arena.link, hnode, hlive]; exact hb.inst

theorem of_nodes (hb : Looking c m id name b cache) {b' : Arena}
    {cache' : List (NodeId × AttributeSet)} (h : Kept c m 1 b' cache')
    (hn : b'.nodes = b.nodes) (hlocks : b'.lockCount id = b.lockCount id) :
    Looking c m id name b' cache' :=
  hb.of_node h (by rw [Arena.node, Arena.node, hn]) hlocks (Arena.Alike.of_nodes hn).live

theorem lock (hb : Looking c m id name b cache) (hn : n.index < c.arena.size) :
    Looking c m id name (b.lock n) cache :=
  hb.of_nodes (hb.toKept.lock n) rfl (by
    rw [Arena.lockCount_lock, if_neg fun h => hb.ne_of_lt hn h.1])

theorem drop (hb : Looking c m id name b cache) (hn : n.index < c.arena.size) :
    Looking c m id name (Guard.drop ⟨some n⟩ b) cache :=
  hb.of_nodes (hb.toKept.drop _) (Arena.nodes_drop _ b) (by
    rw [Arena.lockCount_drop, if_neg (hb.ne_of_lt hn)])

/-- A class is marked as a type. -/
theorem setType (hb : Looking c m id name b cache) (hn : n.index < c.arena.size)
    (hk : c.arena.kind n ≠ .import_) (t : Option NodeId) :
    Looking c m id name (b.setLink n .typeNode t) cache := by
  have halike : b.Alike (b.setLink n .typeNode t) :=
    .update fun _ => ⟨rfl, rfl, rfl, rfl, rfl, rfl, rfl⟩
  refine hb.of_node (hb.toKept.setLink (.inr rfl) t hk) ?_ rfl halike.live
  rw [Arena.setLink, Arena.node_update, if_neg fun h => hb.ne_of_lt hn h.1]

/-- The name is marked as one that was looked for. -/
theorem setTyped (hb : Looking c m id name b cache) :
    ∃ b', b.setFlag id .identifierTyped true = .ok b' ∧ Looking c m id name b' cache := by
  obtain ⟨b', hset⟩ := Arena.exists_setFlag (f := .identifierTyped) (by rw [hb.kind]; rfl)
    hb.modifying
  have hkept := hb.toKept.setFlag hset hb.kind_ne_import
  refine ⟨b', hset, ?_⟩
  obtain ⟨-, -, rfl⟩ := Arena.setFlag_eq_ok_iff.1 hset
  have halike : b.Alike _ :=
    .update (n := id) (f := fun d => { d with flags := d.flags.set .identifierTyped true })
      fun _ => ⟨rfl, rfl, rfl, rfl, rfl, rfl, rfl⟩
  refine ⟨hkept, hb.fresh, (congrFun halike.kind id).trans hb.kind,
    (congrFun halike.name id).trans hb.name, ?_, (congrFun halike.parent id).trans hb.parent, ?_⟩
  · rw [Arena.modifying_eq_ok_iff, halike.isAlive]
    exact Arena.modifying_eq_ok_iff.1 hb.modifying
  · rw [Arena.inst, Arena.link, halike.live, Arena.field_update (·.link .inst) rfl]
    exact hb.inst

/-- Working out an attribute changes nothing of this. -/
theorem answers_hasAttribute {t : Attribute} (h : c.HoldsModule m)
    (hd : Looking c m id name d.arena d.attributeCache) (hn : c.arena.Inside n m) (ht : t ≠ .type)
    (hfuel : c.arena.size + 2 < fuel) :
    Answers d (hasAttribute (answer fuel) n t) fun r e =>
      Looking c m id name e.arena e.attributeCache ∧ r = (c.arena.effective n).contains t := by
  refine (hd.toKept.answers_hasAttribute h hn ht hfuel).mono fun r e he => ?_
  obtain ⟨⟨hkept, hsame, hlocks⟩, hr⟩ := he
  exact ⟨hd.of_nodes hkept hsame.nodes (congrFun hlocks id), hr⟩

end Looking

/-- The context in which `id` is looked for. -/
abbrev Looks (c : Context) (m id : NodeId) (name : String) (d : Context) : Prop :=
  Looking c m id name d.arena d.attributeCache

/-! ## Who may see what from nowhere -/

namespace Looking

variable (hb : Looking c m id name b cache)
include hb

theorem ancestors : b.ancestors id = [] := Arena.ancestorsFrom_of_root hb.parent _

theorem findAncestor (ks : List Kind) : b.findAncestor id ks = none := by
  rw [Arena.findAncestor, hb.ancestors]
  rfl

theorem classOfMember : b.classOfMember id = none := by
  rw [Arena.classOfMember, hb.ancestors, List.find?_cons, hb.kind]
  rfl

theorem privateRejection (x : NodeId) : ∃ r, privateRejection b id x = some r := by
  rw [Search.privateRejection, hb.findAncestor, hb.classOfMember]
  split
  · exact ⟨_, rfl⟩
  · split
    · exact ⟨_, if_neg nofun⟩
    · split
      · exact ⟨_, if_neg nofun⟩
      · exact ⟨_, rfl⟩

end Looking

theorem answers_protectedRejection_nowhere (hd : Looks c m id name d) (call : Call) (x : NodeId) :
    Answers d (protectedRejection call id x) fun r e => Looks c m id name e ∧ r.isNone = false := by
  have hmember : Answers d (isMemberDerivedFrom call id x) fun r e =>
      Looks c m id name e ∧ r.1 = false := by
    refine Answers.arena_bind ?_
    rw [hd.classOfMember]
    dsimp only
    split
    · next hnone => cases hnone
    · exact Answers.pure ⟨hd, rfl⟩
  refine hmember.bind fun r d hd => ?_
  obtain ⟨hd, hr⟩ := hd
  dsimp only
  rw [hr, if_neg Bool.false_ne_true]
  refine Answers.arena_bind ?_
  split
  · exact Answers.pure ⟨hd, rfl⟩
  · exact Answers.pure ⟨hd, rfl⟩

/-- From nowhere a declaration is rejected unless it is open to all. -/
theorem answers_rejection_nowhere (h : c.HoldsModule m) (hd : Looks c m id name d)
    (hx : c.arena.Inside x m) (hfuel : c.arena.size + 2 < fuel) :
    Answers d (rejection (answer fuel) id x) fun r e =>
      Looks c m id name e ∧ r.isNone = c.arena.isOpen x := by
  have hopen : c.arena.isOpen x = !((c.arena.effective x).contains .private_ ||
      ((c.arena.effective x).contains .protected_ ||
        ((c.arena.effective x).contains .internal || false))) := rfl
  rw [hopen]
  refine (hd.answers_hasAttribute h hx (by decide) hfuel).bind fun r d hd => ?_
  obtain ⟨hd, rfl⟩ := hd
  cases (c.arena.effective x).contains .private_ with
  | true =>
    refine Answers.arena_bind ?_
    obtain ⟨r, hr⟩ := hd.privateRejection x
    rw [hr]
    exact Answers.pure ⟨hd, rfl⟩
  | false =>
    refine (hd.answers_hasAttribute h hx (by decide) hfuel).bind fun r d hd => ?_
    obtain ⟨hd, rfl⟩ := hd
    cases (c.arena.effective x).contains .protected_ with
    | true =>
      refine (answers_protectedRejection_nowhere hd _ x).bind fun r d hd => ?_
      obtain ⟨hd, hr⟩ := hd
      cases r with
      | none => cases hr
      | some r => exact Answers.pure ⟨hd, rfl⟩
    | false =>
      refine (hd.answers_hasAttribute h hx (by decide) hfuel).bind fun r d hd => ?_
      obtain ⟨hd, rfl⟩ := hd
      cases (c.arena.effective x).contains .internal with
      | true =>
        refine Answers.arena_bind ?_
        rw [hd.findAncestor]
        exact Answers.pure ⟨hd, rfl⟩
      | false => exact Answers.pure ⟨hd, rfl⟩

/-! ## What a directive has -/

/-- A variable is found as it was. -/
theorem Kept.findVariable {k : Nat} (hb : Kept c m k b cache) (h : c.HoldsModule m)
    (hn : n.index < c.arena.size) : findVariable b n = findVariable c.arena n := by
  funext name
  rw [Search.findVariable, Search.findVariable, hb.grows.children hn]
  refine List.find?_congr fun v hv => ?_
  have hlt := h.sound.consistent.child_lt n v hv
  rw [hb.grows.kind hlt, hb.textIs hlt]

/-- A function of another name is not what is looked for. -/
theorem answers_otherFunction (h : c.HoldsModule m) (hn : c.arena.Inside n m)
    (hk : c.arena.kind n = .function) (htext : c.arena.textIs n name = false)
    (haround : ∃ o, c.arena.findAncestor n [.package, .program, .function, .interface, .class_] =
      some o ∧ c.arena.kind o = .package)
    (hget : mode.getters = false) (hset : mode.setters = false) (hfuel : c.arena.size + 2 < fuel)
    (hd : Looks c m id name d) :
    Answers d (do
      match ← isConstructor (answer fuel) n with
      | some c => return if (← arena).textIs c name then Candidate.guarded c else .none
      | none => return .ofOption (← checkFunction (answer fuel) n name none mode)) fun x e =>
        Looks c m id name e ∧ x = .none := by
  have hlt := h.lt_size hn
  have hconstructor : Answers d (isConstructor (answer fuel) n) fun r e =>
      Looks c m id name e ∧ r = none := by
    obtain ⟨o, ho, hko⟩ := haround
    have hoSize := Arena.lt_size_of_findAncestor h.sound.consistent ho
    refine Answers.arena_bind ?_
    rw [hd.grows.findAncestor h.sound.consistent ho, hd.grows.kind hlt, hk,
      Option.filter_some, hd.grows.kind hoSize, hko]
    refine (hd.answers_hasAttribute h hn (by decide) hfuel).bind fun r d hd => ?_
    split
    · refine (answers_error (P := Looks c m id name) (fun _ => hd.1) _ _ _).bind fun _ _ he =>
        Answers.pure ⟨he, rfl⟩
    · exact Answers.pure ⟨hd.1, rfl⟩
  have hcheck : ∀ {d}, Looks c m id name d →
      Answers d (checkFunction (answer fuel) n name none mode) fun r e =>
        Looks c m id name e ∧ r = none := by
    intro d hd
    refine (hd.answers_hasAttribute h hn (by decide) hfuel).bind fun r d hd => ?_
    obtain ⟨hd, -⟩ := hd
    have hkd : d.arena.kind n = .function := (hd.grows.kind hlt).trans hk
    split
    · exact Answers.pure ⟨hd, rfl⟩
    · refine Answers.ask_bind (Arena.flag_of_accepts (by rw [hkd]; rfl)) ?_
      refine Answers.ask_bind (Arena.flag_of_accepts (by rw [hkd]; rfl)) (Answers.arena_bind ?_)
      rw [hget, hset, Bool.and_false, Bool.and_false]
      dsimp only
      rw [hd.textIs hlt, if_neg Bool.false_ne_true, if_neg Bool.false_ne_true, htext]
      exact Answers.pure ⟨hd, rfl⟩
  refine hconstructor.bind fun r d hd => ?_
  rw [hd.2]
  refine (hcheck hd.1).bind fun r d hd => ?_
  rw [hd.2]
  exact Answers.pure ⟨hd.1, rfl⟩

/-- A class of the name is marked as a type before it is asked who may see it. -/
theorem answers_candidateClass (h : c.HoldsModule m) (hn : c.arena.Inside n m)
    (hk : (c.arena.kind n).isClass = true) (hd : Looks c m id name d) :
    Answers d (do
      let a ← arena
      if a.textIs n name then
        if (a.typeNode n).isNone then
          write fun a => a.setLink n .typeNode (some n)
        change fun a => a.setFlag id .identifierTyped true
        return Candidate.guarded n
      else return .none) fun x e =>
        Looks c m id name e ∧
          x = .ofOption (if c.arena.textIs n name then some n else none) := by
  have hlt := h.lt_size hn
  have hmark : ∀ {d}, Looks c m id name d → Answers d (do
      change fun a => a.setFlag id .identifierTyped true
      return Candidate.guarded n) fun x e => Looks c m id name e ∧ x = .guarded n := by
    intro d hd
    obtain ⟨b, hb, hlooking⟩ := hd.setTyped
    exact (Answers.change (φ := fun _ => Looks c m id name) hb hlooking).bind fun _ e he =>
      Answers.pure ⟨he, rfl⟩
  have hkind : c.arena.kind n ≠ .import_ := fun himport => by rw [himport] at hk; cases hk
  refine Answers.arena_bind ?_
  rw [hd.textIs hlt]
  split
  · dsimp only
    split
    · exact (Answers.modify (φ := fun _ => Looks c m id name) (hd.setType hlt hkind _)).bind
        fun _ e he => hmark he
    · exact hmark hd
  · exact Answers.pure ⟨hd, rfl⟩

/-- What a directive of the package declares under the name. -/
theorem answers_declared (h : c.HoldsModule m) (hp : c.arena.Inside p m)
    (hkp : c.arena.kind p = .package) (hs : c.arena.Searchable name p) (hn : n ∈ c.arena.body p)
    (hget : mode.getters = false) (hset : mode.setters = false) (hfuel : c.arena.size + 2 < fuel)
    (hd : Looks c m id name d) :
    Answers d (candidate (answer fuel) n id none mode) fun x e =>
      Looks c m id name e ∧ x = .ofOption (c.arena.declared? name n) := by
  have hconsistent := h.sound.consistent
  have hinside := (Arena.inside_of_mem_body hconsistent hn).trans hp
  have hlt := h.lt_size hinside
  have hcontests := hs.uncontested n hn
  rw [Arena.contests] at hcontests
  rw [Arena.declared?]
  refine Answers.arena_bind ?_
  rw [hd.name]
  dsimp only
  rw [hd.grows.kind hlt]
  cases hk : c.arena.kind n with
  | var =>
    dsimp only
    rw [hd.toKept.findVariable h hlt]
    exact Answers.pure ⟨hd, rfl⟩
  | class_ => exact answers_candidateClass h hinside (by rw [hk]; rfl) hd
  | interface => exact answers_candidateClass h hinside (by rw [hk]; rfl) hd
  | param =>
    rw [hk] at hcontests
    dsimp only
    rw [hd.textIs hlt, if_neg (Bool.eq_false_iff.1 hcontests)]
    exact Answers.pure ⟨hd, rfl⟩
  | function =>
    rw [hk] at hcontests
    have haround : c.arena.findAncestor n [.package, .program, .function, .interface, .class_] =
        some p :=
      h.forest.findAncestor_of_mem_body hconsistent (by decide) (by rw [hkp]; decide) hn
    exact answers_otherFunction h hinside hk hcontests ⟨p, haround, hkp⟩ hget hset hfuel hd
  | enum =>
    rw [hk, Bool.or_eq_false_iff] at hcontests
    refine Answers.arena_bind ?_
    rw [hd.textIs hlt, hd.toKept.findVariable h hlt, if_neg (Bool.eq_false_iff.1 hcontests.1),
      Option.not_isSome_iff_eq_none.1 (Bool.eq_false_iff.1 hcontests.2)]
    exact Answers.pure ⟨hd, rfl⟩
  | package =>
    rw [hk] at hcontests
    dsimp only
    rw [hd.textIs hlt, if_neg (Bool.eq_false_iff.1 hcontests)]
    exact Answers.pure ⟨hd, rfl⟩
  | import_ =>
    rw [hk] at hcontests
    dsimp only at hcontests
    have hflag := Arena.flag_of_accepts (a := d.arena) (n := n) (f := .importImplements)
      (by rw [hd.grows.kind hlt, hk]; rfl)
    rw [hd.imports n hk, hcontests] at hflag
    have himport : Answers d (checkImport (answer fuel) n name none mode) fun r e =>
        Looks c m id name e ∧ r = none :=
      Answers.ask_bind hflag (Answers.pure ⟨hd, rfl⟩)
    refine himport.bind fun r d hd => ?_
    rw [hd.2]
    exact Answers.pure ⟨hd.1, rfl⟩
  | _ => exact Answers.pure ⟨hd, rfl⟩

/-- What a directive of the package offers under the name: what it declares, if that is open. -/
theorem tells_offered (h : c.HoldsModule m) (hp : c.arena.Inside p m)
    (hkp : c.arena.kind p = .package) (hs : c.arena.Searchable name p) (hn : n ∈ c.arena.body p)
    (hget : mode.getters = false) (hset : mode.setters = false) (t : Tally) :
    Tells c (Looks c m id name) id t mode (c.arena.size + 2) n
      ((c.arena.declared? name n).filter c.arena.isOpen) := by
  refine ⟨fun hk => ?_, fun fuel list i d hfuel hi hd => ?_⟩
  · rw [Arena.declared?, hk]
    rfl
  have hinside := (Arena.inside_of_mem_body h.sound.consistent hn).trans hp
  have hlist := Arena.lt_size_of_mem_children (List.mem_of_getElem? hi)
  have hname : Answers d (checkName (answer fuel) list i id none mode) fun r e =>
      Looks c m id name e ∧ r = (c.arena.declared? name n).filter c.arena.isOpen := by
    refine Answers.arena_bind ?_
    rw [hd.grows.children hlist, hi]
    refine (answers_declared h hp hkp hs hn hget hset hfuel hd).bind fun x d hd => ?_
    obtain ⟨hd, rfl⟩ := hd
    cases hx : c.arena.declared? name n with
    | none => exact Answers.pure ⟨hd, rfl⟩
    | some x =>
      have hx := (Arena.inside_of_declared? h.sound.consistent hx).trans hinside
      refine (answers_rejection_nowhere h hd hx hfuel).bind fun r d hd => ?_
      obtain ⟨hd, hr⟩ := hd
      rw [Option.filter_some, ← hr]
      cases r with
      | some r =>
        exact (Answers.modify (φ := fun _ => Looks c m id name) hd).bind fun _ e he =>
          Answers.pure ⟨he, rfl⟩
      | none =>
        refine Answers.arena_bind ?_
        rw [Option.isSome_none, Bool.and_false, if_neg Bool.false_ne_true]
        exact Answers.pure ⟨hd, rfl⟩
  refine hname.bind fun r d hd => ?_
  rw [hd.2]
  cases (c.arena.declared? name n).filter c.arena.isOpen with
  | none => exact Answers.pure ⟨hd.1, rfl⟩
  | some x => exact Answers.arena_bind (Answers.pure ⟨hd.1, rfl⟩)

/-! ## The whole search -/

theorem steady_looks : Steady c (·.index < c.arena.size) (Looks c m id name) where
  kind _ _ hn hd := hd.grows.kind hn
  children _ _ hn hd := hd.grows.children hn
  list n hk := Arena.lt_size_of_kind_ne (by rw [hk]; decide)
  lock _ _ hn hd := hd.lock hn
  drop _ _ hn hd := hd.drop hn

/-- A package inherits from nothing. -/
theorem superNames_eq_nil {a : Arena} (hlists : ∀ n ∈ a.children p, a.kind n = .directiveList) :
    a.superNames p = [] := by
  rw [Arena.superNames, List.flatMap_eq_nil_iff]
  intro n hn
  rw [hlists n hn]
  rfl

/-- The package is asked for a member: its body is searched, and there is nothing from which it
inherits. -/
theorem answers_findPackageMember (h : c.HoldsModule m) (hp : c.arena.Inside p m)
    (hkp : c.arena.kind p = .package) (hs : c.arena.Searchable name p)
    (hget : mode.getters = false) (hset : mode.setters = false)
    (hfuel : 2 * c.arena.size + 3 < fuel) (hd : Looks c m id name d) :
    Answers d (answer (fuel + 1) (.findMember p id { funcs := 0 } none mode)) fun x e =>
      Looks c m id name e ∧ x = Tally.take { funcs := 0 } (c.arena.imported? name p) := by
  have hlt := h.lt_size hp
  have hbody : Answers d (findInBody (answer fuel) p id { funcs := 0 } none mode) fun x e =>
      Looks c m id name e ∧ x = Tally.take { funcs := 0 } (c.arena.imported? name p) :=
    answers_findInBody (c.arena.size + 2) steady_looks hlt h.forest h.sound.consistent
      (fun n hn => tells_offered h hp hkp hs hn hget hset _) (by omega) hd
  refine hbody.bind fun x d hd => ?_
  rw [hd.2]
  cases c.arena.imported? name p with
  | some x => exact Answers.pure ⟨hd.1, rfl⟩
  | none =>
    have hextends : Answers d (findInExtends (answer fuel) p id { funcs := 0 } none mode)
        fun x e => Looks c m id name e ∧ x = (false, { funcs := 0, found := none }) := by
      refine Answers.withLock (φ := fun x e => Looks c m id name e ∧
        x = (false, { funcs := 0, found := none })) (Answers.arena_bind ?_)
        fun x e he => ⟨he.1.drop hlt, he.2⟩
      have hnames : (d.arena.lock p).superNames p = [] := by
        rw [(hd.1.toKept.lock p).grows.superNames h.sound.consistent hlt,
          superNames_eq_nil hs.lists]
      rw [hnames]
      exact Answers.pure ⟨hd.1.lock hlt, rfl⟩
    exact hextends

/-- **What a package offers is found**, and nothing else. -/
theorem answers_findOffered (h : c.HoldsModule m) (hp : c.arena.Inside p m)
    (hkp : c.arena.kind p = .package) (hs : c.arena.Searchable name p)
    (hget : mode.getters = false) (hset : mode.setters = false)
    (hfuel : 2 * c.arena.size + 4 < fuel) (hd : Looks c m id name d) :
    Answers d (findField (answer fuel) p id 0 none mode) fun x e =>
      Kept c m 1 e.arena e.attributeCache ∧ x = (c.arena.imported? name p, 0) := by
  obtain ⟨fuel, rfl⟩ : ∃ k, fuel = k + 1 := Nat.exists_eq_succ_of_ne_zero (by omega)
  have hfresh : Looks c m id name { d with rejections := Rejections.none } := hd
  refine Answers.withFreshRejections (φ := fun x e => Kept c m 1 e.arena e.attributeCache ∧
    x = (c.arena.imported? name p, 0)) ?_ fun x e r he => he
  refine (answers_findPackageMember h hp hkp hs hget hset (by omega) hfresh).bind fun x d hd => ?_
  rw [hd.2]
  cases c.arena.imported? name p with
  | none =>
    have hreport : Answers d (reportRejections id) fun _ => Looks c m id name := by
      refine Answers.get_bind ?_
      refine (Answers.modify (φ := fun _ => Looks c m id name) hd.1).bind fun _ d hd => ?_
      dsimp only
      split
      · exact Answers.pure hd
      · exact Answers.nameOf_bind (answers_error (P := Looks c m id name) (fun _ => hd) _ _ _)
    exact hreport.bind fun _ e he => Answers.pure ⟨he.toKept, rfl⟩
  | some x =>
    have hlink : Answers d (linkField id x) fun _ e => Kept c m 1 e.arena e.attributeCache := by
      refine Answers.arena_bind ?_
      rw [hd.1.inst]
      exact Answers.modify (hd.1.toKept.setLink (.inl rfl) (some x) hd.1.kind_ne_import)
    exact hlink.bind fun _ e he => Answers.pure ⟨he, rfl⟩

end Search

end SymbolTree
