import SymbolTree.Proofs.Search.Lexical.Scoping
import SymbolTree.Proofs.Search.Settled
import SymbolTree.Proofs.Search.Trace.Scope

/-!
# Declarations in a plain program

A node of a plain program has no attributes, so that every place sees what it declares.

Until a declaration of a name is met, a search for the name changes no node: it takes locks and
works out that nodes have no attributes (`Search.Idle`).  Once one is met, nothing can reject it any
more (`Search.Accessible`).  When it is a function much may happen, as its type is looked for;
otherwise only marks are left (`Search.Met`).

## Main statement

* `Search.yields_scan` — the first child that declares the name is found.
-/

set_option autoImplicit false
namespace SymbolTree

/-! ## Plain programs in a context -/

namespace Context

/-- A module that declares things for all programs. -/
def Provides (c : Context) (program : NodeId) : Prop :=
  some program ∈ [c.globalImport, c.systemImport, c.nativeImport]

/-- A node of the program at `root` or of a module that declares things for all programs. -/
def InPlain (c : Context) (root n : NodeId) : Prop :=
  ∃ r, (r = root ∨ c.Provides r) ∧ c.arena.Within r n

/-- The program at `root` is plain and has no classes, the modules that declare things for all
programs are plain, and no attributes are remembered about their nodes. -/
structure PlainProgram (c : Context) (root : NodeId) : Prop where
  /-- The tree is consistent. -/
  consistent : c.arena.Consistent
  /-- The program and the modules are plain. -/
  tree : ∀ r, r = root ∨ c.Provides r → c.arena.PlainTree r
  /-- The program has no classes. -/
  classless : ∀ n, c.arena.Within root n → c.arena.kind n ≠ .class_
  /-- A module begins with a list of directives. -/
  list : ∀ r list, c.Provides r → (c.arena.children r).head? = some list →
    c.arena.kind list = .directiveList
  /-- No attributes are remembered where there are none. -/
  forgotten : ∀ n s, c.InPlain root n → c.attributeCache.lookup n = some s →
    s = AttributeSet.empty

namespace PlainProgram

variable {c : Context} {root n : NodeId}

theorem effective (h : c.PlainProgram root) (hn : c.InPlain root n) :
    c.arena.Effective n AttributeSet.empty := by
  obtain ⟨r, hr, hw⟩ := hn
  exact (h.tree r hr).effective hw

theorem inPlain_parent (h : c.PlainProgram root) (hn : c.InPlain root n) {p : NodeId}
    (hp : c.arena.InheritsFrom n p) : c.InPlain root p := by
  obtain ⟨r, hr, hw⟩ := hn
  exact ⟨r, hr, ((h.tree r hr).within_parent hw hp.1 hp.2.2).1⟩

theorem builtIn (h : c.PlainProgram root) (hn : c.InPlain root n) : c.arena.BuiltIn n := by
  obtain ⟨r, hr, hw⟩ := hn
  rw [Arena.BuiltIn, Arena.attributeEntries, (h.tree r hr).unlisted n hw]
  exact fun e he => absurd he List.not_mem_nil

end PlainProgram

end Context

/-! ## Marks -/

namespace Node

/-- The same node but for marks that no search for a name in a plain program looks at: flags other
than those of getters and setters, and the type of a class. -/
structure Marked (d e : Node) : Prop where
  /-- The rest is the same. -/
  alike : d.Alike e
  /-- The link of a name is the same. -/
  inst : e.inst = d.inst
  /-- The type of what is no class is the same. -/
  typeNode : d.kind ≠ .class_ → e.typeNode = d.typeNode
  /-- A function is a getter or a setter as before. -/
  accessor : ∀ f : Flag, f = .functionGetter ∨ f = .functionSetter →
    e.flags.contains f = d.flags.contains f

namespace Marked

theorem refl (d : Node) : d.Marked d :=
  ⟨⟨rfl, rfl, rfl, rfl, rfl, rfl, rfl⟩, rfl, fun _ => rfl, fun _ _ => rfl⟩

theorem trans {d e e' : Node} (h : d.Marked e) (h' : e.Marked e') : d.Marked e' := by
  refine ⟨?_, h'.inst.trans h.inst, fun hk => (h'.typeNode ?_).trans (h.typeNode hk),
    fun f hf => (h'.accessor f hf).trans (h.accessor f hf)⟩
  · exact ⟨h'.alike.kind.trans h.alike.kind, h'.alike.text.trans h.alike.text,
      h'.alike.attributes.trans h.alike.attributes,
      h'.alike.attributeNode.trans h.alike.attributeNode, h'.alike.parent.trans h.alike.parent,
      h'.alike.children.trans h.alike.children, h'.alike.alive.trans h.alike.alive⟩
  · rw [h.alike.kind]
    exact hk

theorem setFlag {f : Flag} (hf : f ≠ .functionGetter ∧ f ≠ .functionSetter) (b : Bool) (d : Node) :
    d.Marked { d with flags := d.flags.set f b } := by
  refine ⟨⟨rfl, rfl, rfl, rfl, rfl, rfl, rfl⟩, rfl, fun _ => rfl, fun g hg => ?_⟩
  rw [FlagSet.contains_set, if_neg]
  rintro rfl
  rcases hg with rfl | rfl
  · exact hf.1 rfl
  · exact hf.2 rfl

theorem setType {d : Node} (hd : d.kind = .class_) (t : Option NodeId) :
    d.Marked (d.setLink .typeNode t) :=
  ⟨⟨rfl, rfl, rfl, rfl, rfl, rfl, rfl⟩, rfl, fun hk => absurd hd hk, fun _ _ => rfl⟩

end Marked

end Node

namespace Context

/-- The two contexts differ only in marks on nodes and in what the last failed search rejected. -/
structure Marked (c e : Context) : Prop where
  /-- The rest is the same. -/
  eq : e = { c with arena := e.arena, lastRejections := e.lastRejections }
  /-- The tree is consistent. -/
  consistent : e.arena.Consistent
  /-- The nodes differ in marks only. -/
  node : ∀ n, (c.arena.node n).Marked (e.arena.node n)

namespace Marked

variable {c e : Context} {root n : NodeId}

theorem refl (hc : c.arena.Consistent) : c.Marked c := ⟨rfl, hc, fun _ => .refl _⟩

theorem alike (h : c.Marked e) : c.arena.Alike e.arena := fun n => (h.node n).alike

theorem provides (h : c.Marked e) : e.Provides = c.Provides := by rw [h.eq]; rfl

theorem within (h : c.Marked e) : e.arena.Within = c.arena.Within := by
  funext r n
  rw [Arena.Within, Arena.Within, h.alike.kind, h.alike.parent]

theorem inPlain (h : c.Marked e) : e.InPlain root = c.InPlain root := by
  funext n
  rw [InPlain, InPlain, h.provides, h.within]

/-- Marks do not make a program less plain. -/
theorem plainProgram (h : c.Marked e) (hc : c.PlainProgram root) : e.PlainProgram root := by
  have hcache : e.attributeCache = c.attributeCache := congrArg (·.attributeCache) h.eq
  refine ⟨h.consistent, fun r hr => ?_, ?_, ?_, ?_⟩
  · rw [h.provides] at hr
    have htree := hc.tree r hr
    constructor
    · rw [h.alike.kind]; exact htree.program
    · rw [h.alike.kind, h.within]; exact htree.plain
    · rw [h.within]
      intro n hn
      rw [(h.alike n).attributes]
      exact htree.bare n hn
    · rw [h.alike.attributeNode, h.within]; exact htree.unlisted
    · rw [h.within]
      exact fun n hn => ((h.node n).accessor _ (.inl rfl)).trans (htree.getter n hn)
    · rw [h.within]
      exact fun n hn => ((h.node n).accessor _ (.inr rfl)).trans (htree.setter n hn)
    · rw [h.alike.kind, h.alike.parent, h.within]; exact htree.parameters
  · rw [h.alike.kind, h.within]; exact hc.classless
  · rw [h.alike.kind, h.alike.children, h.provides]; exact hc.list
  · rw [h.inPlain, hcache]; exact hc.forgotten

/-- One more mark. -/
theorem update (h : c.Marked e) {n : NodeId} {g : Node → Node}
    (hg : (e.arena.node n).Marked (g (e.arena.node n))) :
    c.Marked { e with arena := e.arena.update n g } := by
  refine ⟨?_, h.consistent.update (.of_eq hg.alike.parent hg.alike.children hg.alike.kind),
    fun m => (h.node m).trans ?_⟩
  · exact congrArg (fun e : Context => { e with arena := e.arena.update n g }) h.eq
  · exact Arena.rel_node_update .refl hg m

end Marked

end Context

namespace Search

/-- Nothing has happened since `c` but that locks were taken, messages given and nodes of the plain
program at `root` found to have no attributes. -/
abbrev Idle (c : Context) (root : NodeId) : Context → Prop := Settled (c.InPlain root) c []

variable {c : Context} {root : NodeId}

theorem Idle.refl (h : c.PlainProgram root) : Idle c root c := by
  refine Settled.start fun m s hm hs t ht => ?_
  rw [h.forgotten m s hm hs, ht.unique (h.effective hm)]
  exact .refl _

/-- The node has no attributes, as far as a search is concerned. -/
def Unmarked (d : Context) (n : NodeId) : Prop :=
  ∃ s : AttributeSet, d.attributeCache.lookup n = some s ∧ s.Agrees AttributeSet.empty

/-- No place is refused the declaration, and `φ` holds after the question. -/
def Accessible (d : Context) (n : NodeId) (φ : Context → Prop) : Prop :=
  ∀ fuel id, Yields (· = d) (rejection (answer fuel) id n) fun r e => r = none ∧ φ e

/-- What is left when `m` was found under the name `id`: unless it is a function, no more than
marks, one of which tells that the name was seen to be that of a class. -/
def Met (c : Context) (root id m : NodeId) (d : Context) : Prop :=
  c.arena.kind m ≠ .function → ∃ e, c.Marked e ∧ Idle e root d ∧
    (c.arena.kind m = .class_ → (e.arena.node id).flags.contains .identifierTyped = true)

/-- A mark is left, and nothing else happens. -/
theorem Idle.update {e d : Context} (h : e.PlainProgram root) (hd : Idle e root d) {n : NodeId}
    {g : Node → Node} (hg : (e.arena.node n).Marked (g (e.arena.node n))) :
    Idle { e with arena := e.arena.update n g } root { d with arena := d.arena.update n g } := by
  have hmarked : e.Marked { e with arena := e.arena.update n g } :=
    (Context.Marked.refl h.consistent).update hg
  refine ⟨⟨?_, hd.same.locks⟩, fun m s hm hbusy hs t ht => ?_, fun m s hs => ?_⟩
  · exact congrArg (fun d : Context => { d with arena := d.arena.update n g }) hd.same.eq
  · rw [ht.unique ((hmarked.plainProgram h).effective hm)]
    rw [hmarked.inPlain] at hm
    exact hd.agrees m s hm hbusy hs _ (h.effective hm)
  · rw [hmarked.inPlain]
    exact hd.known m s hs

/-- What is no function was found where nothing had happened. -/
theorem Met.of_idle (h : c.PlainProgram root) {id m : NodeId} (hm : c.arena.kind m ≠ .class_)
    {d : Context} (hd : Idle c root d) : Met c root id m d :=
  fun _ => ⟨c, .refl h.consistent, hd, fun hk => absurd hk hm⟩

theorem Met.of_function {id m : NodeId} (hm : c.arena.kind m = .function) (d : Context) :
    Met c root id m d :=
  fun hk => absurd hm hk

theorem Idle.withRejections {d : Context} (hd : Idle c root d) (r : Rejections) :
    Idle c root { d with rejections := r } :=
  ⟨⟨congrArg (fun d : Context => { d with rejections := r }) hd.same.eq, hd.same.locks⟩,
    hd.agrees, hd.known⟩

theorem Met.withRejections {id m : NodeId} {d : Context} (h : Met c root id m d)
    (r : Rejections) : Met c root id m { d with rejections := r } := by
  intro hk
  obtain ⟨e, hmarked, he, htyped⟩ := h hk
  exact ⟨e, hmarked, he.withRejections r, htyped⟩

theorem Met.drop {id m : NodeId} {d : Context} (h : Met c root id m d) (g : Guard) :
    Met c root id m { d with arena := g.drop d.arena } := by
  intro hk
  obtain ⟨e, hmarked, he, htyped⟩ := h hk
  exact ⟨e, hmarked, he.drop g, htyped⟩

/-! ## Attributes -/

theorem yields_hasAttribute {P : Context → Prop} {n : NodeId} {fuel : Nat}
    (h : Yields P (answer fuel (.effectiveAttributes n)) fun s d =>
      P d ∧ s.Agrees AttributeSet.empty ∧ d.attributeCache.lookup n = some s)
    {t : Attribute} (ht : t ≠ .type) :
    Yields P (hasAttribute (answer fuel) n t) fun b d => (P d ∧ Unmarked d n) ∧ b = false := by
  refine h.bind fun s => Yields.pure fun d hd => ⟨⟨hd.1, s, hd.2.2, hd.2.1⟩, ?_⟩
  simp [hd.2.1 t ht]

theorem yields_hasAttribute_idle (h : c.PlainProgram root) {n : NodeId} (hn : c.InPlain root n)
    (fuel : Nat) {t : Attribute} (ht : t ≠ .type) :
    Yields (Idle c root) (hasAttribute (answer fuel) n t) fun b d =>
      (Idle c root d ∧ Unmarked d n) ∧ b = false :=
  yields_hasAttribute ((yields_answer_effective (fun _ _ hm hp => h.inPlain_parent hm hp)
    (fun _ hm => h.builtIn hm) hn fuel fun _ hm => absurd hm List.not_mem_nil).mono (fun _ h => h)
    fun _ _ hd => ⟨hd.1, hd.2.1 _ (h.effective hn), hd.2.2⟩) ht

/-- What is remembered is answered. -/
theorem yields_hasAttribute_unmarked (n : NodeId) (fuel : Nat) {t : Attribute} (ht : t ≠ .type) :
    Yields (Unmarked · n) (hasAttribute (answer fuel) n t) fun b d => Unmarked d n ∧ b = false := by
  refine (yields_hasAttribute ?_ ht).mono (fun _ h => h) fun _ _ h => ⟨h.1.1, h.2⟩
  cases fuel with
  | zero => exact Yields.throw
  | succ fuel =>
    refine Yields.get_bind fun d hd => ?_
    obtain ⟨s, hs, hagrees⟩ := id hd
    rw [hs]
    refine Yields.pure fun e he => ?_
    subst he
    exact ⟨hd, hagrees, hs⟩

theorem yields_rejection {P : Context → Prop} {call : Call} {id n : NodeId}
    (h : ∀ t, t ≠ .type → Yields P (hasAttribute call n t) fun b d => P d ∧ b = false) :
    Yields P (rejection call id n) fun r d => r = none ∧ P d := by
  have hskip : ∀ {β : Type} {t : Attribute} {f : Bool → Search β} {S : β → Context → Prop},
      t ≠ .type → Yields P (f false) S → Yields P (hasAttribute call n t >>= f) S := by
    intro β t f S ht hf
    refine (h t ht).bind_at fun b d hd => ?_
    rw [hd.2]
    exact hf.start hd.1
  exact hskip (by decide) (hskip (by decide) (hskip (by decide)
    (Yields.pure fun _ hd => ⟨rfl, hd⟩)))

theorem Unmarked.accessible {d : Context} {n : NodeId} (h : Unmarked d n) :
    Accessible d n fun _ => True :=
  fun fuel _ => ((yields_rejection fun _ ht => yields_hasAttribute_unmarked n fuel ht).start h).mono
    (fun _ h => h) fun _ _ hr => ⟨hr.1, trivial⟩

theorem Idle.accessible (h : c.PlainProgram root) {d : Context} (hd : Idle c root d) {n : NodeId}
    (hn : c.InPlain root n) : Accessible d n (Idle c root) :=
  fun fuel _ => (yields_rejection fun _ ht => (yields_hasAttribute_idle h hn fuel ht).mono
    (fun _ h => h) fun _ _ h => ⟨h.1.1, h.2⟩).start hd

theorem Accessible.mono {d : Context} {n : NodeId} {φ ψ : Context → Prop} (h : Accessible d n φ)
    (hφ : ∀ e, φ e → ψ e) : Accessible d n ψ :=
  fun fuel id => (h fuel id).mono (fun _ h => h) fun _ e he => ⟨he.1, hφ e he.2⟩

/-! ## Declarations -/

/-- A function of a plain program constructs nothing. -/
theorem yields_isConstructor (h : c.PlainProgram root) {f : NodeId} (hf : c.InPlain root f)
    (hk : c.arena.kind f = .function) (fuel : Nat) :
    Yields (Idle c root) (isConstructor (answer fuel) f) fun o d => Idle c root d ∧ o = none := by
  refine Yields.arena_bind fun d hd => ?_
  have hkind := hd.same.alike.kind
  have haround : (d.arena.findAncestor f
      [.package, .program, .function, .interface, .class_]).filter
      (fun m => d.arena.kind m = .class_) = none := by
    obtain ⟨r, hr, hw⟩ := hf
    rw [Arena.findAncestor, hd.same.ancestors, hkind]
    refine Option.filter_eq_none_iff.2 fun m hm => ?_
    have := (h.tree r hr).findAncestor_ne_class hw (by rw [hk]; decide) (by decide) hm
    simpa using this
  rw [haround, hkind, hk]
  refine ((yields_hasAttribute_idle h hf fuel (by decide)).start hd).bind_at fun b e he => ?_
  rw [he.2]
  exact Yields.pure fun e' he' => ⟨he' ▸ he.1.1, rfl⟩

/-- A function is found under its name, and its type may be looked for then. -/
theorem yields_checkFunction (h : c.PlainProgram root) {f : NodeId} (hf : c.InPlain root f)
    (name : String) (mode : SearchMode) (fuel : Nat) :
    Yields (Idle c root) (checkFunction (answer fuel) f name none mode) fun o d =>
      (c.arena.textIs f name = false ∧ o = none ∧ Idle c root d) ∨
      (c.arena.textIs f name = true ∧ o = some f ∧ Unmarked d f) := by
  obtain ⟨r, hr, hw⟩ := id hf
  have hflag : ∀ g, (c.arena.node f).flags.contains g = false →
      Yields (fun d => Idle c root d ∧ Unmarked d f) (ask fun a => a.flag f g) fun b d =>
        (Idle c root d ∧ Unmarked d f) ∧ b = false := by
    refine fun g hg => Yields.ask fun d b hd hb => ⟨hd, ?_⟩
    obtain ⟨_, -, hb⟩ := bind_eq_ok_iff.1 hb
    rw [← Except.ok.inj hb, Arena.node, hd.1.same.nodes]
    exact hg
  refine (yields_hasAttribute_idle h hf fuel (by decide)).bind_at fun b d hd => ?_
  rw [hd.2]
  refine ((hflag _ ((h.tree r hr).getter f hw)).start hd.1).bind_at fun getter d hd => ?_
  rw [hd.2]
  refine ((hflag _ ((h.tree r hr).setter f hw)).start hd.1).bind_at fun setter d hd => ?_
  rw [hd.2]
  refine Yields.arena_bind fun d' hd' => ?_
  subst hd'
  rw [show d'.arena.textIs = c.arena.textIs from congrArg (·.arena.textIs) hd.1.1.same.eq]
  cases htext : c.arena.textIs f name with
  | false =>
    simp only [Bool.false_and, Bool.false_eq_true, if_false, htext]
    exact Yields.pure fun e he => .inl ⟨trivial, rfl, he ▸ hd.1.1⟩
  | true =>
    simp only [Bool.false_and, Bool.false_eq_true, if_false, htext, Bool.not_true,
      Option.isNone_none, if_true, Bool.or_self]
    -- whatever is done to find the type of the function, what is remembered about it stays
    have hfollows : Follows none (defineFunctionType (answer fuel) f) :=
      follows_defineFunctionType (faithful_answer fuel) f
    have htype := hfollows.yields (P := (· = d')) fun e he =>
      he ▸ hd.1.1.same.consistent h.consistent
    refine htype.bind fun _ => Yields.pure fun e he => .inr ⟨trivial, rfl, ?_⟩
    obtain ⟨_, rfl, hcourse⟩ := he
    obtain ⟨s, hs, hagrees⟩ := hd.1.2
    exact ⟨s, hcourse.lookup hs, hagrees⟩

/-- A class that is found is linked to itself, and the name is marked. -/
theorem yields_candidateClass (h : c.PlainProgram root) {n : NodeId} (hn : c.InPlain root n)
    (hk : c.arena.kind n = .class_) (id : NodeId) {d : Context} (hd : Idle c root d) :
    Yields (· = d) (do
      if (d.arena.typeNode n).isNone then
        write fun a => a.setLink n .typeNode (some n)
      change fun a => a.setFlag id .identifierTyped true
      return Candidate.guarded n) fun r e => r = .guarded n ∧ Accessible e n (Met c root id n) := by
  have hmark : ∀ {e : Context}, c.Marked e → Yields (Idle e root) (do
        change fun a => a.setFlag id .identifierTyped true
        return Candidate.guarded n) fun r e => r = .guarded n ∧
          Accessible e n (Met c root id n) := by
    intro e he
    refine Yields.bind (Q := fun _ e => Accessible e n (Met c root id n))
      (Yields.change fun d b hd hb => ?_) fun _ => Yields.pure fun e he => ⟨rfl, he⟩
    obtain ⟨haccepts, halive, rfl⟩ := Arena.setFlag_eq_ok_iff.1 hb
    have hg := Node.Marked.setFlag (f := .identifierTyped) (by decide) true (e.arena.node id)
    have hmarked := he.update (g := fun d => { d with flags := d.flags.set .identifierTyped true })
      hg
    have hidle := hd.update (he.plainProgram h)
      (g := fun d => { d with flags := d.flags.set .identifierTyped true }) hg
    refine (hidle.accessible (hmarked.plainProgram h) ?_).mono fun e' he' _ =>
      ⟨_, hmarked, he', fun _ => ?_⟩
    · rw [hmarked.inPlain]
      exact hn
    · have hsize : id.index < e.arena.size := by
        have := Arena.lt_size_of_modifying halive
        rw [Arena.size, hd.same.nodes] at this
        exact this
      rw [Arena.node_update, if_pos ⟨rfl, hsize⟩, FlagSet.contains_set, if_pos rfl]
  dsimp only
  split
  · refine Yields.bind (Q := fun _ e => ∃ c', c.Marked c' ∧ Idle c' root e)
      (Yields.modify fun e he => ?_) fun _ => Ensures.at fun e he => ?_
    · subst he
      have hg := Node.Marked.setType hk (some n)
      exact ⟨_, (Context.Marked.refl h.consistent).update hg, hd.update h hg⟩
    · obtain ⟨c', hc', he⟩ := he
      exact (hmark hc').start he
  · exact (hmark (.refl h.consistent)).start hd

/-- What a child of a scope declares is found, and nothing else. -/
theorem yields_candidate (h : c.PlainProgram root) {n : NodeId} (hn : c.InPlain root n)
    (id : NodeId) (mode : SearchMode) (fuel : Nat) :
    Yields (Idle c root) (candidate (answer fuel) n id none mode) fun r d =>
      (c.arena.declared (c.arena.name id) n = none ∧ r = .none ∧ Idle c root d) ∨
      ∃ m, c.arena.declared (c.arena.name id) n = some m ∧
        (r = .open_ m ∧ Met c root id m d ∨
          r = .guarded m ∧ Accessible d m (Met c root id m)) := by
  have ⟨r, hr, hw⟩ := hn
  have hplain := (h.tree r hr).plain n hw
  refine Yields.arena_bind fun d hd => ?_
  have htextIs : d.arena.textIs = c.arena.textIs := congrArg (·.arena.textIs) hd.same.eq
  rw [hd.same.alike.name, hd.same.alike.kind, htextIs]
  dsimp only
  split
  · next hk =>
    rw [Arena.declared, hk]
    dsimp only
    rw [findVariable, hd.same.alike.children, hd.same.alike.kind, htextIs]
    cases hv : (c.arena.children n).find? fun v =>
        c.arena.kind v = .variable_ && c.arena.textIs v (c.arena.name id) with
    | none => exact Yields.pure fun e he => .inl ⟨rfl, rfl, he ▸ hd⟩
    | some v =>
      have hvn : c.InPlain root v := ⟨r, hr, Arena.PlainTree.within_child h.consistent hw
        (by rw [hk]; decide) (List.mem_of_find?_eq_some hv)⟩
      have hvk : c.arena.kind v ≠ .class_ := by
        have := List.find?_some hv
        rw [Bool.and_eq_true, decide_eq_true_eq] at this
        rw [this.1]
        decide
      exact Yields.pure fun e he => .inr ⟨v, rfl, .inr ⟨rfl,
        (Idle.accessible h (he ▸ hd) hvn).mono fun _ he => .of_idle h hvk he⟩⟩
  · next hk =>
    rw [Arena.declared, hk]
    dsimp only
    split
    · have hg := Node.Marked.setFlag (f := .paramReferenced) (by decide) true (c.arena.node n)
      refine Yields.bind (Q := fun _ => Met c root id n) (Yields.change fun e b he hb => ?_)
        fun _ => Yields.pure fun e he => .inr ⟨n, rfl, .inl ⟨rfl, he⟩⟩
      obtain ⟨-, -, rfl⟩ := Arena.setFlag_eq_ok_iff.1 hb
      subst he
      exact fun _ => ⟨_, (Context.Marked.refl h.consistent).update hg, hd.update h hg,
        fun hclass => by rw [hk] at hclass; cases hclass⟩
    · exact Yields.pure fun e he => .inl ⟨rfl, rfl, he ▸ hd⟩
  · next hk =>
    rw [Arena.declared, hk]
    dsimp only
    refine ((yields_isConstructor h hn hk fuel).start hd).bind_at fun o e he => ?_
    rw [he.2]
    refine ((yields_checkFunction h hn _ mode fuel).start he.1).bind fun o =>
      Yields.pure fun e he => ?_
    rcases he with ⟨htext, rfl, he⟩ | ⟨htext, rfl, he⟩
    · rw [htext]
      exact .inl ⟨rfl, rfl, he⟩
    · rw [htext]
      exact .inr ⟨n, rfl, .inr ⟨rfl, he.accessible.mono fun e _ => .of_function hk e⟩⟩
  · next hk =>
    rw [Arena.declared, hk]
    dsimp only
    split
    · refine (yields_candidateClass h hn hk id hd).mono (fun _ h => h) fun r e he => ?_
      exact .inr ⟨n, rfl, .inr he⟩
    · exact Yields.pure fun e he => .inl ⟨rfl, rfl, he ▸ hd⟩
  · next hk => rw [hk] at hplain; cases hplain
  · next hk => rw [hk] at hplain; cases hplain
  · next hk => rw [hk] at hplain; cases hplain
  · next hk => rw [hk] at hplain; cases hplain
  · refine Yields.pure fun e he => .inl ⟨?_, rfl, he ▸ hd⟩
    rw [Arena.declared]
    split <;> first | rfl | contradiction

/-- A declaration of a plain program is never rejected. -/
theorem yields_checkName (h : c.PlainProgram root) {list n : NodeId} {index : Nat}
    (hindex : (c.arena.children list)[index]? = some n) (hn : c.InPlain root n) (id : NodeId)
    (mode : SearchMode) (fuel : Nat) :
    Yields (Idle c root) (checkName (answer fuel) list index id none mode) fun r d =>
      r = c.arena.declared (c.arena.name id) n ∧ (r = none → Idle c root d) ∧
        ∀ m, r = some m → Met c root id m d := by
  refine Yields.arena_bind fun d hd => ?_
  rw [hd.same.alike.children, hindex]
  refine ((yields_candidate h hn id mode fuel).start hd).bind_at fun o e he => ?_
  rcases he with ⟨hnone, rfl, he⟩ | ⟨m, hm, ⟨rfl, hfound⟩ | ⟨rfl, hopen⟩⟩
  · exact Yields.pure fun e' he' => ⟨hnone.symm, fun _ => he' ▸ he, nofun⟩
  · refine Yields.pure fun e' he' => ⟨hm.symm, nofun, ?_⟩
    rintro _ ⟨⟩
    exact he' ▸ hfound
  · refine (hopen fuel id).bind_at fun r e' hr => ?_
    rw [hr.1]
    refine Yields.arena_bind fun e'' he'' => ?_
    rw [Option.isSome_none, Bool.and_false, if_neg Bool.false_ne_true]
    refine Yields.pure fun e''' he''' => ⟨hm.symm, nofun, ?_⟩
    rintro _ ⟨⟩
    subst he'' he'''
    exact hr.2

/-- How asking children one after the other ends, when `found` is what they declare. -/
def EndsWith (c : Context) (root id : NodeId) (t : Tally) (found : Option NodeId)
    (r : Bool × Tally) (d : Context) : Prop :=
  match found with
  | some m => r = (true, { t with found := some m }) ∧ Met c root id m d
  | none => r = (false, t) ∧ Idle c root d

theorem yields_tryChild (h : c.PlainProgram root) {list n : NodeId} {index : Nat}
    (hindex : (c.arena.children list)[index]? = some n) (hn : c.InPlain root n) (id : NodeId)
    (mode : SearchMode) (fuel : Nat) (t : Tally) :
    Yields (Idle c root) (tryChild (answer fuel) list id none mode index t)
      (EndsWith c root id t (c.arena.declared (c.arena.name id) n)) := by
  refine (yields_checkName h hindex hn id mode fuel).bind_at fun r d hd => ?_
  rw [← hd.1]
  cases r with
  | none => exact Yields.pure fun e he => ⟨rfl, he ▸ hd.2.1 rfl⟩
  | some m =>
    refine Yields.arena_bind fun e he => Yields.pure fun e' he' => ⟨rfl, ?_⟩
    subst he he'
    exact hd.2.2 m rfl

/-- The first of the children that declares the name is found. -/
theorem yields_scan (h : c.PlainProgram root) {list : NodeId} (id : NodeId) (mode : SearchMode)
    (fuel : Nat) (t : Tally) (places : List Nat) (ns : List NodeId)
    (hplaces : places.map ((c.arena.children list)[·]?) = ns.map some)
    (hns : ∀ n ∈ ns, c.InPlain root n) :
    Yields (Idle c root) (scan (tryChild (answer fuel) list id none mode) places t)
      (EndsWith c root id t (ns.findSome? (c.arena.declared (c.arena.name id)))) := by
  induction places generalizing ns with
  | nil =>
    obtain rfl : ns = [] := by simpa using hplaces.symm
    exact Yields.pure fun d hd => ⟨rfl, hd⟩
  | cons i places ih =>
    cases ns with
    | nil => simp at hplaces
    | cons n ns =>
      rw [List.map_cons, List.map_cons, List.cons.injEq] at hplaces
      refine (yields_tryChild h hplaces.1 (hns n List.mem_cons_self) id mode fuel t).bind_at
        fun r d hd => ?_
      rw [List.findSome?_cons]
      cases hm : c.arena.declared (c.arena.name id) n with
      | some m =>
        rw [hm] at hd
        rw [hd.1]
        exact Yields.pure fun e he => ⟨rfl, he ▸ hd.2⟩
      | none =>
        rw [hm] at hd
        rw [hd.1]
        exact (ih ns hplaces.2 fun m hm => hns m (List.mem_cons_of_mem n hm)).start hd.2

end Search

end SymbolTree
