import SymbolTree.Proofs.Search.Reports.Tracked
import SymbolTree.Proofs.Search.Yields

/-!
# Searches that report nothing about a name

`Search.Quiet c x k p` says of a search `p` that it leaves the number `k` of reports about the name
`x` as it is, whatever has happened since `c` in the way of searches, if it answers at all.

Attributes, classes and the types of functions are worked out quietly where `x` is spelt otherwise
than what is looked up for them (`Context.Distinct`).  The one name that a search makes up, that of
the type `Object`, is looked up from the context in which it was made up.

## Main statements

* `Search.Tracked.consults` — no more is looked up later on than from the beginning.
* `Search.Quiet.reportRejections` — a report about one name is none about another.
* `Search.quiet_effectiveAttributes`, `Search.quiet_linkedClass`, `Search.quiet_checkFunction`.
-/

set_option autoImplicit false
namespace SymbolTree.Search

variable {α β : Type}

/-! ## What is left of a context -/

/-- What searches have left of the context `c`: its tree stands, and there are `k` reports about
the name `x`. -/
structure Tracked (c : Context) (x : String) (k : Nat) (d : Context) : Prop where
  /-- The tree stands. -/
  tree : c.arena.Endures d.arena
  /-- The global declarations are the same. -/
  globalImport : d.globalImport = c.globalImport
  /-- The system declarations are the same. -/
  systemImport : d.systemImport = c.systemImport
  /-- The native declarations are the same. -/
  nativeImport : d.nativeImport = c.nativeImport
  /-- Attributes that were worked out are not worked out again. -/
  cache : ∀ n, d.attributeCache.lookup n = none → c.attributeCache.lookup n = none
  /-- There are so many reports about the name. -/
  reports : d.reports x = k

namespace Tracked

variable {c d e : Context} {x : String} {k : Nat} {n : NodeId}

theorem start (h : c.arena.Consistent) : Tracked c x (c.reports x) c :=
  ⟨.refl h, rfl, rfl, rfl, fun _ => id, rfl⟩

/-- The number of reports is handed on. -/
theorem trans {j : Nat} (h : Tracked c x j d) (h' : Tracked d x k e) : Tracked c x k e :=
  ⟨h.tree.trans h'.tree, h'.globalImport.trans h.globalImport,
    h'.systemImport.trans h.systemImport, h'.nativeImport.trans h.nativeImport,
    fun n hn => h.cache n (h'.cache n hn), h'.reports⟩

theorem arena (h : Tracked c x k d) {b : Arena} (hb : c.arena.Endures b) :
    Tracked c x k { d with arena := b } :=
  ⟨hb, h.globalImport, h.systemImport, h.nativeImport, h.cache, h.reports⟩

/-- A message that is no report about the name leaves the number as it is. -/
theorem message (h : Tracked c x k d) {ds : Diagnostics}
    (hds : ds.reports x = d.diagnostics.reports x) :
    Tracked c x k { d with diagnostics := ds } :=
  ⟨h.tree, h.globalImport, h.systemImport, h.nativeImport, h.cache, hds.trans h.reports⟩

theorem rejections (h : Tracked c x k d) (r : Rejections) :
    Tracked c x k { d with rejections := r } :=
  ⟨h.tree, h.globalImport, h.systemImport, h.nativeImport, h.cache, h.reports⟩

theorem lock (h : Tracked c x k d) (n : NodeId) :
    Tracked c x k { d with arena := d.arena.lock n } :=
  h.arena (h.tree.of_nodes (h.tree.consistent.lock n) rfl)

theorem drop (h : Tracked c x k d) (g : Guard) :
    Tracked c x k { d with arena := g.drop d.arena } :=
  h.arena (h.tree.of_nodes (h.tree.consistent.drop g) (Arena.nodes_drop g _))

/-- A link that leads nowhere has led nowhere from the beginning. -/
theorem link_none (h : Tracked c x k d) {l : Link} (hd : d.arena.link n l = none) :
    c.arena.link n l = none := by
  cases hc : c.arena.link n l with
  | none => rfl
  | some t =>
    have hsome := h.tree.link n l (by rw [hc]; rfl)
    rw [hd] at hsome
    cases hsome

/-- No more is looked up later on than from the beginning. -/
theorem lists (h : Tracked c x k d) (hn : d.Lists n) : c.Lists n := by
  obtain ⟨m, hm, hmem⟩ := hn
  rw [h.tree.attributeEntries] at hmem
  exact ⟨m, h.cache m hm, hmem⟩

/-- No node is expanded later on that was not from the beginning. -/
theorem expands (h : Tracked c x k d) (hc : c.arena.Consistent) (hn : d.Expands n) :
    c.Expands n := by
  rcases hn with hn | ⟨⟨e, he, hname⟩, hvalue⟩
  · exact .inl (h.lists hn)
  · have hlists := h.lists he
    exact .inr ⟨⟨e, hlists, h.tree.namesVariable (hlists.lt_size hc) hname⟩,
      h.tree.isValue hc hvalue⟩

/-- No name is looked up later on that was not to be looked up from the beginning. -/
theorem consults (h : Tracked c x k d) (hc : c.arena.Consistent) (hn : d.Consults n) :
    c.Consults n ∧ n.index < c.arena.size := by
  cases hn with
  | @super s hmem huntried =>
    rw [h.tree.superNames hc] at hmem
    obtain ⟨p, hp⟩ := Arena.mem_children_of_superNames hmem
    have hlt := hc.child_lt p n hp
    exact ⟨.super hmem (h.tree.untried hlt huntried), hlt⟩
  | typed htype huntried =>
    have htype := h.tree.isTypeOf hc htype
    have hlt := hc.child_lt _ n (List.mem_of_find?_eq_some htype.2)
    exact ⟨.typed htype (h.tree.untried hlt huntried), hlt⟩
  | @declared f hdeclared hf =>
    rw [h.tree.declaredType hc] at hdeclared
    obtain ⟨p, hp⟩ := Arena.mem_children_of_declaredType hdeclared
    exact ⟨.declared hdeclared (h.link_none hf), hc.child_lt p n hp⟩
  | listed hexpands hname =>
    have hexpands := h.expands hc hexpands
    have hlt := hexpands.lt_size hc
    exact ⟨.listed hexpands (h.tree.namesVariable hlt hname), hlt⟩

/-- What is looked up later on is spelt otherwise than the name. -/
theorem apart (h : Tracked c x k d) (hc : c.Distinct x) (hn : d.Consults n) :
    n.index < c.arena.size ∧ c.arena.Apart x n :=
  ⟨(h.consults hc.consistent hn).2, hc.consults n (h.consults hc.consistent hn).1⟩

/-- A search goes on in a context like the one it started in. -/
theorem distinct (h : Tracked c x k d) (hc : c.Distinct x) : d.Distinct x where
  consistent := h.tree.consistent
  imports n hn := by
    by_contra hset
    rw [Bool.not_eq_false] at hset
    have hnone := hc.imports n (h.tree.kind_eq (by decide) (by decide) hn)
    rw [h.tree.implements_ n hset] at hnone
    cases hnone
  object := hc.object
  consults n hn := by
    obtain ⟨hlt, hapart⟩ := h.apart hc hn
    exact h.tree.apart hc.consistent hlt hapart

end Tracked

/-! ## The rules -/

/-- A search that, if it answers, leaves as many reports about a name as there were. -/
def Quiet (c : Context) (x : String) (k : Nat) (p : Search α) : Prop :=
  Yields (Tracked c x k) p fun _ => Tracked c x k

namespace Quiet

variable {c : Context} {x : String} {k : Nat} {p : Search α} {f : α → Search β}

theorem pure {y : α} : Quiet c x k (Pure.pure y : Search α) := Yields.pure fun _ h => h

theorem throw {e : Stop} : Quiet c x k (throw e : Search α) := Yields.throw

theorem fail {e : CompileError} : Quiet c x k (fail e : Search α) := throw

theorem internal {e : TreeFault} : Quiet c x k (internal e : Search α) := throw

/-- Two quiet searches are quiet one after the other. -/
theorem bind (hp : Quiet c x k p) (hf : ∀ y, Quiet c x k (f y)) : Quiet c x k (p >>= f) :=
  Yields.bind hp hf

/-- What was read may be used in what follows. -/
theorem get_bind {f : Context → Search β} (h : ∀ d, Tracked c x k d → Quiet c x k (f d)) :
    Quiet c x k (get >>= f) :=
  Yields.get_bind fun d hd => (h d hd).start hd

theorem arena_bind {f : Arena → Search β} (h : ∀ d, Tracked c x k d → Quiet c x k (f d.arena)) :
    Quiet c x k (arena >>= f) :=
  Yields.arena_bind fun d hd => (h d hd).start hd

theorem ask_bind {g : Arena → Except NodeError α}
    (h : ∀ y d, Tracked c x k d → g d.arena = .ok y → Quiet c x k (f y)) :
    Quiet c x k (Search.ask g >>= f) :=
  Yields.bind_at (Yields.ask (Q := fun y d => Tracked c x k d ∧ g d.arena = .ok y)
    fun _ _ hd hg => ⟨hd, hg⟩) fun y d hd => (h y d hd.1 hd.2).start hd.1

theorem ask {g : Arena → Except NodeError α} : Quiet c x k (Search.ask g) :=
  Yields.ask fun _ _ hd _ => hd

theorem nameOf_bind {n : NodeId} {f : String → Search β}
    (h : ∀ d, Tracked c x k d → Quiet c x k (f (d.arena.name n))) :
    Quiet c x k (nameOf n >>= f) :=
  Yields.bind_at (Yields.nameOf n) fun name d hd => by
    rw [hd.2]
    exact (h d hd.1).start hd.1

theorem setFlag (n : NodeId) {f : Flag} (hf : f ≠ .importImplements) :
    Quiet c x k (change fun a => a.setFlag n f true) :=
  Yields.change fun _ _ hd hb => hd.arena (hd.tree.setFlag hb hf)

/-- A link that led nowhere is given an end. -/
theorem setLink {n : NodeId} {l : Link} (hl : c.arena.link n l = none) (t : Option NodeId) :
    Quiet c x k (write fun a => a.setLink n l t) :=
  Yields.modify fun _ hd => hd.arena (hd.tree.setLink hl t)

/-- A rejection is no report yet. -/
theorem reject (r : Rejection) : Quiet c x k (reject r) :=
  Yields.modify fun _ hd => hd.rejections _

/-- Only messages of one code are reports. -/
theorem report (level : Level) {code : Code} (h : code ≠ .cannotMatch) (n : NodeId)
    (text : String) : Quiet c x k (report level code n text) :=
  Yields.modify fun _ hd => hd.message (Diagnostics.reports_emit_of_ne h)

theorem error {code : Code} (h : code ≠ .cannotMatch) (n : NodeId) (text : String) :
    Quiet c x k (error code n text) := report _ h n text

theorem warning {code : Code} (h : code ≠ .cannotMatch) (n : NodeId) (text : String) :
    Quiet c x k (warning code n text) := report _ h n text

theorem fatal {code : Code} (h : code ≠ .cannotMatch) (n : NodeId) (text : String) :
    Quiet c x k (fatal code n text) := report _ h n text

theorem withLock {n : NodeId} (h : Quiet c x k p) : Quiet c x k (withLock n p) :=
  Yields.withLock h (fun _ hd => hd.lock n) fun _ _ hd => hd.drop _

theorem withFreshRejections (h : Quiet c x k p) : Quiet c x k (withFreshRejections p) :=
  Yields.withFreshRejections h (fun _ hd => hd.rejections _) fun _ _ r hd => hd.rejections r

theorem whileExpanding {v : NodeId} (h : Quiet c x k p) : Quiet c x k (whileExpanding v p) := by
  refine Yields.of_exec fun d y e hd hr => ?_
  rw [exec_whileExpanding] at hr
  cases he : p.exec { d with expanding := v :: d.expanding } with
  | mk r e' =>
    rw [he] at hr
    cases hr
    have hd' : Tracked c x k { d with expanding := v :: d.expanding } :=
      ⟨hd.tree, hd.globalImport, hd.systemImport, hd.nativeImport, hd.cache, hd.reports⟩
    have hout := h.of_ok hd' he
    exact ⟨hout.tree, hout.globalImport, hout.systemImport, hout.nativeImport, hout.cache,
      hout.reports⟩

theorem foldlM {γ : Type} {g : β → γ → Search β} {l : List γ} {b : β}
    (h : ∀ b, ∀ y ∈ l, Quiet c x k (g b y)) : Quiet c x k (l.foldlM g b) :=
  Ensures.foldlM (S := fun _ => Tracked c x k) h

/-- A report about one name is none about another. -/
theorem reportRejections {n : NodeId} (hn : ∀ d, Tracked c x k d → d.arena.name n ≠ x) :
    Quiet c x k (reportRejections n) := by
  refine get_bind fun d _ => bind (Yields.modify fun e he => ?_) fun _ => ?_
  · exact ⟨he.tree, he.globalImport, he.systemImport, he.nativeImport, he.cache, he.reports⟩
  · dsimp only
    split
    · exact pure
    · refine nameOf_bind fun e he => Yields.modify fun e' he' => he'.message ?_
      exact Diagnostics.reports_emit fun q =>
        Message.isAbout_rejectionText d.rejections.toList rfl (hn e he)

end Quiet

/-- The requests that a search makes on its way are answered without a report about the name. -/
structure Hushed (x : String) (call : Call) : Prop where
  /-- Names that are spelt otherwise. -/
  resolveName : ∀ c k list id mode, c.Distinct x → id.index < c.arena.size →
    c.arena.Apart x id → Quiet c x k (call (.resolveName list id none mode))
  /-- Attributes. -/
  effectiveAttributes : ∀ c k n, c.Distinct x → Quiet c x k (call (.effectiveAttributes n))
  /-- Entries of attribute lists. -/
  addListed : ∀ c k n e s, c.Distinct x → c.Expands e → Quiet c x k (call (.addListed n e s))
  /-- Derivation. -/
  isDerivedFrom : ∀ c k derived base, c.Distinct x →
    Quiet c x k (call (.isDerivedFrom derived base))
  /-- Members, whatever their name. -/
  findMember : ∀ c k link field t mode, c.Distinct x →
    Quiet c x k (call (.findMember link field t none mode))
  /-- Members in a list, whatever their name. -/
  findInList : ∀ c k list field t mode, c.Distinct x →
    Quiet c x k (call (.findInList list field t none mode))

variable {call : Call} {c d : Context} {x : String} {k : Nat}

/-! ## Attributes -/

theorem quiet_addAttribute (n : NodeId) (s : AttributeSet) (t : Attribute) :
    Quiet c x k (addAttribute n s t) := by
  refine .ask_bind fun _ _ _ _ => ?_
  split
  · exact .bind (.error (by decide) _ _) fun _ => .pure
  · exact .pure

/-- The value of a variable is read as an entry, if an entry stands for the variable. -/
theorem quiet_addVariable (hcall : Hushed x call) (hc : c.Distinct x)
    (hentry : ∃ e, c.Lists e ∧ c.arena.NamesVariable e) (n : NodeId) (name : String) (v : NodeId)
    (s : AttributeSet) : Quiet c x k (addVariable call n name v s) := by
  have hpart : ∀ s part, part ∈ c.arena.children v →
      Quiet c x k (addVariablePart call n s part) := by
    refine fun s part hmem => .arena_bind fun d hd => ?_
    dsimp only
    split
    · exact .bind (.error (by decide) _ _) fun _ => .pure
    · next value hvalue =>
      split
      · refine hcall.addListed c k n value s hc (.inr ⟨hentry, v, part, hmem, ?_⟩)
        rw [hd.tree.kind_child hc.consistent hmem, hd.tree.children] at hvalue
        split at hvalue
        · next hset => exact ⟨hset, hvalue⟩
        · cases hvalue
      · exact .bind (.error (by decide) _ _) fun _ => .pure
  refine .arena_bind fun d hd => ?_
  split
  · exact .bind (.error (by decide) _ _) fun _ => .pure
  · refine .get_bind fun _ _ => ?_
    split
    · exact .bind (.error (by decide) _ _) fun _ => .pure
    · rw [hd.tree.children]
      exact .whileExpanding (.withLock (.foldlM hpart))

/-- Whatever an entry names is looked up, unless it is the name of an attribute. -/
theorem quiet_addNamed (hcall : Hushed x call) (hc : c.Distinct x) (n : NodeId) {e : NodeId}
    (he : c.Expands e) (hk : c.arena.kind e = .identifier) (s : AttributeSet) :
    Quiet c x k (addNamed call n e s) := by
  have hlt := he.lt_size hc.consistent
  refine .nameOf_bind fun d hd => ?_
  rw [hd.tree.name hlt]
  split
  · exact quiet_addAttribute n s _
  · next hname =>
    have hvariable : c.arena.NamesVariable e := ⟨hk, hname⟩
    have hentry : ∃ e, c.Lists e ∧ c.arena.NamesVariable e := by
      rcases he with he | ⟨hentry, -⟩
      · exact ⟨e, he, hvariable⟩
      · exact hentry
    refine .arena_bind fun _ _ => ?_
    extract_lets add
    have hadd : ∀ found, Quiet c x k (add found) := by
      intro found
      cases found with
      | none => exact .bind (.error (by decide) _ _) fun _ => .pure
      | some v => exact quiet_addVariable hcall hc hentry n _ v s
    split
    · exact .bind (hcall.resolveName c k n e {} hc hlt
        (hc.consults e (.listed he hvariable))) hadd
    · exact .bind .pure hadd

/-- An entry of a list of attributes, which is looked up as it stands. -/
theorem quiet_addListed (hcall : Hushed x call) (hc : c.Distinct x) (n : NodeId) {e : NodeId}
    (he : c.Expands e) (s : AttributeSet) : Quiet c x k (addListed call n e s) := by
  refine .arena_bind fun d hd => ?_
  dsimp only
  split
  · next hk =>
    rw [hd.tree.kind e (he.lt_size hc.consistent)] at hk
    exact quiet_addNamed hcall hc n he hk s
  · split
    · exact quiet_addAttribute n s _
    · exact .bind (.error (by decide) _ _) fun _ => .pure

/-- The entries of the list of a node are read if its attributes were not worked out before. -/
theorem quiet_addAllListed (hcall : Hushed x call) (hc : c.Distinct x) {n : NodeId}
    (hn : c.attributeCache.lookup n = none) (s : AttributeSet) :
    Quiet c x k (addAllListed call n s) := by
  refine .arena_bind fun d hd => ?_
  have hentries := hd.tree.attributeEntries n
  rw [Arena.attributeEntries] at hentries
  split
  · exact .pure
  · next list hlist =>
    rw [hlist] at hentries
    dsimp only at hentries
    rw [hentries]
    exact .withLock (.foldlM fun s e he => hcall.addListed c k n e s hc (.inl ⟨n, hn, he⟩))

theorem quiet_addInherited (hcall : Hushed x call) (hc : c.Distinct x) (n : NodeId)
    (s : AttributeSet) : Quiet c x k (addInherited call n s) := by
  refine .arena_bind fun _ _ => ?_
  split
  · exact .pure
  · split
    · exact .pure
    · exact .bind (hcall.effectiveAttributes c k _ hc) fun _ => .pure

theorem quiet_dropNative (n : NodeId) (written : Bool) (s : AttributeSet) :
    Quiet c x k (dropNative n written s) := by
  refine .arena_bind fun _ _ => ?_
  split
  · dsimp only
    split
    · exact .bind (.error (by decide) _ _) fun _ => .pure
    · exact .pure
  · exact .pure

theorem quiet_remember (n : NodeId) (s : AttributeSet) : Quiet c x k (remember n s) := by
  refine Yields.modify fun d hd => ?_
  refine ⟨hd.tree, hd.globalImport, hd.systemImport, hd.nativeImport, fun m hm => ?_, hd.reports⟩
  dsimp only at hm
  rw [List.lookup_cons] at hm
  split at hm
  · cases hm
  · exact hd.cache m hm

/-- The attributes of a node and of those around it are worked out quietly. -/
theorem quiet_effectiveAttributes (hcall : Hushed x call) (hc : c.Distinct x) (n : NodeId) :
    Quiet c x k (effectiveAttributes call n) := by
  refine .get_bind fun d hd => ?_
  split
  · exact .pure
  · next hn =>
    refine .bind (quiet_remember n _) fun _ => ?_
    split
    · exact .pure
    · refine .bind (quiet_addAllListed hcall hc (hd.cache n hn) _) fun listed => ?_
      refine .bind (quiet_addInherited hcall hc n listed) fun s => ?_
      refine .bind (quiet_dropNative n _ s) fun s => ?_
      exact .bind (quiet_remember n s) fun _ => .pure

theorem quiet_hasAttribute (hcall : Hushed x call) (hc : c.Distinct x) (n : NodeId)
    (t : Attribute) : Quiet c x k (hasAttribute call n t) :=
  .bind (hcall.effectiveAttributes c k n hc) fun _ => .pure

/-! ## Classes -/

theorem quiet_isConstructor (hcall : Hushed x call) (hc : c.Distinct x) (f : NodeId) :
    Quiet c x k (isConstructor call f) := by
  refine .arena_bind fun _ _ => ?_
  extract_lets around none_ class_
  have hclass : Quiet c x k (class_ ()) := by
    dsimp only [class_, none_]
    clear_value around
    cases around with
    | none =>
      refine .bind (quiet_hasAttribute hcall hc f _) fun b => ?_
      split
      · exact .bind (.error (by decide) _ _) fun _ => .pure
      · exact .pure
    | some y =>
      dsimp only
      split
      · exact .pure
      · refine .bind (quiet_hasAttribute hcall hc f _) fun b => ?_
        split
        · exact .pure
        · exact .pure
  split
  · exact .bind .internal fun _ => hclass
  · exact hclass

/-- The name of a type is looked up only if it was not tried before. -/
theorem quiet_linkType (hcall : Hushed x call) (hc : c.Distinct x) {ty : NodeId}
    (hlt : ty.index < c.arena.size) (hty : c.arena.Untried ty → c.arena.Apart x ty) :
    Quiet c x k (linkType call ty) := by
  refine .arena_bind fun d hd => ?_
  dsimp only
  split
  · exact .pure
  · next hnew =>
    simp only [ne_eq, Bool.or_eq_true, Bool.and_eq_true, decide_eq_true_eq, not_or, not_and,
      not_not, Bool.not_eq_true, Option.isSome_eq_false_iff, Option.isNone_iff_eq_none] at hnew
    have hinst := hd.link_none hnew.1
    refine .ask_bind fun typed e he hflag => ?_
    split
    · exact .pure
    · next htyped =>
      have huntried : c.arena.Untried ty := by
        refine ⟨?_, hinst, ?_⟩
        · rw [← hd.tree.kind ty hlt]
          exact or_iff_not_imp_left.2 hnew.2
        · by_contra hset
          obtain ⟨_, -, hvalue⟩ := bind_eq_ok_iff.1 hflag
          rw [he.tree.flags ty _ (by simpa using hset)] at hvalue
          exact htyped (Except.ok.inj hvalue).symm
      refine .bind (.setFlag ty (by decide)) fun _ => ?_
      refine .bind (hcall.resolveName c k ty ty {} hc hlt (hty huntried)) fun o => ?_
      cases o with
      | none => exact .error (by decide) _ _
      | some object =>
        refine .arena_bind fun _ _ => ?_
        split
        · exact .setLink hinst _
        · exact .error (by decide) _ _

theorem quiet_linkedClass (hcall : Hushed x call) (hc : c.Distinct x) {ty : NodeId}
    (hlt : ty.index < c.arena.size) (hty : c.arena.Untried ty → c.arena.Apart x ty) :
    Quiet c x k (linkedClass call ty) :=
  .bind (quiet_linkType hcall hc hlt hty) fun _ => .arena_bind fun _ _ => .pure

/-- The names of super classes are spelt otherwise than the name that is watched. -/
theorem quiet_linkedSuper (hcall : Hushed x call) (hc : c.Distinct x) {name s : NodeId}
    (hname : name ∈ c.arena.superNames s) : Quiet c x k (linkedClass call name) := by
  obtain ⟨p, hp⟩ := Arena.mem_children_of_superNames hname
  exact quiet_linkedClass hcall hc (hc.consistent.child_lt p name hp)
    fun h => hc.consults name (.super hname h)

theorem quiet_anyDerivedFrom (hcall : Hushed x call) (hc : c.Distinct x) (base s : NodeId)
    (names : List NodeId) (hnames : ∀ name ∈ names, name ∈ c.arena.superNames s) :
    Quiet c x k (anyDerivedFrom call base names) := by
  induction names with
  | nil => exact .pure
  | cons name names ih =>
    have hrest := ih fun name hname => hnames name (List.mem_cons_of_mem _ hname)
    refine .bind (quiet_linkedSuper hcall hc (hnames name List.mem_cons_self)) fun o => ?_
    cases o with
    | none => exact hrest
    | some y =>
      refine .bind (hcall.isDerivedFrom c k y base hc) fun b => ?_
      split
      · exact .pure
      · exact hrest

/-- Derivation looks up no other names than those of super classes. -/
theorem quiet_isDerivedFrom (hcall : Hushed x call) (hc : c.Distinct x)
    (derived base : NodeId) : Quiet c x k (isDerivedFrom call derived base) := by
  rw [isDerivedFrom]
  split
  · exact .pure
  · refine .arena_bind fun d hd => ?_
    rw [hd.tree.superNames hc.consistent]
    exact quiet_anyDerivedFrom hcall hc base derived _ fun _ => id

theorem quiet_isMemberDerivedFrom (hcall : Hushed x call) (hc : c.Distinct x)
    (derived member : NodeId) : Quiet c x k (isMemberDerivedFrom call derived member) := by
  refine .arena_bind fun _ _ => ?_
  dsimp only
  split
  · exact .bind (hcall.isDerivedFrom c k _ _ hc) fun _ => .pure
  · exact .pure

/-! ## Types of functions -/

theorem quiet_createVoid (n : NodeId) : Quiet c x k (createReplacement n .void) := by
  refine Yields.of_exec fun d y e hd hr => ?_
  rw [createReplacement, exec_checked] at hr
  cases hr
  exact hd.arena (hd.tree.push (.inr rfl) rfl rfl rfl (FlagSet.contains_empty _))

/-- A name that is made up is looked up from the context in which that happens. -/
theorem quiet_createName {n : NodeId} {name : String} {f : NodeId → Search β} (hname : name ≠ x)
    (hf : ∀ e id, Tracked c x k e → id.index < e.arena.size → e.arena.Apart x id →
      Quiet e x k (f id)) :
    Quiet c x k (do
      let id ← createReplacement n .identifier
      change fun a => a.setText id name
      f id) := by
  refine Yields.of_exec fun d y e hd hr => ?_
  rw [exec_bind, createReplacement, exec_checked] at hr
  dsimp only at hr
  rw [exec_bind, exec_change] at hr
  cases hb : ((d.arena.createReplacement n .identifier).2.setText
      (d.arena.createReplacement n .identifier).1 name) with
  | error refusal =>
    rw [hb] at hr
    cases hr
  | ok b =>
    rw [hb] at hr
    obtain ⟨-, rfl⟩ := Arena.setText_eq_ok hb
    dsimp only at hr
    rw [Arena.createReplacement, Arena.create, Arena.update_push] at hr
    have hnew := hd.arena (hd.tree.push
      (d := { kind := .identifier, position := d.arena.position n, text := name })
      (.inl rfl) rfl rfl rfl (FlagSet.contains_empty _))
    have hnode := (Arena.node_push d.arena
      { kind := .identifier, position := d.arena.position n, text := name }
      (d.arena.push { kind := .identifier, position := d.arena.position n }).1).trans (if_pos rfl)
    refine hnew.trans ((hf _ _ hnew ?_ (.name ?_ ?_)).of_ok ⟨.refl hnew.tree.consistent, rfl, rfl,
      rfl, fun _ => id, hnew.reports⟩ hr)
    · rw [Arena.size_push]
      exact Nat.lt_succ_self _
    · rw [Arena.kind, hnode]
      exact (by decide : Kind.identifier ≠ .member)
    · rw [Arena.name, Arena.kind, hnode]
      exact hname

theorem quiet_resolveInternalType (hcall : Hushed x call) (hc : c.Distinct x) (n : NodeId) :
    Quiet c x k (resolveInternalType call n "Object") := by
  refine quiet_createName hc.object.symm fun e id he hlt hid => ?_
  refine .bind (.withLock (hcall.resolveName e k n id {} (he.distinct hc) hlt hid)) fun o => ?_
  cases o with
  | none => exact .bind (.fatal (by decide) _ _) fun _ => .fail
  | some found => exact .pure

theorem quiet_markType (e : NodeId) :
    Quiet c x k (edit (Edit.setAttributeTree e .type true)) := by
  refine Yields.of_exec fun d y d' hd hr => ?_
  have hkeeps : Keeps (fun b => c.arena.Endures b) (Edit.setAttributeTree e .type true) :=
    Keeps.get_bind fun _ _ => Keeps.foldlM fun _ _ _ =>
      Keeps.bind (Edit.keeps_checked fun _ _ _ ha hb => ha.setType hb) fun _ => Keeps.pure
  have hb := hkeeps.state hd.tree
  rw [exec_edit] at hr
  change c.arena.Endures ((Edit.setAttributeTree e .type true).exec d.arena).2 at hb
  cases hedit : (Edit.setAttributeTree e .type true).exec d.arena with
  | mk r b =>
    rw [hedit] at hr hb
    cases r with
    | ok y => cases hr; exact hd.arena hb
    | error refusal => cases hr

theorem quiet_resolveDeclaredType (hcall : Hushed x call) (hc : c.Distinct x) {e : NodeId}
    (hlt : e.index < c.arena.size) (he : c.arena.Apart x e) :
    Quiet c x k (resolveDeclaredType call e) := by
  refine .bind (quiet_markType e) fun _ => .arena_bind fun _ _ => ?_
  dsimp only
  split
  · exact hcall.resolveName c k e e {} hc hlt he
  · exact .pure

/-- The declared type of a function is spelt otherwise, and so is the type that it has without
one. -/
theorem quiet_defineFunctionType (hcall : Hushed x call) (hc : c.Distinct x) (f : NodeId) :
    Quiet c x k (defineFunctionType call f) := by
  refine .arena_bind fun d hd => ?_
  split
  · exact .pure
  · next hnone =>
    rw [Bool.not_eq_true, Option.isSome_eq_false_iff, Option.isNone_iff_eq_none] at hnone
    have htype : c.arena.typeNode f = none := hd.link_none hnone
    have hset : ∀ ty, Quiet c x k (do
        write fun a => a.setLink f .typeNode (some ty); return true : Search Bool) := fun ty =>
      .bind (.setLink htype _) fun _ => .pure
    dsimp only
    split
    · exact .ask
    · refine .withLock (.arena_bind fun e he => ?_)
      rw [he.tree.declaredType hc.consistent]
      split
      · refine .bind (quiet_isConstructor hcall hc f) fun o => ?_
        split
        · exact .bind (quiet_createVoid f) hset
        · exact .bind (quiet_resolveInternalType hcall hc f) hset
      · next ty hty =>
        obtain ⟨p, hp⟩ := Arena.mem_children_of_declaredType hty
        refine .bind (quiet_resolveDeclaredType hcall hc (hc.consistent.child_lt p ty hp)
          (hc.consults ty (.declared hty htype))) fun o => ?_
        cases o with
        | none => exact .pure
        | some ty => exact hset ty

/-- A function that is tried without arguments reports nothing about the name. -/
theorem quiet_checkFunction (hcall : Hushed x call) (hc : c.Distinct x) (f : NodeId)
    (name : String) (mode : SearchMode) :
    Quiet c x k (checkFunction call f name none mode) := by
  refine .bind (quiet_hasAttribute hcall hc f _) fun b => ?_
  split
  · exact .pure
  · refine .ask_bind fun getter _ _ _ => .ask_bind fun setter _ _ _ => ?_
    extract_lets expected
    clear_value expected
    refine .arena_bind fun _ _ => ?_
    have htyped : Quiet c x k (do
        let _ ← defineFunctionType call f
        return some f : Search (Option NodeId)) :=
      .bind (quiet_defineFunctionType hcall hc f) fun _ => .pure
    split
    · exact .pure
    · dsimp only [Option.isNone_none]
      rw [if_pos rfl]
      split
      · refine .bind (quiet_isConstructor hcall hc f) fun o => ?_
        split
        · exact .nameOf_bind fun _ _ => .bind (.error (by decide) _ _) fun _ => .pure
        · exact htyped
      · exact htyped

end SymbolTree.Search
