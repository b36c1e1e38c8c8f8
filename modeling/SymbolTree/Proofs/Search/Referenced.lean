import SymbolTree.Proofs.Search.Balance

/-!
# The packages to be compiled

A package that is used for the first time is marked and put on a list.  These are two writes, made by
searches that nest in each other and may fail before, between and after them, and yet the mark and
the list never disagree: the list names each marked package once, and it only ever grows at its end
(`Search.Queued`).

The trees themselves have to be free of the mark when they are built (`Outline.Unmarked`), since a
package that comes with the mark is never put on the list.

## Main statements

* `Search.Course.enqueues` — what a search does to the list and to the marks.
* `Search.Task.continues` — the same for everything that a compiler does, indexing included.
* `Search.advances_queued` — after any number of steps the list names what is marked, each once.
-/

set_option autoImplicit false
namespace SymbolTree

/-! ## Marked packages -/

namespace Arena

/-- The node is a package that is marked as used. -/
def Referenced (a : Arena) (p : NodeId) : Prop :=
  a.kind p = .package ∧ (a.node p).flags.contains .packageReferenced = true

variable {a b : Arena} {n p : NodeId}

theorem referenced_of_nodes (h : b.nodes = a.nodes) : b.Referenced p ↔ a.Referenced p := by
  rw [Referenced, Referenced, kind, kind, node, node, h]

theorem referenced_update {f : Node → Node}
    (hf : ∀ d : Node, (f d).kind = d.kind ∧ (f d).flags = d.flags) :
    (a.update n f).Referenced p ↔ a.Referenced p := by
  have hkind : (a.update n f).kind p = a.kind p := field_update Node.kind (hf _).1 p
  rw [Referenced, Referenced, hkind, field_update Node.flags (hf _).2]

theorem referenced_push {d : Node} (hd : d.flags = .empty) :
    (a.push d).2.Referenced p ↔ a.Referenced p := by
  rw [Referenced, Referenced, kind, kind, node_push]
  split
  · next hp =>
    rw [node_of_size_le (Nat.le_of_eq hp.symm), hd]
    constructor
    · rintro ⟨-, h⟩
      simp at h
    · rintro ⟨h, -⟩
      cases h
  · rfl

/-- A flag other than the mark of a used package leaves the marks alone, and so does any flag of a
node that is no package. -/
theorem referenced_setFlag {f : Flag} {v : Bool} (hf : a.kind n = .package → f ≠ .packageReferenced)
    (h : a.setFlag n f v = .ok b) : b.Referenced p ↔ a.Referenced p := by
  obtain ⟨-, -, rfl⟩ := setFlag_eq_ok_iff.1 h
  rw [Referenced, Referenced, kind, kind, node_update]
  split
  · next hp =>
    refine and_congr_right fun hk => ?_
    rw [FlagSet.contains_set, if_neg (hf (hp.1 ▸ hk)).symm]
  · rfl

theorem referenced_mark (h : a.setFlag n .packageReferenced true = .ok b) :
    b.Referenced p ↔ a.Referenced p ∨ p = n := by
  obtain ⟨haccepts, hmod, rfl⟩ := setFlag_eq_ok_iff.1 h
  have hk : a.kind n = .package := by
    simpa [Flag.accepts, Flag.kinds] using haccepts
  rw [Referenced, Referenced, kind, kind, node_update]
  by_cases hp : p = n
  · subst hp
    rw [if_pos ⟨rfl, lt_size_of_modifying hmod⟩, FlagSet.contains_set, if_pos rfl]
    exact ⟨fun _ => .inr rfl, fun _ => ⟨hk, rfl⟩⟩
  · rw [if_neg fun h => hp h.1]
    exact ⟨.inl, fun h => h.resolve_right hp⟩

theorem referenced_detach (c : NodeId) : (a.detach c).Referenced p ↔ a.Referenced p := by
  rw [detach]
  split
  · rfl
  · refine (referenced_update ?_).trans (referenced_update ?_) <;> exact fun _ => ⟨rfl, rfl⟩

theorem referenced_setParent {c : NodeId} {q : Option NodeId} {i : Option Nat}
    (h : a.setParent c q i = .ok b) : b.Referenced p ↔ a.Referenced p := by
  obtain ⟨-, -, -, h⟩ := setParent_eq_ok h
  obtain ⟨-, -, rfl⟩ | ⟨-, -, -, rfl⟩ := relocate_eq_ok h
  · rfl
  · cases q with
    | none => exact referenced_detach c
    | some q =>
      refine ((referenced_update ?_).trans (referenced_update ?_)).trans (referenced_detach c) <;>
        exact fun _ => ⟨rfl, rfl⟩

theorem referenced_discard (h : a.discard n = .ok b) : b.Referenced p ↔ a.Referenced p := by
  obtain ⟨-, rfl⟩ | ⟨-, -, -, rfl⟩ := discard_eq_ok h
  · rfl
  · rw [Referenced, Referenced, kind, kind, node_foldl_kill]

theorem referenced_setAttribute {t : Attribute} {v r : Bool}
    (h : a.setAttribute n t v = .ok (r, b)) : b.Referenced p ↔ a.Referenced p := by
  obtain ⟨-, -, rfl | rfl⟩ := setAttribute_eq_ok h
  · rfl
  · exact referenced_update fun _ => ⟨rfl, rfl⟩

end Arena

/-! ## Trees without marks -/

/-- No package of the outline is marked as used. -/
inductive Outline.Unmarked : Outline → Prop
  | unreadable (reason : String) : (Outline.unreadable reason).Unmarked
  | tree {root : NodeOutline} {attributeNode : Option Outline} {children : List Outline}
      (hroot : root.kind = .package → .packageReferenced ∉ root.flags)
      (hattributes : ∀ o, attributeNode = some o → o.Unmarked)
      (hchildren : ∀ o ∈ children, o.Unmarked) : (Outline.tree root attributeNode children).Unmarked

namespace Draft

/-- The packages that are marked in the draft are those of an arena. -/
def MarkedAs (a : Arena) (s : Draft) : Prop := ∀ p, s.arena.Referenced p ↔ a.Referenced p

/-- So they are while a node of a kind is being filled in. -/
def FillsIn (a : Arena) (n : NodeId) (k : Kind) (s : Draft) : Prop :=
  s.MarkedAs a ∧ s.arena.kind n = k

theorem FillsIn.update {a : Arena} {n : NodeId} {k : Kind} {s : Draft} (h : s.FillsIn a n k)
    {f : Node → Node} (hf : ∀ d : Node, (f d).kind = d.kind ∧ (f d).flags = d.flags) :
    FillsIn a n k { s with arena := s.arena.update n f } := by
  exact ⟨fun q => (Arena.referenced_update hf).trans (h.1 q),
    (Arena.field_update Node.kind (hf _).1 n).trans h.2⟩

end Draft

namespace Build

variable {a : Arena} {I : Draft → Prop}

theorem keeps_markedAs {f : Arena → Except NodeError Arena}
    (h : ∀ b c p, f b = .ok c → (c.Referenced p ↔ b.Referenced p)) :
    Keeps (Draft.MarkedAs a) (change f) :=
  keeps_change fun s b hs hb p => (h s.arena b p hb).trans (hs p)

/-- A node that was just created is of its kind and has no mark. -/
theorem create_markedAs (k : Kind) (p : Position) (label : Option String) :
    Ensures (Draft.MarkedAs a) (create k p label) (fun n => Draft.FillsIn a n k)
      fun _ => Draft.MarkedAs a := by
  refine fun s hs => ⟨fun q => (Arena.referenced_push rfl).trans (hs q), ?_⟩
  change ((s.arena.push { kind := k, position := p }).2.node ⟨s.arena.size⟩).kind = k
  rw [Arena.node_push, if_pos rfl]

end Build

section

variable {a : Arena}

/-- A flag of the outline is the mark of a used package only on a node that is no package. -/
theorem NodeOutline.keeps_markedAs (root : NodeOutline) (p : Position)
    (hroot : root.kind = .package → .packageReferenced ∉ root.flags) :
    Keeps (Draft.MarkedAs a) (root.build p) := by
  refine (Build.create_markedAs root.kind p root.label).bind fun n => ?_
  have hoption : ∀ {α : Type} {f : α → Arena → Except NodeError Arena} (x : Option α),
      (∀ x, Keeps (Draft.FillsIn a n root.kind) (Build.change (f x))) →
      Keeps (Draft.FillsIn a n root.kind) (x.forM fun x => Build.change (f x)) := by
    intro α f x hf
    cases x with
    | none => exact Keeps.pure
    | some x => exact hf x
  suffices h : Keeps (Draft.FillsIn a n root.kind) _ from
    h.mono (fun _ h => h) (fun _ _ h => h.1) fun _ _ h => h.1
  refine Keeps.bind (hoption root.text fun x => Build.keeps_change fun s b hs hb => ?_) fun _ => ?_
  · rw [(Arena.setText_eq_ok hb).2]
    exact hs.update fun _ => ⟨rfl, rfl⟩
  refine Keeps.bind (hoption root.int fun x => Build.keeps_change fun s b hs hb => ?_) fun _ => ?_
  · rw [Arena.setInt64_eq_ok hb]
    exact hs.update fun _ => ⟨rfl, rfl⟩
  refine Keeps.bind (hoption root.float fun x => Build.keeps_change fun s b hs hb => ?_) fun _ => ?_
  · rw [Arena.setFloat64_eq_ok hb]
    exact hs.update fun _ => ⟨rfl, rfl⟩
  refine Keeps.bind (Keeps.forM fun f hf => Build.keeps_change fun s b hs hb => ?_) fun _ => ?_
  · have hmark : s.arena.kind n = .package → f ≠ .packageReferenced := fun hk he =>
      hroot (hs.2 ▸ hk) (he ▸ hf)
    refine ⟨fun q => (Arena.referenced_setFlag hmark hb).trans (hs.1 q), ?_⟩
    obtain ⟨-, -, rfl⟩ := Arena.setFlag_eq_ok_iff.1 hb
    exact (Arena.field_update Node.kind rfl n).trans hs.2
  refine Keeps.bind (Keeps.forM fun t _ => Build.keeps_change fun s b hs hb => ?_) fun _ =>
    Keeps.pure
  obtain ⟨r, hr, rfl⟩ := map_eq_ok_iff.1 hb
  obtain ⟨-, -, he | he⟩ := Arena.setAttribute_eq_ok hr
  · rw [he]
    exact hs
  · rw [he]
    exact hs.update fun _ => ⟨rfl, rfl⟩

mutual

theorem Outline.keeps_markedAs : ∀ (o : Outline) (p : Position), o.Unmarked →
    Keeps (Draft.MarkedAs a) (o.build p)
  | .unreadable _, _, _ => by
    rw [Outline.build]
    exact Keeps.throw
  | .tree root attributeNode children, p, h => by
    rw [Outline.build]
    cases h with
    | tree hroot hattributes hchildren =>
      refine Keeps.bind (Build.keeps_check _) fun p => ?_
      refine Keeps.bind (root.keeps_markedAs p hroot) fun n => ?_
      refine Keeps.bind ?_ fun _ => Keeps.bind ?_ fun _ => Keeps.pure
      · exact Outline.keeps_markedAs_attributeNode attributeNode p n hattributes
      · exact Outline.keeps_markedAs_children children p n hchildren

theorem Outline.keeps_markedAs_attributeNode : ∀ (o : Option Outline) (p : Position) (n : NodeId),
    (∀ q, o = some q → q.Unmarked) →
    Keeps (Draft.MarkedAs a) (Outline.buildAttributeNode o p n)
  | none, _, _, _ => by
    rw [Outline.buildAttributeNode]
    exact Keeps.pure
  | some o, p, n, h => by
    rw [Outline.buildAttributeNode]
    refine Keeps.bind (Outline.keeps_markedAs o p (h o rfl)) fun m => ?_
    refine Build.keeps_markedAs fun b c q hb => ?_
    rw [Arena.setAttributeNode_eq_ok hb]
    exact Arena.referenced_update fun _ => ⟨rfl, rfl⟩

theorem Outline.keeps_markedAs_children : ∀ (os : List Outline) (p : Position) (n : NodeId),
    (∀ o ∈ os, o.Unmarked) → Keeps (Draft.MarkedAs a) (Outline.buildChildren os p n)
  | [], _, _, _ => by
    rw [Outline.buildChildren]
    exact Keeps.pure
  | o :: os, p, n, h => by
    rw [Outline.buildChildren]
    refine Keeps.bind (Outline.keeps_markedAs o p (h o List.mem_cons_self)) fun m => ?_
    refine Keeps.bind (Build.keeps_markedAs fun b c q hb => Arena.referenced_setParent hb) fun _ => ?_
    exact Outline.keeps_markedAs_children os p n fun o ho => h o (List.mem_cons_of_mem _ ho)

end

/-- A tree without marks marks no package when it is built, be it in whole or in part. -/
theorem Outline.Unmarked.referenced {o : Outline} (h : o.Unmarked) (p : Position) (q : NodeId) :
    (StateT.run (ExceptT.run (o.build p)) { arena := a }).2.arena.Referenced q
      ↔ a.Referenced q :=
  (Outline.keeps_markedAs o p h).state (s := { arena := a }) (fun _ => .rfl) q

end

/-! ## The list and the marks -/

namespace Search

/-- The list of packages to compile names each marked package once and nothing else. -/
structure Queued (c : Context) : Prop where
  /-- No package is listed twice. -/
  nodup : c.compiledPackages.Nodup
  /-- The listed packages are the marked ones. -/
  mem_iff : ∀ p, p ∈ c.compiledPackages ↔ c.arena.Referenced p

/-- No package of a module is marked when the module is loaded, nor is one that is left over of a
source that was refused. -/
def LoadsUnmarked (c : Context) : Prop :=
  ∀ source o, (c.parser source).outline = some o → o.Unmarked

/-- What becomes of the list and of the marks on the way from one context to another. -/
structure Enqueues (c d : Context) : Prop where
  /-- Modules are read as before. -/
  parser : d.parser = c.parser
  /-- The list only grows, and at its end. -/
  grows : c.compiledPackages <+: d.compiledPackages
  /-- The list names what is marked if it did before. -/
  queued : LoadsUnmarked c → Queued c → Queued d

theorem Queued.of_marks {c d : Context} (h : Queued c)
    (hl : d.compiledPackages = c.compiledPackages)
    (hm : ∀ p, d.arena.Referenced p ↔ c.arena.Referenced p) : Queued d := by
  refine ⟨hl ▸ h.nodup, fun p => ?_⟩
  rw [hl, hm p]
  exact h.mem_iff p

/-- A package without the mark is not listed, so that it may be marked and listed. -/
theorem Queued.mark {c : Context} (h : Queued c) {b : Arena} {p : NodeId}
    (hp : (c.arena.node p).flags.contains .packageReferenced = false)
    (hb : c.arena.setFlag p .packageReferenced true = .ok b) :
    Queued { c with arena := b, compiledPackages := c.compiledPackages ++ [p] } := by
  have hnew : p ∉ c.compiledPackages := fun hmem => by
    have := ((h.mem_iff p).1 hmem).2
    rw [hp] at this
    cases this
  refine ⟨List.nodup_append.2 ⟨h.nodup, by simp, fun q hq r hr => ?_⟩, fun q => ?_⟩
  · rw [List.mem_singleton.1 hr]
    exact fun he => hnew (he ▸ hq)
  · rw [List.mem_append, List.mem_singleton, h.mem_iff q]
    exact (Arena.referenced_mark hb).symm

namespace Enqueues

variable {c d e : Context}

/-- What leaves the list and the marks as they are. -/
theorem of_same (hp : d.parser = c.parser) (hl : d.compiledPackages = c.compiledPackages)
    (hm : LoadsUnmarked c → ∀ p, d.arena.Referenced p ↔ c.arena.Referenced p) : Enqueues c d :=
  ⟨hp, hl ▸ List.prefix_rfl, fun hload h => h.of_marks hl (hm hload)⟩

/-- What leaves the list and the nodes as they are. -/
theorem of_nodes (hp : d.parser = c.parser) (hl : d.compiledPackages = c.compiledPackages)
    (hn : d.arena.nodes = c.arena.nodes) : Enqueues c d :=
  of_same hp hl fun _ _ => Arena.referenced_of_nodes hn

theorem refl (c : Context) : Enqueues c c := of_nodes rfl rfl rfl

theorem trans (h : Enqueues c d) (h' : Enqueues d e) : Enqueues c e where
  parser := h'.parser.trans h.parser
  grows := h.grows.trans h'.grows
  queued hload hc := h'.queued (fun source o ho => hload source o (h.parser ▸ ho)) (h.queued hload hc)

/-- What is set aside before and put back afterwards makes no difference. -/
theorem within {c' d' : Context} (h : Enqueues c' d') (hc : Enqueues c c') (hd : Enqueues d' d) :
    Enqueues c d :=
  (hc.trans h).trans hd

end Enqueues

variable {params : Option NodeId} {c d : Context}

theorem Effect.referenced {a b : Arena} (h : Effect params a b) (p : NodeId) :
    b.Referenced p ↔ a.Referenced p := by
  cases h with
  | flag hf h => exact Arena.referenced_setFlag (fun _ => Flag.ne_of_isTrace hf) h
  | typed h => exact Arena.referenced_setAttribute h
  | label h =>
    obtain ⟨-, -, -, rfl⟩ := Arena.addLabel_eq_ok h
    exact Arena.referenced_update fun _ => ⟨rfl, rfl⟩
  | table n f g => exact Arena.referenced_update fun _ => ⟨rfl, rfl⟩
  | create q s i hk => exact Arena.referenced_push rfl
  | append hp hk hm h => exact Arena.referenced_setParent h
  | detach hp hk hm h => exact Arena.referenced_setParent h
  | discard hp hk h => exact Arena.referenced_discard h

/-- **A search puts on the list what it marks, and nothing else**, however it ends. -/
theorem Course.enqueues (h : Course params c d) : Enqueues c d := by
  induction h with
  | refl c => exact .refl c
  | trans _ _ ih ih' => exact ih.trans ih'
  | effect h => exact .of_same rfl rfl fun _ => h.referenced
  | build p h => exact .of_same rfl rfl fun hload => (hload _ _ h).referenced p
  | reference hp h => exact ⟨rfl, List.prefix_append _ _, fun _ hc => hc.mark hp h⟩
  | aside => exact .of_nodes rfl rfl rfl
  | reject => exact .of_nodes rfl rfl rfl
  | remember => exact .of_nodes rfl rfl rfl
  | link t hl h hd ih =>
    refine ih.trans (.of_same rfl rfl fun _ p => Arena.referenced_update fun d => ?_)
    rcases hl with rfl | rfl <;> exact ⟨rfl, rfl⟩
  | attributes s h hd ih => exact ih.within (.of_nodes rfl rfl rfl) (.of_nodes rfl rfl rfl)
  | lock hd ih =>
    exact ih.within (.of_nodes rfl rfl rfl) (.of_nodes rfl rfl (Arena.nodes_drop _ _))
  | fresh hd ih => exact ih.within (.of_nodes rfl rfl rfl) (.of_nodes rfl rfl rfl)
  | expand hd ih => exact ih.within (.of_nodes rfl rfl rfl) (.of_nodes rfl rfl rfl)

/-! ## Everything that a compiler does -/

/-- One context was reached from another by putting on the list what was marked. -/
structure Continues (c d : Context) : Prop extends Enqueues c d where
  /-- The tree is consistent. -/
  consistent : d.arena.Consistent

section

variable {α : Type} {c : Context}

theorem Follows.continues {p : Search α} (params : Option NodeId) (h : Follows params p) :
    Keeps (Continues c) p :=
  Keeps.of_state fun d hd =>
    have hcourse := h.course d hd.consistent
    ⟨hd.trans hcourse.enqueues, hcourse.consistent hd.consistent⟩

/-- What is changed besides the tree, the list and the parser makes no difference. -/
theorem keeps_continues_modify {f : Context → Context}
    (hf : ∀ d, (f d).arena = d.arena ∧ (f d).compiledPackages = d.compiledPackages ∧
      (f d).parser = d.parser) : Keeps (Continues c) (modify f : Search Unit) :=
  Keeps.modify fun d hd =>
    ⟨hd.trans (.of_nodes (hf d).2.2 (hf d).2.1 (by rw [(hf d).1])), (hf d).1 ▸ hd.consistent⟩

theorem keeps_continues_options : Keeps (Continues c) options := by
  refine Keeps.get_bind fun d _ => ?_
  split
  · exact Keeps.pure
  · split
    · exact Keeps.bind (keeps_continues_modify fun _ => ⟨rfl, rfl, rfl⟩) fun _ => Keeps.pure
    · exact Keeps.throw

theorem keeps_continues_loadModule (module_ file : String) :
    Keeps (Continues c) (loadModule module_ file) :=
  Keeps.bind keeps_continues_options fun _ => (follows_findModule _).continues none

theorem keeps_continues_addEntry {call : Call} (hcall : Faithful call) (e : Arena.Entry) :
    Keeps (Continues c) (addEntry call e) := by
  have hattribute : ∀ t, Keeps (Continues c) (hasAttribute call e.node t) := fun t =>
    (follows_hasAttribute hcall e.node t).continues none
  refine Keeps.bind (hattribute _) fun b => ?_
  split
  · exact Keeps.pure
  refine Keeps.bind (hattribute _) fun b => ?_
  split
  · exact Keeps.pure
  refine Keeps.bind (hattribute _) fun b => ?_
  split
  · exact Keeps.pure
  refine Keeps.get_bind fun d _ => ?_
  dsimp only
  split
  · exact keeps_continues_modify fun _ => ⟨rfl, rfl, rfl⟩
  · exact Keeps.throw

theorem keeps_continues_indexPackages {call : Call} (hcall : Faithful call) (program : NodeId) :
    Keeps (Continues c) (indexPackages call program) :=
  Keeps.bind (Follows.arena.continues none) fun _ =>
    Keeps.forM fun e _ => keeps_continues_addEntry hcall e

theorem keeps_continues_loadInternalPackages {call : Call} (hcall : Faithful call)
    (module_ : String) : Keeps (Continues c) (loadInternalPackages call module_) := by
  refine Keeps.bind keeps_continues_options fun o => Keeps.get_bind fun d _ => ?_
  split
  · exact Keeps.bind ((Follows.fatalAt ..).continues none) fun _ => Keeps.throw
  · refine Keeps.forM fun name _ => Keeps.bind (keeps_continues_loadModule module_ name) fun p => ?_
    exact keeps_continues_indexPackages hcall p

theorem keeps_continues_saveDatabase : Keeps (Continues c) saveDatabase := by
  refine Keeps.get_bind fun d _ => ?_
  split
  · exact keeps_continues_modify fun _ => ⟨rfl, rfl, rfl⟩
  · exact Keeps.throw

theorem keeps_continues_internalImports {call : Call} (hcall : Faithful call) :
    Keeps (Continues c) (internalImports call) := by
  refine Keeps.get_bind fun d _ => ?_
  extract_lets finish load
  have hfinish : ∀ u, Keeps (Continues c) (finish u) := fun _ =>
    keeps_continues_modify fun _ => ⟨rfl, rfl, rfl⟩
  have hload : ∀ u, Keeps (Continues c) (load u) := by
    intro u
    refine Keeps.bind keeps_continues_options fun o => Keeps.get_bind fun d _ => ?_
    dsimp only
    refine Keeps.bind (keeps_continues_modify fun _ => ⟨rfl, rfl, rfl⟩) fun _ => ?_
    split
    · refine Keeps.get_bind fun e _ => ?_
      split
      · refine Keeps.bind (keeps_continues_loadInternalPackages hcall _) fun _ => ?_
        exact Keeps.bind keeps_continues_saveDatabase hfinish
      · exact hfinish ()
    · exact (Follows.fatalAt ..).continues none
  split
  · refine Keeps.bind (keeps_continues_loadModule _ _) fun native => ?_
    exact Keeps.bind (keeps_continues_modify fun _ => ⟨rfl, rfl, rfl⟩) hload
  · exact hload ()

end

/-- What a compiler may be asked for. -/
inductive Task where
  | inquiry (q : Inquiry)
  | isConstructor (f : NodeId)
  | defineFunctionType (f : NodeId)
  | checkFunction (f : NodeId) (name : String) (params : Option NodeId) (mode : SearchMode)
  | selectBestFunction (params : Option NodeId)
  | findMember (link field : NodeId) (t : Tally) (params : Option NodeId) (mode : SearchMode)
  | isDerivedFrom (derived base : NodeId)
  | isMemberDerivedFrom (derived member : NodeId)
  | effectiveAttributes (n : NodeId)
  | findModule (filename : String)
  | loadModule (module_ file : String)
  | findExternalPackage (import_ : NodeId) (name : String)
  | findPackageItem (program import_ : NodeId) (name : String) (params : Option NodeId)
      (mode : SearchMode)
  | indexPackages (program : NodeId)
  | loadInternalPackages (module_ : String)
  | internalImports
  | reportRejections (n : NodeId)

namespace Task

/-- The task as a program, its answer forgotten. -/
def run : Task → Search Unit
  | inquiry q => q.run
  | isConstructor f => do let _ ← Search.run (Search.isConstructor · f)
  | defineFunctionType f => do let _ ← Search.run (Search.defineFunctionType · f)
  | checkFunction f name params mode => do
      let _ ← Search.run (Search.checkFunction · f name params mode)
  | selectBestFunction params => do let _ ← Search.run (Search.selectBestFunction · params)
  | findMember link field t params mode => do
      let _ ← Search.run (Search.findMember · link field t params mode)
  | isDerivedFrom derived base => do let _ ← Search.run (Search.isDerivedFrom · derived base)
  | isMemberDerivedFrom derived member => do
      let _ ← Search.run (Search.isMemberDerivedFrom · derived member)
  | effectiveAttributes n => do let _ ← Search.run (Search.effectiveAttributes · n)
  | findModule filename => do let _ ← Search.findModule filename
  | loadModule module_ file => do let _ ← Search.loadModule module_ file
  | findExternalPackage import_ name => do let _ ← Search.findExternalPackage import_ name
  | findPackageItem program import_ name params mode => do
      let _ ← Search.run (Search.findPackageItem · program import_ name params mode)
  | indexPackages program => Search.run (Search.indexPackages · program)
  | loadInternalPackages module_ => Search.run (Search.loadInternalPackages · module_)
  | internalImports => Search.run Search.internalImports
  | reportRejections n => Search.reportRejections n

theorem keeps_continues (t : Task) {c : Context} : Keeps (Continues c) t.run := by
  have hsearch : ∀ (params : Option NodeId) {α : Type} {s : Call → Search α},
      (∀ call, Faithful call → Follows params (s call)) →
      Keeps (Continues c) (do let _ ← Search.run s : Search Unit) := fun params _ _ h =>
    Keeps.bind ((follows_run h).continues params) fun _ => Keeps.pure
  have hindex : ∀ {s : Call → Search Unit},
      (∀ call, Faithful call → Keeps (Continues c) (s call)) →
      Keeps (Continues c) (Search.run s) := fun h =>
    Keeps.get_bind fun d _ => h _ (faithful_answer (fuel d))
  cases t with
  | inquiry q => exact q.follows.continues _
  | isConstructor f => exact hsearch none fun _ h => follows_isConstructor h f
  | defineFunctionType f => exact hsearch none fun _ h => follows_defineFunctionType h f
  | checkFunction f name params mode =>
    exact hsearch none fun _ h => follows_checkFunction h f name params mode
  | selectBestFunction params => exact hsearch params fun _ h => follows_selectBestFunction h
  | findMember link field t params mode =>
    exact hsearch params fun _ h => follows_findMember h link field t mode
  | isDerivedFrom derived base =>
    exact hsearch none fun _ h => follows_isDerivedFrom h derived base
  | isMemberDerivedFrom derived member =>
    exact hsearch none fun _ h => follows_isMemberDerivedFrom h derived member
  | effectiveAttributes n =>
    exact hsearch none fun _ h => follows_effectiveAttributes h n
  | findModule filename =>
    exact Keeps.bind ((follows_findModule filename).continues none) fun _ => Keeps.pure
  | loadModule module_ file =>
    exact Keeps.bind (keeps_continues_loadModule module_ file) fun _ => Keeps.pure
  | findExternalPackage import_ name =>
    exact Keeps.bind ((follows_findExternalPackage import_ name).continues none)
      fun _ => Keeps.pure
  | findPackageItem program import_ name params mode =>
    exact hsearch params fun _ h => follows_findPackageItem h program import_ name mode
  | indexPackages program => exact hindex fun _ h => keeps_continues_indexPackages h program
  | loadInternalPackages module_ =>
    exact hindex fun _ h => keeps_continues_loadInternalPackages h module_
  | internalImports => exact hindex fun _ h => keeps_continues_internalImports h
  | reportRejections n => exact (modular_follows.reportRejections n).continues none

/-- Whatever a compiler is asked for, and whether or not it succeeds, the list gains what was marked
and nothing else. -/
theorem continues (t : Task) {c : Context} (hc : c.arena.Consistent) :
    Continues c (t.run.exec c).2 :=
  t.keeps_continues.state (s := c) ⟨.refl c, hc⟩

end Task

/-! ## One step after the other -/

/-- A step in the life of a context: a task, or something that others do, who neither touch the list
nor set or clear a mark. -/
inductive Advance : Context → Context → Prop
  | task (t : Task) (c : Context) : Advance c (t.run.exec c).2
  | others {c d : Context} (hlist : d.compiledPackages = c.compiledPackages)
      (hmarks : ∀ p, d.arena.Referenced p ↔ c.arena.Referenced p)
      (hload : LoadsUnmarked c → LoadsUnmarked d)
      (hconsistent : c.arena.Consistent → d.arena.Consistent) : Advance c d

/-- What holds from the first step to the last. -/
structure Orderly (c : Context) : Prop where
  /-- The tree is consistent. -/
  consistent : c.arena.Consistent
  /-- Modules come without marks. -/
  loads : LoadsUnmarked c
  /-- The list names what is marked. -/
  queued : Queued c

theorem Orderly.advance {c d : Context} (hc : Orderly c) (h : Advance c d) :
    Orderly d ∧ c.compiledPackages <+: d.compiledPackages := by
  cases h with
  | task t =>
    have h := t.continues hc.consistent
    refine ⟨⟨h.consistent, fun source o ho => ?_, h.queued hc.loads hc.queued⟩, h.grows⟩
    exact hc.loads source o (h.parser ▸ ho)
  | others hlist hmarks hload hconsistent =>
    exact ⟨⟨hconsistent hc.consistent, hload hc.loads, hc.queued.of_marks hlist hmarks⟩,
      hlist ▸ List.prefix_rfl⟩

/-- **Each package is put on the list once.**  From a context in which nothing is listed and nothing
marked, after any number of steps, whether they succeed or fail, the list names the marked packages,
each of them once, and the next step only adds to its end. -/
theorem advances_queued {c d : Context} (hconsistent : c.arena.Consistent)
    (hload : LoadsUnmarked c) (hlist : c.compiledPackages = [])
    (hmarks : ∀ p, ¬ c.arena.Referenced p) (h : Relation.ReflTransGen Advance c d) :
    Queued d ∧ ∀ e, Advance d e → d.compiledPackages <+: e.compiledPackages := by
  have hc : Orderly c := by
    refine ⟨hconsistent, hload, hlist ▸ List.nodup_nil, fun p => ?_⟩
    rw [hlist]
    exact ⟨fun hmem => absurd hmem List.not_mem_nil, fun hp => absurd hp (hmarks p)⟩
  have hd : Orderly d := by
    induction h with
    | refl => exact hc
    | tail _ hstep ih => exact (ih.advance hstep).1
  exact ⟨hd.queued, fun e he => (hd.advance he).2⟩

/-! ### A package that is imported twice -/

/-- A program that declares a package and imports it. -/
def importingHistory : List Command :=
  [.create .program {}, .create .directiveList {}, .create .package {}, .create .import_ {},
   .setText ⟨2⟩ "P", .setText ⟨3⟩ "P", .setFlag ⟨3⟩ .importImplements true,
   .appendChild ⟨0⟩ ⟨1⟩, .appendChild ⟨1⟩ ⟨2⟩, .appendChild ⟨1⟩ ⟨3⟩]

/-- The context of that program.  There are no modules to load. -/
def importingContext : Context :=
  { arena := after importingHistory, program := some ⟨0⟩, parser := fun _ => .rejected }

/-- The import is carried out. -/
def importingTask : Task := .inquiry (.operation (.importPackage ⟨3⟩))

/-- The context after the import was carried out twice. -/
def importedTwice : Context :=
  (importingTask.run.exec (importingTask.run.exec importingContext).2).2

/-- The package is listed once. -/
theorem advances_queued_import :
    importingContext.arena.Consistent ∧ LoadsUnmarked importingContext ∧
      importingContext.compiledPackages = [] ∧ (∀ p, ¬ importingContext.arena.Referenced p) ∧
      Relation.ReflTransGen Advance importingContext importedTwice ∧
      Queued importedTwice ∧ importedTwice.compiledPackages = [⟨2⟩] := by
  have hc : importingContext.arena.Consistent :=
    after_invariant Arena.consistent_empty Command.keeps_consistent importingHistory
  have hload : LoadsUnmarked importingContext := fun _ _ h => by cases h
  have hmarks : ∀ p, ¬ importingContext.arena.Referenced p := by
    rintro p ⟨-, h⟩
    rw [Arena.forall_node (P := fun d => d.flags.contains .packageReferenced = false)
      (by decide +kernel) rfl p] at h
    cases h
  have hsteps : Relation.ReflTransGen Advance importingContext importedTwice :=
    .tail (.tail .refl (.task importingTask _)) (.task importingTask _)
  exact ⟨hc, hload, rfl, hmarks, hsteps, (advances_queued hc hload rfl hmarks hsteps).1,
    by decide +kernel⟩

end Search

end SymbolTree
