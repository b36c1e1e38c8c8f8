import SymbolTree.Proofs.Arena.Command

/-!
# What a request does to an arena

There are many requests but few things that any of them does.  `Arena.Deed` lists the single writes,
and `Command.deeds` says that every request is some of these one after the other, be it granted or
refused.  The three requests that touch locks stand apart (`Command.touchesLocks`): two of them do
nothing else, and the replacement of a node does its deeds while the locks on the parent are set
aside (`Edit.exec_replaceWith`).

So an invariant that holds through each deed holds through each request, and one that does not look
at how often a node is locked holds through all of them (`Command.keeps_of_deeds`).  The first such
invariant is that the tree is consistent: `Deed.consistent` is its case for a single write,
`Command.keeps_consistent` the step and `consistent_after` the run.
-/

set_option autoImplicit false
namespace SymbolTree

/-- Two states of a node that agree in its kind, in the marks on it and in its place. -/
structure Node.SameStanding (d e : Node) : Prop where
  /-- The kind is the same. -/
  kind : e.kind = d.kind
  /-- The flags are the same. -/
  flags : e.flags = d.flags
  /-- The attributes are the same. -/
  attributes : e.attributes = d.attributes
  /-- The parent is the same. -/
  parent : e.parent = d.parent
  /-- The children are the same. -/
  children : e.children = d.children

/-- Two states of a node that differ in its position, its values and its links at most. -/
structure Node.SameButValues (d e : Node) : Prop extends d.SameStanding e where
  /-- The attribute node is the same. -/
  attributeNode : e.attributeNode = d.attributeNode
  /-- The labels are the same. -/
  labels : e.labels = d.labels
  /-- The node is dead if and only if it was. -/
  alive : e.alive = d.alive

theorem Node.SameButValues.setLink (d : Node) (l : Link) (t : Option NodeId) :
    d.SameButValues (d.setLink l t) := by
  cases l <;> exact ⟨⟨rfl, rfl, rfl, rfl, rfl⟩, rfl, rfl, rfl⟩

namespace Arena

/-- One write to an arena.  A node is put below another only where `attaches` allows for it. -/
inductive Deed (attaches : Bool) : Arena → Arena → Prop
  /-- A node is created. -/
  | create {a : Arena} (k : Kind) (p : Position) : Deed attaches a (a.create k p).2
  /-- A literal is copied. -/
  | clone {a b : Arena} {n m : NodeId} (h : a.cloneBasicNode n = .ok (m, b)) : Deed attaches a b
  /-- What a node holds is changed, apart from its kind, the marks on it and its place. -/
  | fill {a : Arena} (n : NodeId) {f : Node → Node} (hf : ∀ d : Node, d.SameStanding (f d)) :
      Deed attaches a (a.update n f)
  /-- A flag is set or cleared. -/
  | setFlag {a b : Arena} {n : NodeId} {f : Flag} {v : Bool} (h : a.setFlag n f v = .ok b) :
      Deed attaches a b
  /-- An attribute is set or cleared, or a rival keeps it away. -/
  | setAttribute {a b : Arena} {n : NodeId} {t : Attribute} {v r : Bool}
      (h : a.setAttribute n t v = .ok (r, b)) : Deed attaches a b
  /-- A boolean takes another value. -/
  | setBoolean {a b : Arena} {n : NodeId} {v : Bool} (h : a.setBoolean n v = .ok b) :
      Deed attaches a b
  /-- A node is converted, if the conversion applies. -/
  | convert {a b : Arena} {n : NodeId} {c : Conversion} {r : Bool}
      (h : a.convert n c.apply = .ok (r, b)) : Deed attaches a b
  /-- A node is taken away from its parent. -/
  | detach {a b : Arena} {c : NodeId} {i : Option Nat} (h : a.setParent c none i = .ok b) :
      Deed attaches a b
  /-- A node is put below another. -/
  | attach {a b : Arena} {c p : NodeId} {i : Option Nat} (ht : attaches = true)
      (h : a.setParent c (some p) i = .ok b) : Deed attaches a b
  /-- A node is discarded with all that it owns. -/
  | discard {a b : Arena} {n : NodeId} (h : a.discard n = .ok b) : Deed attaches a b

/-- Writes one after the other. -/
abbrev Deeds (attaches : Bool) : Arena → Arena → Prop := Relation.ReflTransGen (Deed attaches)

theorem Deeds.keeps {I : Arena → Prop} {attaches : Bool}
    (hstep : ∀ a b, Deed attaches a b → I a → I b) {a b : Arena} (h : Deeds attaches a b)
    (ha : I a) : I b := by
  induction h with
  | refl => exact ha
  | tail _ hdeed ih => exact hstep _ _ hdeed ih

variable {a b : Arena} {n : NodeId} {attaches : Bool}

theorem Deed.consistent (hab : Deed attaches a b) (h : a.Consistent) : b.Consistent := by
  cases hab with
  | create k p => exact h.create k p
  | clone hb => exact h.cloneBasicNode hb
  | fill n hf => exact h.update (.of_eq (hf _).parent (hf _).children (hf _).kind)
  | setFlag hb => exact h.setFlag hb
  | setAttribute hb => exact h.setAttribute hb
  | setBoolean hb => exact h.setBoolean hb
  | convert hb => exact h.convert hb
  | detach hb => exact h.setParent hb
  | attach _ hb => exact h.setParent hb
  | discard hb => exact h.discard hb

theorem Deed.move {c : NodeId} {p : Option NodeId} {i : Option Nat} (ht : attaches = true)
    (h : a.setParent c p i = .ok b) : Deed attaches a b := by
  cases p with
  | none => exact .detach h
  | some p => exact .attach ht h

theorem Deed.deleteChild {p c : NodeId} {i : Nat} (h : a.deleteChild p i = .ok (c, b)) :
    Deed attaches a b :=
  .detach (deleteChild_eq_ok h).2

theorem Deed.retable (n : NodeId) (f : List Int32 → List Int32) (g : List Nat → List Nat) :
    Deed attaches a (a.retable n f g) :=
  .fill n fun _ => ⟨rfl, rfl, rfl, rfl, rfl⟩

end Arena

/-! ## Programs of several steps -/

namespace Edit

open Arena

variable {attaches : Bool} {α : Type}

theorem keeps_deeds_checked {a : Arena} {f : Arena → Except NodeError (α × Arena)}
    (h : ∀ a x b, f a = .ok (x, b) → Deed attaches a b) :
    Keeps (Deeds attaches a) (checked f) :=
  keeps_checked fun b x b' hb hf => hb.tail (h b x b' hf)

theorem keeps_deeds_change {a : Arena} {f : Arena → Except NodeError Arena}
    (h : ∀ a b, f a = .ok b → Deed attaches a b) : Keeps (Deeds attaches a) (change f) :=
  keeps_change fun b b' hb hf => hb.tail (h b b' hf)

theorem keeps_deeds_modify {a : Arena} {f : Arena → Arena} (h : ∀ a, Deed attaches a (f a)) :
    Keeps (Deeds attaches a) (modify f : Edit Unit) :=
  Keeps.modify fun b hb => hb.tail (h b)

theorem keeps_deeds_setChild (a : Arena) (p : NodeId) (i : Nat) (c : NodeId) :
    Keeps (Deeds true a) (setChild p i c) :=
  keeps_setChild (fun h hb => h.tail (.move rfl hb)) p i c

theorem keeps_deeds_cleanTreeFrom (a : Arena) (fuel : Nat) (n : NodeId) :
    Keeps (Deeds attaches a) (cleanTreeFrom fuel n) :=
  keeps_cleanTreeFrom (fun h hb => h.tail (.detach hb)) (fun h hb => h.tail (.discard hb)) fuel n

theorem exec_bind {β : Type} (p : Edit α) (f : α → Edit β) (a : Arena) :
    (p >>= f).exec a = match p.exec a with
      | (.ok x, b) => (f x).exec b
      | (.error e, b) => (.error e, b) := by
  change ((p.exec a >>= fun r => StateT.run (ExceptT.bindCont f r.1) r.2) :
    Id (Except NodeError β × Arena)) = _
  cases hr : p.exec a with
  | mk r b =>
    cases r with
    | ok x => rfl
    | error e => rfl

/-- A replacement, told in one piece: the place of the node is looked up, and the child there is
exchanged while the locks on the parent are set aside. -/
theorem exec_replaceWith (n m : NodeId) (a : Arena) :
    (replaceWith n m).exec a = match a.parent n with
      | none => (.error (.noParent .replaceWith), a)
      | some p => match a.offset n with
        | .error e => (.error e, a)
        | .ok i => (((setChild p i m).exec (a.setLockCount p 0)).1.map fun _ => (),
            ((setChild p i m).exec (a.setLockCount p 0)).2.setLockCount p (a.lockCount p)) := by
  rw [replaceWith]
  rw [exec_bind, show (get : Edit Arena).exec a = (.ok a, a) from rfl]
  dsimp only
  cases a.parent n with
  | none => rfl
  | some p =>
    dsimp only
    rw [exec_bind, exec_checked]
    cases a.offset n with
    | error e => rfl
    | ok i =>
      change (withoutLocks p (setChild p i m) >>= fun _ => pure ()).exec a = _
      rw [exec_bind, show (withoutLocks p (setChild p i m)).exec a
        = (((setChild p i m).exec (a.setLockCount p 0)).1,
          ((setChild p i m).exec (a.setLockCount p 0)).2.setLockCount p (a.lockCount p)) from rfl]
      dsimp only
      cases (setChild p i m).exec (a.setLockCount p 0) with
      | mk r b =>
        cases r with
        | error e => rfl
        | ok x => rfl

end Edit

/-! ## Every request -/

namespace Command

open Arena

/-- Requests that put a node below another. -/
def attaches : Command → Bool
  | setParent _ p _ => p.isSome
  | appendChild .. | insertChild .. | setChild .. | replaceWith .. => true
  | _ => false

/-- Requests that change the number of locks on a node, be it only for a while. -/
def touchesLocks : Command → Bool
  | lock _ | unlock _ | replaceWith .. => true
  | _ => false

/-- Requests that write a value or a link of one node and nothing else. -/
def writesValue : Command → Bool
  | setPosition .. | setInt64 .. | setFloat64 .. | setText .. | setSwitchOperator .. | setLink ..
  | addVariable .. | setParamSize .. | setParamDepth .. | setParamIndex .. => true
  | _ => false

theorem keeps_of_writesValue {I : Arena → Prop}
    (hwrite : ∀ (a : Arena) (n : NodeId) {f : Node → Node}, (∀ d : Node, d.SameButValues (f d)) →
      I a → I (a.update n f))
    (c : Command) (hc : c.writesValue = true) : Keeps I c.run := by
  have hretable : ∀ (a : Arena) n f g, I a → I (a.retable n f g) := fun a n f g =>
    hwrite a n fun _ => ⟨⟨rfl, rfl, rfl, rfl, rfl⟩, rfl, rfl, rfl⟩
  open Edit in
  cases c with
  | setPosition n p =>
    exact Keeps.modify fun a => hwrite a n fun _ => ⟨⟨rfl, rfl, rfl, rfl, rfl⟩, rfl, rfl, rfl⟩
  | setInt64 n v =>
    refine keeps_change fun a _ h hb => ?_
    rw [setInt64_eq_ok hb]
    exact hwrite a n (fun _ => ⟨⟨rfl, rfl, rfl, rfl, rfl⟩, rfl, rfl, rfl⟩) h
  | setFloat64 n v =>
    refine keeps_change fun a _ h hb => ?_
    rw [setFloat64_eq_ok hb]
    exact hwrite a n (fun _ => ⟨⟨rfl, rfl, rfl, rfl, rfl⟩, rfl, rfl, rfl⟩) h
  | setText n s =>
    refine keeps_change fun a _ h hb => ?_
    rw [(setText_eq_ok hb).2]
    exact hwrite a n (fun _ => ⟨⟨rfl, rfl, rfl, rfl, rfl⟩, rfl, rfl, rfl⟩) h
  | setSwitchOperator n op =>
    refine keeps_change fun a _ h hb => ?_
    rw [(setSwitchOperator_eq_ok hb).2]
    exact hwrite a n (fun _ => ⟨⟨rfl, rfl, rfl, rfl, rfl⟩, rfl, rfl, rfl⟩) h
  | setLink n l m => exact Keeps.modify fun a => hwrite a n fun d => .setLink d l m
  | addVariable n v =>
    refine keeps_change fun a _ h hb => ?_
    rw [addVariable_eq_ok hb]
    exact hwrite a n (fun _ => ⟨⟨rfl, rfl, rfl, rfl, rfl⟩, rfl, rfl, rfl⟩) h
  | setParamSize n size =>
    refine keeps_change fun a _ h hb => ?_
    obtain ⟨f, g, rfl⟩ := setParamSize_eq_ok hb
    exact hretable a n f g h
  | setParamDepth n j depth =>
    refine keeps_change fun a _ h hb => ?_
    obtain ⟨f, g, rfl⟩ := setParamDepth_eq_ok hb
    exact hretable a n f g h
  | setParamIndex n i j =>
    refine keeps_change fun a _ h hb => ?_
    obtain ⟨f, g, rfl⟩ := setParamIndex_eq_ok hb
    exact hretable a n f g h
  | _ => cases hc

/-- **A request is a number of deeds**, granted or refused. -/
theorem deeds (c : Command) (hc : c.touchesLocks = false) (a : Arena) :
    Deeds c.attaches a (c.run.exec a).2 := by
  suffices h : Keeps (Deeds c.attaches a) c.run from h.state .refl
  by_cases hv : c.writesValue = true
  · exact keeps_of_writesValue
      (fun _ n _ hf h => h.tail (.fill n fun d => (hf d).toSameStanding)) c hv
  open Edit in
  cases c with
  | create k p => exact keeps_deeds_modify fun _ => .create k p
  | createReplacement n k => exact keeps_deeds_modify fun _ => .create k _
  | cloneBasicNode n =>
    exact Keeps.bind (keeps_deeds_checked fun _ _ _ => .clone) fun _ => Keeps.pure
  | setParent c p i =>
    cases p with
    | none => exact keeps_deeds_change fun _ _ => .detach
    | some p => exact keeps_deeds_change fun _ _ => .attach rfl
  | appendChild p c => exact keeps_deeds_change fun _ _ => .attach rfl
  | insertChild p i c => exact keeps_deeds_change fun _ _ => .attach rfl
  | deleteChild p i =>
    exact Keeps.bind (keeps_deleteChild (fun h hb => h.tail (.detach hb)) p i) fun _ =>
      Keeps.pure
  | setChild p i c => exact Keeps.bind (keeps_deeds_setChild a p i c) fun _ => Keeps.pure
  | cleanTree n => exact Keeps.get_bind fun _ _ => keeps_deeds_cleanTreeFrom a _ n
  | discard n => exact keeps_deeds_change fun _ _ => .discard
  | setFlag n f v => exact keeps_deeds_change fun _ _ => .setFlag
  | setAttribute n t v =>
    exact Keeps.bind (keeps_deeds_checked fun _ _ _ => .setAttribute) fun _ => Keeps.pure
  | setAttributeTree n t v =>
    exact Keeps.bind (keeps_setAttributeTree (fun h hb => h.tail (.setAttribute hb)) n t v) fun _ =>
      Keeps.pure
  | setAttributeNode n m =>
    refine keeps_deeds_change fun _ _ hb => ?_
    rw [setAttributeNode_eq_ok hb]
    exact .fill n fun _ => ⟨rfl, rfl, rfl, rfl, rfl⟩
  | setBoolean n v => exact keeps_deeds_change fun _ _ => .setBoolean
  | addLabel n l =>
    refine keeps_deeds_change fun _ _ hb => ?_
    obtain ⟨-, -, -, rfl⟩ := addLabel_eq_ok hb
    exact .fill n fun _ => ⟨rfl, rfl, rfl, rfl, rfl⟩
  | convert n c => exact Keeps.bind (keeps_deeds_checked fun _ _ _ => .convert) fun _ => Keeps.pure
  | replaceWith | lock | unlock => cases hc
  | _ => exact absurd rfl hv

/-- The deeds of a replacement lie between setting the locks on the parent aside and putting them
back. -/
theorem deeds_replaceWith (n m : NodeId) (a : Arena) :
    ((replaceWith n m).run.exec a).2 = a ∨ ∃ p b, Deeds true (a.setLockCount p 0) b ∧
      ((replaceWith n m).run.exec a).2 = b.setLockCount p (a.lockCount p) := by
  rw [show (replaceWith n m).run = Edit.replaceWith n m from rfl, Edit.exec_replaceWith]
  split
  · exact .inl rfl
  · next p hp =>
    split
    · exact .inl rfl
    · next i hi =>
      exact .inr ⟨p, _, (Edit.keeps_deeds_setChild _ p i m).state .refl, rfl⟩

/-- What every deed keeps, however often nodes are locked, every request keeps. -/
theorem keeps_of_deeds {I : Arena → Prop} (hstep : ∀ t a b, Deed t a b → I a → I b)
    (hlocks : ∀ a b : Arena, b.nodes = a.nodes → b.locks.size = a.locks.size → I a → I b)
    (c : Command) : Keeps I c.run := by
  refine Keeps.of_state fun a ha => ?_
  change I (c.run.exec a).2
  by_cases hc : c.touchesLocks = false
  · exact (c.deeds hc a).keeps (hstep c.attaches) ha
  · cases c with
    | lock n => exact hlocks a _ rfl (Array.size_modify ..) ha
    | unlock n =>
      refine (Edit.keeps_change fun a b h hb => ?_).state ha
      exact hlocks a b (nodes_unlock hb) (size_locks_unlock hb) h
    | replaceWith n m =>
      have hset : ∀ (a : Arena) p k, I a → I (a.setLockCount p k) := fun a _ _ =>
        hlocks a _ rfl (Array.size_modify ..)
      obtain he | ⟨p, b, hdeeds, he⟩ := deeds_replaceWith n m a
      · rw [he]; exact ha
      · rw [he]
        exact hset b p _ (hdeeds.keeps (hstep true) (hset a p 0 ha))
    | _ => exact absurd rfl hc

/-- No request, granted or refused, breaks the tree. -/
theorem keeps_consistent (c : Command) : Keeps Consistent c.run :=
  c.keeps_of_deeds (fun _ _ _ hab h => hab.consistent h) fun _ _ hn hl h => h.of_locks hn hl

end Command

/-- A tree that was made by requests is consistent. -/
theorem Arena.Consistent.of_history {a : Arena} (history : List Command)
    (h : a = after history) : a.Consistent := by
  subst h
  exact after_invariant Arena.consistent_empty Command.keeps_consistent history

open Arena in
/-- **Parents and children agree in every arena that can be reached**, by whatever requests and
whether or not they were granted. -/
theorem consistent_after (history : List Command) : (after history).Consistent :=
  after_invariant consistent_empty Command.keeps_consistent history

end SymbolTree
