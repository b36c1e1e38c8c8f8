import SymbolTree.Proofs.Arena.Command
import SymbolTree.Proofs.Arena.Frame

/-!
# Locked and discarded nodes

A lock protects what a node holds and where it stands (`Node.SameContent`); position, links and what
is registered with a node are not protected.  A discarded node is protected in the same way, and for
good.

No request writes to a node that it did not ask for (`Arena.WritesTo`), with one exception: a node
may be replaced below a locked parent.  A request that changes several nodes asks for each of them,
so a barred node is never one of those (`Arena.Shields`).

## Main statement

* `barred_unchanged` — what is locked or discarded stays as it is.
-/

set_option autoImplicit false
namespace SymbolTree

/-- Two states of a node that differ in nothing that a lock protects. -/
structure Node.SameContent (d e : Node) : Prop where
  /-- The kind is the same. -/
  kind : e.kind = d.kind
  /-- The flags are the same. -/
  flags : e.flags = d.flags
  /-- The attributes are the same. -/
  attributes : e.attributes = d.attributes
  /-- The operator of a switch is the same. -/
  switchOperator : e.switchOperator = d.switchOperator
  /-- The integer is the same. -/
  int : e.int = d.int
  /-- The float is the same. -/
  float : e.float = d.float
  /-- The name or text is the same. -/
  text : e.text = d.text
  /-- The parent is the same. -/
  parent : e.parent = d.parent
  /-- The children are the same, in the same order. -/
  children : e.children = d.children
  /-- The attribute node is the same. -/
  attributeNode : e.attributeNode = d.attributeNode
  /-- The node is discarded if and only if it was. -/
  alive : e.alive = d.alive

namespace Node.SameContent

theorem refl (d : Node) : d.SameContent d :=
  ⟨rfl, rfl, rfl, rfl, rfl, rfl, rfl, rfl, rfl, rfl, rfl⟩

theorem trans {d e f : Node} (h : d.SameContent e) (h' : e.SameContent f) : d.SameContent f :=
  ⟨h'.kind.trans h.kind, h'.flags.trans h.flags, h'.attributes.trans h.attributes,
    h'.switchOperator.trans h.switchOperator, h'.int.trans h.int, h'.float.trans h.float,
    h'.text.trans h.text, h'.parent.trans h.parent, h'.children.trans h.children,
    h'.attributeNode.trans h.attributeNode, h'.alive.trans h.alive⟩

/-- What a lock does not protect. -/
theorem unprotected (d : Node) (p : Position) (i t g x : Option NodeId) (vs : List NodeId)
    (ls : List (String × NodeId)) (ds : List Int32) (js : List Nat) :
    d.SameContent { d with
      position := p, inst := i, typeNode := t, gotoEnter := g, gotoExit := x,
      variableNodes := vs, labels := ls, paramDepth := ds, paramIndex := js } :=
  ⟨rfl, rfl, rfl, rfl, rfl, rfl, rfl, rfl, rfl, rfl, rfl⟩

theorem setLink (d : Node) (l : Link) (t : Option NodeId) : d.SameContent (d.setLink l t) := by
  cases l <;> exact unprotected ..

end Node.SameContent

namespace Arena

variable {a b : Arena} {n m : NodeId} {d : Node}

/-- The node is locked or discarded. -/
def Barred (a : Arena) (n : NodeId) : Prop := a.isLocked n = true ∨ a.isAlive n = false

theorem Barred.ne_of_modifying (h : a.Barred n) (hm : a.modifying m = .ok ()) : n ≠ m := by
  rintro rfl
  obtain ⟨halive, hlock⟩ := modifying_eq_ok_iff.1 hm
  rcases h with h | h
  · simp [isLocked, hlock] at h
  · rw [halive] at h
    cases h

/-- The node `n` is barred and holds what `d` holds. -/
structure Shields (d : Node) (n : NodeId) (a : Arena) : Prop where
  /-- The node is there. -/
  lt_size : n.index < a.size
  /-- It holds the same. -/
  same : d.SameContent (a.node n)
  /-- It is barred. -/
  barred : a.Barred n

/-! ## Single requests -/

/-- A request writes at most to the node `n`, which it may modify. -/
def WritesTo (n : NodeId) (a b : Arena) : Prop :=
  a.modifying n = .ok () ∧ (b = a ∨ ∃ f, b = a.update n f)

theorem writesTo_setFlag {f : Flag} {v : Bool} (h : a.setFlag n f v = .ok b) : WritesTo n a b := by
  obtain ⟨-, hm, hb⟩ := setFlag_eq_ok_iff.1 h
  exact ⟨hm, .inr ⟨_, hb⟩⟩

theorem writesTo_setAttribute {t : Attribute} {v r : Bool}
    (h : a.setAttribute n t v = .ok (r, b)) : WritesTo n a b := by
  obtain ⟨-, hm, hb⟩ := setAttribute_eq_ok h
  exact ⟨hm, hb.imp_right fun hb => ⟨_, hb⟩⟩

theorem writesTo_setAttributeNode {t : Option NodeId} (h : a.setAttributeNode n t = .ok b) :
    WritesTo n a b := by
  obtain ⟨_, hm, hb⟩ := bind_eq_ok_iff.1 h
  exact ⟨hm, .inr ⟨_, (Except.ok.inj hb).symm⟩⟩

theorem writesTo_setBoolean {v : Bool} (h : a.setBoolean n v = .ok b) : WritesTo n a b := by
  obtain ⟨-, hm, hb⟩ := setBoolean_eq_ok h
  exact ⟨hm, .inr ⟨_, hb⟩⟩

theorem writesTo_setInt64 {v : Int64} (h : a.setInt64 n v = .ok b) : WritesTo n a b := by
  obtain ⟨_, -, h⟩ := bind_eq_ok_iff.1 h
  obtain ⟨_, hm, hb⟩ := bind_eq_ok_iff.1 h
  exact ⟨hm, .inr ⟨_, (Except.ok.inj hb).symm⟩⟩

theorem writesTo_setFloat64 {v : Float} (h : a.setFloat64 n v = .ok b) : WritesTo n a b := by
  obtain ⟨_, -, h⟩ := bind_eq_ok_iff.1 h
  obtain ⟨_, hm, hb⟩ := bind_eq_ok_iff.1 h
  exact ⟨hm, .inr ⟨_, (Except.ok.inj hb).symm⟩⟩

theorem writesTo_setText {s : String} (h : a.setText n s = .ok b) : WritesTo n a b := by
  obtain ⟨hm, hb⟩ := setText_eq_ok h
  exact ⟨hm, .inr ⟨_, hb⟩⟩

theorem writesTo_setSwitchOperator {op : Kind} (h : a.setSwitchOperator n op = .ok b) :
    WritesTo n a b := by
  obtain ⟨hm, hb⟩ := setSwitchOperator_eq_ok h
  exact ⟨hm, .inr ⟨_, hb⟩⟩

theorem writesTo_convert {f : Node → Option Node} {r : Bool} (h : a.convert n f = .ok (r, b)) :
    WritesTo n a b := by
  obtain ⟨hm, hb⟩ := convert_eq_ok h
  exact ⟨hm, hb.imp_right fun ⟨_, _, hb⟩ => ⟨_, hb⟩⟩

namespace Shields

theorem of_eq (h : Shields d n a) (hsize : a.size ≤ b.size) (hnode : b.node n = a.node n)
    (hlock : b.lockCount n = a.lockCount n) : Shields d n b where
  lt_size := Nat.lt_of_lt_of_le h.lt_size hsize
  same := by rw [hnode]; exact h.same
  barred := by
    rw [Barred, isLocked, isAlive, hnode, hlock]
    exact h.barred

theorem writesTo (h : Shields d n a) (hb : WritesTo m a b) : Shields d n b := by
  obtain ⟨hm, rfl | ⟨f, rfl⟩⟩ := hb
  · exact h
  · refine h.of_eq (Nat.le_of_eq (size_update a m f).symm) ?_ rfl
    rw [node_update, if_neg fun e => h.barred.ne_of_modifying hm e.1]

/-- What is not protected may be written to any node. -/
theorem update (h : Shields d n a) {f : Node → Node} (hf : ∀ e : Node, e.SameContent (f e)) :
    Shields d n (a.update m f) := by
  have hsame : (a.node n).SameContent ((a.update m f).node n) :=
    rel_node_update .refl (hf _) n
  refine ⟨by simpa using h.lt_size, h.same.trans hsame, ?_⟩
  rw [Barred, isAlive, hsame.alive]
  exact h.barred

theorem push (h : Shields d n a) (e : Node) : Shields d n (a.push e).2 := by
  refine h.of_eq (by simp) ?_ ?_
  · rw [node_push, if_neg (Nat.ne_of_lt h.lt_size)]
  · exact lockCount_push a e n

theorem setParent (h : Shields d n a) {c : NodeId} {p : Option NodeId} {i : Option Nat}
    (hb : a.setParent c p i = .ok b) : Shields d n b := by
  have hlocks := congrFun (lockCount_setParent hb) n
  obtain ⟨hc, hp, hold, hb⟩ := setParent_eq_ok hb
  have hnc : n ≠ c := h.barred.ne_of_modifying hc
  have hnp : ∀ q ∈ p, n ≠ q := fun q hq => h.barred.ne_of_modifying (hp q hq)
  -- the parent that is left is the new one, or was asked for
  have hno : ∀ o ∈ a.parent c, n ≠ o := by
    intro o ho
    by_cases hsame : a.parent c = p
    · exact hnp o (hsame ▸ ho)
    · exact h.barred.ne_of_modifying (hold o ho hsame)
  have hdetach : (a.detach c).node n = a.node n := by
    rw [detach]
    split
    · rfl
    · next o ho =>
      rw [node_update, if_neg fun e => hnc e.1, node_update, if_neg fun e => hno o ho e.1]
  obtain ⟨-, -, rfl⟩ | ⟨-, -, -, rfl⟩ := relocate_eq_ok hb
  · exact h
  · cases p with
    | none => exact h.of_eq (Nat.le_of_eq (size_detach a c).symm) hdetach hlocks
    | some q =>
      refine h.of_eq ?_ ?_ hlocks
      · exact Nat.le_of_eq (by simp)
      · rw [Option.elim_some, attach, node_update, if_neg fun e => hnc e.1, node_update,
          if_neg fun e => hnp q rfl e.1, hdetach]

/-- Discarding a node that is discarded already changes nothing. -/
theorem discard (h : Shields d n a) (hb : a.discard m = .ok b) : Shields d n b := by
  have hlocks := congrFun (lockCount_discard hb) n
  obtain ⟨-, rfl⟩ | ⟨-, -, hfree, rfl⟩ := discard_eq_ok hb
  · exact h
  · refine h.of_eq (Nat.le_of_eq (size_foldl_kill _ _).symm) ?_ hlocks
    have halive : (a.isAlive n && !(a.owned m).contains n) = (a.node n).alive := by
      rcases h.barred with hlock | hdead
      · -- nothing that is locked is discarded
        have hn : n ∉ a.owned m := fun hn => by rw [hfree n hn] at hlock; cases hlock
        simp [hn, isAlive]
      · rw [hdead]
        exact hdead.symm
    rw [node_foldl_kill, halive]

/-- The locks on another node do not matter, and no locks do once a node is discarded. -/
theorem setLockCount (h : Shields d n a) (hm : m ≠ n ∨ d.alive = false) (k : Nat) :
    Shields d n (a.setLockCount m k) := by
  refine ⟨h.lt_size, h.same, ?_⟩
  rcases hm with hm | hd
  · refine h.barred.imp_left fun hlock => ?_
    rw [isLocked, Arena.setLockCount, lockCount_modify, if_neg fun e => hm e.1.symm]
    exact hlock
  · exact .inr (h.same.alive.trans hd)

end Shields

theorem isAlive_update {f : Node → Node} (hf : ∀ e, (f e).alive = e.alive) (a : Arena)
    (m n : NodeId) : (a.update m f).isAlive n = a.isAlive n :=
  field_update Node.alive (hf _) n

theorem isAlive_setParent {c : NodeId} {p : Option NodeId} {i : Option Nat}
    (hb : a.setParent c p i = .ok b) (n : NodeId) : b.isAlive n = a.isAlive n := by
  have hdetach : (a.detach c).isAlive n = a.isAlive n := by
    rw [detach]
    split
    · rfl
    · refine (isAlive_update ?_ _ c n).trans (isAlive_update ?_ a _ n) <;> exact fun _ => rfl
  obtain ⟨-, -, -, hb⟩ := setParent_eq_ok hb
  obtain ⟨-, -, rfl⟩ | ⟨-, -, -, rfl⟩ := relocate_eq_ok hb
  · rfl
  · cases p with
    | none => exact hdetach
    | some q =>
      refine ((isAlive_update ?_ _ c n).trans (isAlive_update ?_ _ q n)).trans hdetach <;>
        exact fun _ => rfl

end Arena

/-! ## Programs of several steps -/

namespace Edit

open Arena

variable {a : Arena} {d : Node} {n : NodeId}

/-- Below another parent, or a discarded one, a node is replaced like everywhere. -/
theorem shields_replaceWith (h : Shields d n a) {k : NodeId}
    (hk : a.parent k ≠ some n ∨ d.alive = false) (m : NodeId) :
    Shields d n ((replaceWith k m).exec a).2 := by
  refine Ensures.state (P := (· = a)) (Ensures.get_bind fun s hs => ?_) rfl
  subst hs
  refine Ensures.mono (P := Shields d n) ?_ (fun _ hs => hs ▸ h) (fun _ _ h => h) fun _ _ h => h
  cases hp : s.parent k with
  | none => exact Keeps.throw
  | some p =>
    have hpn : p ≠ n ∨ d.alive = false := hk.imp_left fun hne e => hne (by rw [hp, e])
    refine Keeps.bind (keeps_checked fun a x b h hb => ?_) fun i => ?_
    · obtain ⟨_, -, hb⟩ := bind_eq_ok_iff.1 hb
      obtain rfl : a = b := congrArg Prod.snd (Except.ok.inj hb)
      exact h
    · exact Keeps.bind (keeps_withoutLocks (fun _ k h => h.setLockCount hpn k)
        (keeps_setChild (fun h hb => h.setParent hb) p i m)) fun _ => Keeps.pure

/-- Replacing a node discards none. -/
theorem keeps_isAlive_replaceWith (n k m : NodeId) (v : Bool) :
    Keeps (fun a => a.isAlive n = v) (replaceWith k m) :=
  keeps_replaceWith (fun h hb => (isAlive_setParent hb n).trans h) m fun _ _ _ h => h

end Edit

/-! ## Every request -/

namespace Command

/-- The request replaces a child of the node. -/
def ReplacesChildOf (a : Arena) (n : NodeId) : Command → Prop
  | replaceWith m _ => a.parent m = some n
  | _ => False

open Arena in
/-- No request writes to a barred node, except that it may replace a child of a locked one. -/
theorem leaves_barred {a : Arena} {n : NodeId} (hn : n.index < a.size) (hbarred : a.Barred n)
    (c : Command) (hc : ¬ c.ReplacesChildOf a n ∨ a.isAlive n = false) :
    n.index < (c.run.exec a).2.size ∧ (a.node n).SameContent ((c.run.exec a).2.node n) := by
  have h : Shields (a.node n) n a := ⟨hn, .refl _, hbarred⟩
  have hkeeps : ∀ {α : Type} {p : Edit α}, Keeps (Shields (a.node n) n) p →
      n.index < (p.exec a).2.size ∧ (a.node n).SameContent ((p.exec a).2.node n) :=
    fun hp => ⟨(hp.state h).lt_size, (hp.state h).same⟩
  have hforget : ∀ {α : Type} {p : Edit α}, Keeps (Shields (a.node n) n) p →
      Keeps (Shields (a.node n) n) (do let _ ← p : Edit Unit) :=
    fun hp => Keeps.bind hp fun _ => Keeps.pure
  have hmove : ∀ {b b' : Arena} {c p i}, Shields (a.node n) n b → b.setParent c p i = .ok b' →
      Shields (a.node n) n b' := fun h hb => h.setParent hb
  open Edit in
  cases c with
  | create k p => exact hkeeps (Keeps.modify fun _ h => h.push _)
  | createReplacement m k => exact hkeeps (Keeps.modify fun _ h => h.push _)
  | cloneBasicNode m =>
    refine hkeeps (hforget (keeps_checked fun a x b h hb => ?_))
    simp only [Arena.cloneBasicNode] at hb
    split at hb
    · obtain rfl := congrArg Prod.snd (Except.ok.inj hb)
      exact h.push _
    · cases hb
  | setParent c p i => exact hkeeps (keeps_change fun _ _ h hb => h.setParent hb)
  | appendChild p c => exact hkeeps (keeps_change fun _ _ h hb => h.setParent hb)
  | insertChild p i c => exact hkeeps (keeps_change fun _ _ h hb => h.setParent hb)
  | deleteChild p i => exact hkeeps (hforget (keeps_deleteChild hmove p i))
  | setChild p i c => exact hkeeps (hforget (keeps_setChild hmove p i c))
  | replaceWith k m =>
    have hr := shields_replaceWith h hc m
    exact ⟨hr.lt_size, hr.same⟩
  | cleanTree m =>
    exact hkeeps (Keeps.get_bind fun _ _ =>
      keeps_cleanTreeFrom hmove (fun h hb => h.discard hb) _ m)
  | discard m => exact hkeeps (keeps_change fun _ _ h hb => h.discard hb)
  | setPosition m p => exact hkeeps (Keeps.modify fun _ h => h.update fun _ => .unprotected ..)
  | setFlag m f v => exact hkeeps (keeps_change fun _ _ h hb => h.writesTo (writesTo_setFlag hb))
  | setAttribute m t v =>
    exact hkeeps (hforget (keeps_checked fun _ _ _ h hb => h.writesTo (writesTo_setAttribute hb)))
  | setAttributeTree m t v =>
    exact hkeeps (hforget (keeps_setAttributeTree
      (fun h hb => h.writesTo (writesTo_setAttribute hb)) m t v))
  | setAttributeNode m t =>
    exact hkeeps (keeps_change fun _ _ h hb => h.writesTo (writesTo_setAttributeNode hb))
  | setBoolean m v =>
    exact hkeeps (keeps_change fun _ _ h hb => h.writesTo (writesTo_setBoolean hb))
  | setInt64 m v => exact hkeeps (keeps_change fun _ _ h hb => h.writesTo (writesTo_setInt64 hb))
  | setFloat64 m v =>
    exact hkeeps (keeps_change fun _ _ h hb => h.writesTo (writesTo_setFloat64 hb))
  | setText m s => exact hkeeps (keeps_change fun _ _ h hb => h.writesTo (writesTo_setText hb))
  | setSwitchOperator m op =>
    exact hkeeps (keeps_change fun _ _ h hb => h.writesTo (writesTo_setSwitchOperator hb))
  | setLink m l t => exact hkeeps (Keeps.modify fun _ h => h.update fun _ => .setLink _ l t)
  | addVariable m v =>
    refine hkeeps (keeps_change fun a b h hb => ?_)
    rw [addVariable_eq_ok hb]
    exact h.update fun _ => .unprotected ..
  | addLabel m l =>
    refine hkeeps (keeps_change fun a b h hb => ?_)
    obtain ⟨-, -, -, rfl⟩ := addLabel_eq_ok hb
    exact h.update fun _ => .unprotected ..
  | setParamSize m size =>
    refine hkeeps (keeps_change fun a b h hb => ?_)
    obtain ⟨f, g, rfl⟩ := setParamSize_eq_ok hb
    exact h.update fun _ => .unprotected ..
  | setParamDepth m j depth =>
    refine hkeeps (keeps_change fun a b h hb => ?_)
    obtain ⟨f, g, rfl⟩ := setParamDepth_eq_ok hb
    exact h.update fun _ => .unprotected ..
  | setParamIndex m i j =>
    refine hkeeps (keeps_change fun a b h hb => ?_)
    obtain ⟨f, g, rfl⟩ := setParamIndex_eq_ok hb
    exact h.update fun _ => .unprotected ..
  | lock m => exact ⟨hn, .refl _⟩
  | unlock m =>
    -- the node may be free now, but it was not written to
    have hkept : Keeps (fun b => b.nodes = a.nodes) (change (·.unlock m)) :=
      keeps_change fun _ _ h hb => (nodes_unlock hb).trans h
    have hnodes : ((Command.unlock m).run.exec a).2.nodes = a.nodes := hkept.state rfl
    refine ⟨by rw [Arena.size, hnodes]; exact hn, ?_⟩
    rw [show ((Command.unlock m).run.exec a).2.node n = a.node n by rw [node, hnodes]; rfl]
    exact .refl _
  | convert m c =>
    exact hkeeps (hforget (keeps_checked fun _ _ _ h hb => h.writesTo (writesTo_convert hb)))

/-- A barred node is discarded after a request if and only if it was before. -/
theorem isAlive_of_barred {a : Arena} {n : NodeId} (hn : n.index < a.size) (hbarred : a.Barred n)
    (c : Command) : (c.run.exec a).2.isAlive n = a.isAlive n := by
  by_cases hc : c.ReplacesChildOf a n
  · cases c with
    | replaceWith k m => exact (Edit.keeps_isAlive_replaceWith n k m _).state rfl
    | _ => exact absurd hc id
  · exact (c.leaves_barred hn hbarred (.inl hc)).2.alive

end Command

/-- A discarded node is never written to again. -/
theorem sameContent_foldl {a : Arena} {n : NodeId} (hn : n.index < a.size)
    (hdead : a.isAlive n = false) (more : List Command) :
    (a.node n).SameContent ((more.foldl (fun a c => (c.run.exec a).2) a).node n) := by
  induction more generalizing a with
  | nil => exact .refl _
  | cons c more ih =>
    obtain ⟨hlt, hstep⟩ := c.leaves_barred hn (.inr hdead) (.inr hdead)
    exact hstep.trans (ih hlt (hstep.alive.trans hdead))

/-- **What is locked or discarded stays as it is**, in any arena that can be reached and whatever is
asked of it: a request keeps all that a lock protects, unless it replaces a child of a locked node,
and even then it discards nothing.  A discarded node stays as it is for ever, and every request to
modify it is refused. -/
theorem barred_unchanged (history : List Command) (n : NodeId)
    (hn : n.index < (after history).size) (hbarred : (after history).Barred n) :
    (∀ c : Command, ¬ c.ReplacesChildOf (after history) n →
      ((after history).node n).SameContent ((c.run.exec (after history)).2.node n)) ∧
    (∀ c : Command, (c.run.exec (after history)).2.isAlive n = (after history).isAlive n) ∧
    ((after history).isAlive n = false → ∀ more : List Command,
      ((after history).node n).SameContent ((after (history ++ more)).node n) ∧
      (after (history ++ more)).modifying n = .error (.deadNode n)) := by
  refine ⟨fun c hc => (c.leaves_barred hn hbarred (.inl hc)).2,
    fun c => c.isAlive_of_barred hn hbarred, fun hdead more => ?_⟩
  have hsame := sameContent_foldl hn hdead more
  have hafter : after (history ++ more)
      = more.foldl (fun a c => (c.run.exec a).2) (after history) := List.foldl_append
  rw [← hafter] at hsame
  refine ⟨hsame, ?_⟩
  have hstill : (after (history ++ more)).isAlive n = false := hsame.alive.trans hdead
  rw [Arena.modifying, hstill]
  rfl

/-- A class with a locked body is discarded as soon as the lock is gone. -/
def discardHistory : List Command :=
  [.create .class_ {}, .create .directiveList {}, .appendChild ⟨0⟩ ⟨1⟩, .lock ⟨1⟩, .discard ⟨0⟩,
   .unlock ⟨1⟩, .discard ⟨0⟩]

/-- The body of the class is gone for good. -/
theorem barred_unchanged_body :
    1 < (after discardHistory).size ∧ (after discardHistory).Barred ⟨1⟩ ∧
      (after discardHistory).isAlive ⟨1⟩ = false ∧ ∀ more : List Command,
        ((after discardHistory).node ⟨1⟩).SameContent
          ((after (discardHistory ++ more)).node ⟨1⟩) ∧
        (after (discardHistory ++ more)).modifying ⟨1⟩ = .error (.deadNode ⟨1⟩) :=
  have hn : 1 < (after discardHistory).size := by decide +kernel
  have hdead : (after discardHistory).isAlive ⟨1⟩ = false := by decide +kernel
  ⟨hn, .inr hdead, hdead, (barred_unchanged discardHistory ⟨1⟩ hn (.inr hdead)).2.2 hdead⟩

/-- The lock kept the class alive the first time. -/
example : (after (discardHistory.take 5)).isAlive ⟨0⟩ = true := by decide +kernel

end SymbolTree
