import SymbolTree.Proofs.Arena.Deed
import Mathlib.Data.List.InsertIdx
import Mathlib.Data.List.Nodup

/-!
# Refused requests

A checked request looks before it writes, so that it leaves no trace when it is refused
(`Edit.leaves_checked`).  `Edit.setChild` and `Edit.replaceWith` cannot do so: whether the new child
fits is only found out when the old one is already gone.  They put the old child back, and this file
shows that they always can.  The place is free, and the kinds allow for it because they did before.

Requests that sweep over a whole tree are different, since they keep what they did up to the node
that refused them (`Command.isSweep`).

## Main statements

* `Arena.insertChild_deleteChild` — a child that was taken out can be put back, and then the arena
  is the one from before.
* `refused_unchanged` — no refused request leaves a trace, in any arena that can be reached.
-/

set_option autoImplicit false
namespace SymbolTree

namespace Arena

/-! ## Taking a child out and putting it back -/

/-- Arenas with the same nodes and the same locks are the same. -/
theorem ext_node {a b : Arena} (hsize : a.size = b.size) (hnode : ∀ n, a.node n = b.node n)
    (hlocks : a.locks = b.locks) : a = b := by
  obtain ⟨as, al⟩ := a
  obtain ⟨bs, bl⟩ := b
  obtain rfl : al = bl := hlocks
  have hnodes : as = bs := by
    refine Array.ext hsize fun i hi hi' => ?_
    have h := hnode ⟨i⟩
    simp only [node, Array.getD_eq_getD_getElem?, Array.getElem?_eq_getElem hi,
      Array.getElem?_eq_getElem hi', Option.getD_some] at h
    exact h
  rw [hnodes]

theorem modifying_detach {a : Arena} (h : a.Consistent) (c n : NodeId) :
    (a.detach c).modifying n = a.modifying n := by
  rw [modifying, isAlive, isLocked, lockCount, kind, node_detach h, locks_detach]
  rfl

/-- A detached node can be put at any place below a node that owns children. -/
theorem insertChild_of_detached {a : Arena} {p c : NodeId} {i : Nat}
    (hc : a.modifying c = .ok ()) (hp : a.modifying p = .ok ()) (hdetached : a.parent c = none)
    (hpk : (a.kind p).canBeParent = true) (hck : (a.kind c).canBeChild = true)
    (hi : i ≤ (a.children p).length) : a.insertChild p i c = .ok (a.attach c p (some i)) := by
  have hdetach : a.detach c = a := by rw [detach, hdetached]
  have hplace : a.checkPlace c (some p) (some i) = .ok () := by
    simp [checkPlace, hdetached, hi]
  have hkind : a.checkParentKind c (some p) = .ok () := by
    rw [checkParentKind, if_pos hpk]
  have hmoved : a.relocate c (some p) (some i) = .ok (a.attach c p (some i)) := by
    rw [relocate, hkind, if_pos hck, hplace, hdetach]
    simp only [Option.isNone_some, Bool.and_false]
    rfl
  rw [insertChild, setParent_eq, hc, hdetached, hmoved]
  simp only [hp]
  rfl

/-- A child that is detached and attached again where it was. -/
theorem attach_detach {a : Arena} (h : a.Consistent) {p c : NodeId} {i : Nat}
    (hget : (a.children p)[i]? = some c) : (a.detach c).attach c p (some i) = a := by
  obtain ⟨hi, hat⟩ := List.getElem?_eq_some_iff.1 hget
  have hmem : c ∈ a.children p := List.mem_of_getElem? hget
  have hparent : a.parent c = some p := (h.mem_children p c).1 hmem
  have herase : (a.children p).erase c = (a.children p).eraseIdx i := by
    rw [← hat]
    exact (h.nodup p).erase_getElem i hi
  refine ext_node (by simp) (fun n => ?_) (locks_detach a c)
  have hparents : (if n = c then some p else (a.detach c).parent n) = a.parent n := by
    rw [parent_detach h]
    split
    · next hn => rw [hn, hparent]
    · rfl
  have hchildren : (if n = p then place ((a.detach c).children p) c (some i)
      else (a.detach c).children n) = a.children n := by
    rw [children_detach h, children_detach h]
    split
    · next hn =>
      rw [hn, herase, ← hat]
      exact List.insertIdx_eraseIdx_getElem hi
    · next hn =>
      -- no other node lists `c`
      refine List.erase_of_not_mem fun hother => hn ?_
      exact Option.some.inj (((h.mem_children n c).1 hother).symm.trans hparent)
  rw [node_attach (by simpa using h.child_lt p c hmem)
    (by simpa using h.parent_lt c p hparent), hparents, hchildren, node_detach h]
  rfl

/-- **A child that was taken out can be put back**, and then nothing is different. -/
theorem insertChild_deleteChild {a b : Arena} (h : a.Consistent) {p c : NodeId} {i : Nat}
    (hb : a.deleteChild p i = .ok (c, b)) : b.insertChild p i c = .ok a := by
  obtain ⟨hget, hb⟩ := deleteChild_eq_ok hb
  have hmem : c ∈ a.children p := List.mem_of_getElem? hget
  have hparent : a.parent c = some p := (h.mem_children p c).1 hmem
  obtain ⟨hc, -, hold, hb⟩ := setParent_eq_ok hb
  have hp : a.modifying p = .ok () := hold p hparent (by rw [hparent]; simp)
  obtain ⟨hstay, -⟩ | ⟨hck, -, -, rfl⟩ := relocate_eq_ok hb
  · rw [hparent] at hstay
    cases hstay
  · rw [Option.elim_none, insertChild_of_detached, attach_detach h hget]
    · rw [modifying_detach h]; exact hc
    · rw [modifying_detach h]; exact hp
    · rw [parent_detach h, if_pos rfl]
    · rw [kind_detach h]; exact h.canBeParent p (List.ne_nil_of_mem hmem)
    · rw [kind_detach h]; exact hck
    · rw [children_detach h, List.length_erase_of_mem hmem]
      exact Nat.le_sub_one_of_lt (List.getElem?_eq_some_iff.1 hget).1

/-- The exchange of a child is refused for the reason `e`: the old child cannot be taken out, or the
new one cannot be put in its place.  Then the old one is put back, which is granted and restores the
arena. -/
def ExchangeRefused (a : Arena) (p : NodeId) (i : Nat) (c : NodeId) (e : NodeError) : Prop :=
  a.deleteChild p i = .error e ∨ ∃ previous b, a.deleteChild p i = .ok (previous, b) ∧
    b.insertChild p i c = .error e ∧ b.insertChild p i previous = .ok a

/-- Locks that are set aside and put back are as they were. -/
theorem setLockCount_setLockCount (a : Arena) (n : NodeId) (k : Nat) :
    (a.setLockCount n k).setLockCount n (a.lockCount n) = a := by
  obtain ⟨nodes, locks⟩ := a
  simp only [setLockCount, lockCount, mk.injEq, true_and]
  refine Array.ext (by simp) fun i hi hi' => ?_
  simp only [Array.getElem_modify]
  split
  · next hn => subst hn; simp [hi']
  · rfl

end Arena

/-! ## Programs -/

namespace Edit

open Arena

variable {α : Type} {P : Arena → Prop} {a : Arena}

/-- A refused exchange of a child leaves no trace. -/
theorem ensures_setChild (h : a.Consistent) (p : NodeId) (i : Nat) (c : NodeId) :
    Ensures (· = a) (setChild p i c) (fun _ _ => True)
      fun e b => b = a ∧ a.ExchangeRefused p i c e := by
  have hdelete : Ensures (· = a) (checked (·.deleteChild p i))
      (fun previous b => a.deleteChild p i = .ok (previous, b))
      fun e b => b = a ∧ a.ExchangeRefused p i c e := by
    refine ensures_checked.mono (fun _ h => h) (fun _ _ h => ?_) fun _ _ h => ?_
    · obtain ⟨_, rfl, hb⟩ := h
      exact hb
    · obtain ⟨rfl, he⟩ := h
      exact ⟨rfl, .inl he⟩
  refine hdelete.bind fun previous => Ensures.bind (Q := fun _ _ => True) ?_ fun _ =>
    Ensures.pure fun _ _ => trivial
  refine Ensures.tryCatch (ensures_change.mono (fun _ h => h) (fun _ _ _ => trivial)
    fun _ _ h => h) fun e => ?_
  -- the new child was refused, and the old one is put back
  have hback : Ensures
      (fun b => a.deleteChild p i = .ok (previous, b) ∧ b.insertChild p i c = .error e)
      (change (·.insertChild p i previous)) (fun _ b => b = a ∧ a.ExchangeRefused p i c e)
      fun e' b => b = a ∧ a.ExchangeRefused p i c e' := by
    refine ensures_change.mono (fun _ h => h) (fun _ b hb => ?_) fun e' b hb => ?_
    · obtain ⟨d, ⟨hd, hrefused⟩, hb⟩ := hb
      have hput := insertChild_deleteChild h hd
      exact ⟨Except.ok.inj (hb.symm.trans hput), .inr ⟨previous, d, hd, hrefused, hput⟩⟩
    · obtain ⟨⟨hd, -⟩, he⟩ := hb
      rw [insertChild_deleteChild h hd] at he
      cases he
  exact hback.bind fun _ => Ensures.throw fun _ hs => hs

theorem ensures_withoutLocks {n : NodeId} {p : Edit α} {R : NodeError → Arena → Prop}
    (h : Ensures (· = a.setLockCount n 0) p (fun _ _ => True) R) :
    Ensures (· = a) (withoutLocks n p) (fun _ _ => True)
      fun e b => ∃ d, R e d ∧ b = d.setLockCount n (a.lockCount n) := by
  intro s hs
  subst hs
  have hp := h _ rfl
  rw [show StateT.run (ExceptT.run (withoutLocks n p)) s = ((p.exec (s.setLockCount n 0)).1,
    (p.exec (s.setLockCount n 0)).2.setLockCount n (s.lockCount n)) from rfl]
  cases hr : p.exec (s.setLockCount n 0) with
  | mk r d =>
    rw [show StateT.run (ExceptT.run p) (s.setLockCount n 0) = (r, d) from hr] at hp
    cases r with
    | ok x => trivial
    | error e => exact ⟨d, hp, rfl⟩

/-- A refused replacement leaves no trace, and every lock is as it was. -/
theorem ensures_replaceWith (h : a.Consistent) (n m : NodeId) :
    Ensures (· = a) (replaceWith n m) (fun _ _ => True) fun e b => b = a ∧
      ∀ p i, a.parent n = some p → a.offset n = .ok i →
        (a.setLockCount p 0).ExchangeRefused p i m e := by
  refine Ensures.get_bind fun s hs => ?_
  subst hs
  cases hp : s.parent n with
  | none => exact Ensures.throw fun _ hs => ⟨hs, nofun⟩
  | some p =>
    have hoffset : Ensures (· = s) (checked fun a => return (← a.offset n, a))
        (fun i b => b = s ∧ s.offset n = .ok i)
        fun e b => b = s ∧ ∀ q i, some p = some q → s.offset n = .ok i →
          (s.setLockCount q 0).ExchangeRefused q i m e := by
      refine ensures_checked.mono (fun _ h => h) (fun i b hb => ?_) fun e b hb => ?_
      · obtain ⟨_, rfl, hb⟩ := hb
        obtain ⟨j, hj, hb⟩ := bind_eq_ok_iff.1 hb
        obtain ⟨rfl, rfl⟩ := Prod.mk.inj (Except.ok.inj hb)
        exact ⟨rfl, hj⟩
      · obtain ⟨rfl, he⟩ := hb
        refine ⟨rfl, fun q i _ hi => ?_⟩
        rw [hi] at he
        cases he
    refine hoffset.bind_of fun i hi => Ensures.bind (Q := fun _ _ => True) ?_ fun _ =>
      Ensures.pure fun _ _ => trivial
    refine (ensures_withoutLocks (ensures_setChild (h.setLockCount p 0) p i m)).mono
      (fun _ h => h) (fun _ _ h => h) fun e b hb => ?_
    obtain ⟨_, ⟨rfl, hrefused⟩, rfl⟩ := hb
    refine ⟨setLockCount_setLockCount s p 0, fun q j hq hj => ?_⟩
    obtain rfl := Option.some.inj hq
    obtain rfl := Except.ok.inj (hi.symm.trans hj)
    exact hrefused

/-! ## Every request -/

/-- When the program is refused it leaves the arena it was started in. -/
def Leaves (a : Arena) (p : Edit α) : Prop :=
  Ensures (· = a) p (fun _ _ => True) fun _ b => b = a

theorem leaves_checked {f : Arena → Except NodeError (α × Arena)} : Leaves a (checked f) :=
  ensures_checked.mono (fun _ h => h) (fun _ _ _ => trivial) fun _ _ h => h.1

theorem leaves_change {f : Arena → Except NodeError Arena} : Leaves a (change f) :=
  leaves_checked

theorem leaves_modify {f : Arena → Arena} : Leaves a (modify f : Edit Unit) :=
  Ensures.modify fun _ _ => trivial

/-- The answer of a program may be forgotten. -/
theorem Leaves.forget {p : Edit α} (h : Leaves a p) : Leaves a (do let _ ← p : Edit Unit) :=
  Ensures.bind h fun _ => Ensures.pure fun _ _ => trivial

end Edit

/-- Requests that go over a whole tree and keep what they did before they were refused. -/
def Command.isSweep : Command → Bool
  | setAttributeTree .. | cleanTree _ => true
  | _ => false

theorem Command.leaves {a : Arena} (h : a.Consistent) (c : Command) (hc : c.isSweep = false) :
    Edit.Leaves a c.run := by
  open Edit in
  cases c with
  | create k p => exact leaves_modify
  | createReplacement n k => exact leaves_modify
  | cloneBasicNode n => exact leaves_checked.forget
  | setParent c p i => exact leaves_change
  | appendChild p c => exact leaves_change
  | insertChild p i c => exact leaves_change
  | deleteChild p i => exact leaves_checked.forget
  | setChild p i c =>
    exact Leaves.forget ((ensures_setChild h p i c).mono (fun _ h => h) (fun _ _ h => h)
      fun _ _ h => h.1)
  | replaceWith n m =>
    exact (ensures_replaceWith h n m).mono (fun _ h => h) (fun _ _ h => h) fun _ _ h => h.1
  | cleanTree n => cases hc
  | discard n => exact leaves_change
  | setPosition n p => exact leaves_modify
  | setFlag n f v => exact leaves_change
  | setAttribute n t v => exact leaves_checked.forget
  | setAttributeTree n t v => cases hc
  | setAttributeNode n m => exact leaves_change
  | setBoolean n v => exact leaves_change
  | setInt64 n v => exact leaves_change
  | setFloat64 n v => exact leaves_change
  | setText n s => exact leaves_change
  | setSwitchOperator n op => exact leaves_change
  | setLink n l m => exact leaves_modify
  | addVariable n v => exact leaves_change
  | addLabel n l => exact leaves_change
  | setParamSize n size => exact leaves_change
  | setParamDepth n j depth => exact leaves_change
  | setParamIndex n i j => exact leaves_change
  | lock n => exact leaves_modify
  | unlock n => exact leaves_change
  | convert n c => exact leaves_checked.forget

/-- **A refused request changes nothing**, in any arena that can be reached: no field of any node, no
lock, and no node is added.  When the exchange of a child is refused half way, the old child can be
put back and then stands where it stood. -/
theorem refused_unchanged (history : List Command) (c : Command) (hc : c.isSweep = false)
    (e : NodeError) (he : (c.run.exec (after history)).1 = .error e) :
    (c.run.exec (after history)).2 = after history ∧
      (∀ p i m, c = .setChild p i m → (after history).ExchangeRefused p i m e) ∧
      ∀ n m p i, c = .replaceWith n m → (after history).parent n = some p →
        (after history).offset n = .ok i →
        ((after history).setLockCount p 0).ExchangeRefused p i m e := by
  have h := after_invariant Arena.consistent_empty Command.keeps_consistent history
  generalize after history = a at h he ⊢
  have hr : StateT.run (ExceptT.run c.run) a = (.error e, (c.run.exec a).2) := Prod.ext he rfl
  refine ⟨(c.leaves h hc).of_error rfl hr, ?_, ?_⟩
  · rintro p i m rfl
    have hset := (Edit.ensures_setChild h p i m).bind (f := fun _ => pure ()) (S := fun _ _ => True)
      fun _ => Ensures.pure fun _ _ => trivial
    exact (hset.of_error rfl hr).2
  · rintro n m p i rfl hp hi
    exact ((Edit.ensures_replaceWith h n m).of_error rfl hr).2 p i hp hi

/-- A locked list of two names, and a locked name outside of it. -/
def lockedHistory : List Command :=
  [.create .directiveList {}, .create .identifier {}, .create .identifier {},
   .create .identifier {}, .appendChild ⟨0⟩ ⟨1⟩, .appendChild ⟨0⟩ ⟨2⟩, .lock ⟨0⟩, .lock ⟨0⟩,
   .lock ⟨3⟩]

/-- The first name is taken out of the list before the lock on the new one is noticed. -/
theorem refused_unchanged_replaceWith :
    (Command.replaceWith ⟨1⟩ ⟨3⟩).isSweep = false ∧
      ((Command.replaceWith ⟨1⟩ ⟨3⟩).run.exec (after lockedHistory)).1
        = .error (.locked ⟨3⟩ .identifier) ∧
      ((Command.replaceWith ⟨1⟩ ⟨3⟩).run.exec (after lockedHistory)).2 = after lockedHistory ∧
      ((after lockedHistory).setLockCount ⟨0⟩ 0).ExchangeRefused ⟨0⟩ 0 ⟨3⟩
        (.locked ⟨3⟩ .identifier) :=
  have he : ((Command.replaceWith ⟨1⟩ ⟨3⟩).run.exec (after lockedHistory)).1
      = .error (.locked ⟨3⟩ .identifier) := by decide +kernel
  have h := refused_unchanged lockedHistory (.replaceWith ⟨1⟩ ⟨3⟩) rfl _ he
  ⟨rfl, he, h.1, h.2.2 ⟨1⟩ ⟨3⟩ ⟨0⟩ 0 rfl (by decide +kernel) (by decide +kernel)⟩

end SymbolTree
