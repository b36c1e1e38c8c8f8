import SymbolTree.Proofs.Arena.Move

/-!
# Every history of an arena

`Command` lists the requests that can be made of an arena, and `after` runs a list of them from the
empty arena.  A request that is refused leaves what its own steps before the refusal made of the
arena, and the history goes on from there.

Here are the programs that some requests run (`Edit.keeps_replaceWith`, `Edit.keeps_cleanTreeFrom`)
and the way from one request to a history (`after_invariant`).
-/

set_option autoImplicit false
namespace SymbolTree

open Arena

/-- The requests that can be made of an arena. -/
inductive Command where
  | create (k : Kind) (p : Position)
  | createReplacement (n : NodeId) (k : Kind)
  | cloneBasicNode (n : NodeId)
  | setParent (c : NodeId) (p : Option NodeId) (i : Option Nat)
  | appendChild (p c : NodeId)
  | insertChild (p : NodeId) (i : Nat) (c : NodeId)
  | deleteChild (p : NodeId) (i : Nat)
  | setChild (p : NodeId) (i : Nat) (c : NodeId)
  | replaceWith (n m : NodeId)
  | cleanTree (n : NodeId)
  | discard (n : NodeId)
  | setPosition (n : NodeId) (p : Position)
  | setFlag (n : NodeId) (f : Flag) (v : Bool)
  | setAttribute (n : NodeId) (t : Attribute) (v : Bool)
  | setAttributeTree (n : NodeId) (t : Attribute) (v : Bool)
  | setAttributeNode (n : NodeId) (m : Option NodeId)
  | setBoolean (n : NodeId) (v : Bool)
  | setInt64 (n : NodeId) (v : Int64)
  | setFloat64 (n : NodeId) (v : Float)
  | setText (n : NodeId) (s : String)
  | setSwitchOperator (n : NodeId) (op : Kind)
  | setLink (n : NodeId) (l : Link) (m : Option NodeId)
  | addVariable (n v : NodeId)
  | addLabel (n l : NodeId)
  | setParamSize (n : NodeId) (size : Nat)
  | setParamDepth (n : NodeId) (j : Nat) (depth : Int32)
  | setParamIndex (n : NodeId) (i j : Nat)
  | lock (n : NodeId)
  | unlock (n : NodeId)
  | convert (n : NodeId) (c : Conversion)

namespace Command

/-- The request as a program, its answer forgotten. -/
def run : Command → Edit Unit
  | create k p => modify fun a => (a.create k p).2
  | createReplacement n k => modify fun a => (a.createReplacement n k).2
  | cloneBasicNode n => do let _ ← Edit.checked (·.cloneBasicNode n)
  | setParent c p i => Edit.change (·.setParent c p i)
  | appendChild p c => Edit.change (·.appendChild p c)
  | insertChild p i c => Edit.change (·.insertChild p i c)
  | deleteChild p i => do let _ ← Edit.checked (·.deleteChild p i)
  | setChild p i c => do let _ ← Edit.setChild p i c
  | replaceWith n m => Edit.replaceWith n m
  | cleanTree n => Edit.cleanTree n
  | discard n => Edit.change (·.discard n)
  | setPosition n p => modify fun a => a.setPosition n p
  | setFlag n f v => Edit.change (·.setFlag n f v)
  | setAttribute n t v => do let _ ← Edit.checked (·.setAttribute n t v)
  | setAttributeTree n t v => do let _ ← Edit.setAttributeTree n t v
  | setAttributeNode n m => Edit.change (·.setAttributeNode n m)
  | setBoolean n v => Edit.change (·.setBoolean n v)
  | setInt64 n v => Edit.change (·.setInt64 n v)
  | setFloat64 n v => Edit.change (·.setFloat64 n v)
  | setText n s => Edit.change (·.setText n s)
  | setSwitchOperator n op => Edit.change (·.setSwitchOperator n op)
  | setLink n l m => modify fun a => a.setLink n l m
  | addVariable n v => Edit.change (·.addVariable n v)
  | addLabel n l => Edit.change (·.addLabel n l)
  | setParamSize n size => Edit.change (·.setParamSize n size)
  | setParamDepth n j depth => Edit.change (·.setParamDepth n j depth)
  | setParamIndex n i j => Edit.change (·.setParamIndex n i j)
  | lock n => modify fun a => a.lock n
  | unlock n => Edit.change (·.unlock n)
  | convert n c => do let _ ← Edit.checked (·.convert n c.apply)

end Command

/-- The arena after a history, which starts from nothing. -/
def after (history : List Command) : Arena :=
  history.foldl (fun a c => (c.run.exec a).2) {}

/-! ## Programs of several steps -/

namespace Edit

variable {α : Type} {I : Arena → Prop}

theorem keeps_deleteChild
    (hdetach : ∀ {a b : Arena} {c i}, I a → a.setParent c none i = .ok b → I b) (p : NodeId)
    (i : Nat) : Keeps I (checked (·.deleteChild p i)) :=
  keeps_checked fun _ _ _ h hb => hdetach h (deleteChild_eq_ok hb).2

/-- What every move keeps, the exchange of a child keeps, also when the old child is put back. -/
theorem keeps_setChild
    (hmove : ∀ {a b : Arena} {c p i}, I a → a.setParent c p i = .ok b → I b) (p : NodeId)
    (i : Nat) (c : NodeId) : Keeps I (setChild p i c) := by
  refine Keeps.bind (keeps_deleteChild hmove p i) fun previous => ?_
  refine Keeps.bind (Keeps.tryCatch (keeps_change fun _ _ h hb => hmove h hb) fun e => ?_)
    fun _ => Keeps.pure
  exact Keeps.bind (keeps_change fun _ _ h hb => hmove h hb) fun _ => Keeps.throw

/-- An invariant that does not look at the locks survives a program that sets some of them aside. -/
theorem keeps_withoutLocks {n : NodeId} {p : Edit α} (hlock : ∀ a k, I a → I (a.setLockCount n k))
    (hp : Keeps I p) : Keeps I (withoutLocks n p) := by
  intro a ha
  have h := hp.state (hlock a 0 ha)
  cases hr : p.exec (a.setLockCount n 0) with
  | mk r b =>
    have hb : I b := by
      rw [show StateT.run (ExceptT.run p) (a.setLockCount n 0) = (r, b) from hr] at h
      exact h
    have hrun : StateT.run (ExceptT.run (withoutLocks n p)) a
        = (r, b.setLockCount n (a.lockCount n)) := by
      change ((p.exec (a.setLockCount n 0)).1,
        (p.exec (a.setLockCount n 0)).2.setLockCount n (a.lockCount n)) = _
      rw [hr]
    rw [hrun]
    cases r with
    | ok x => exact hlock b _ hb
    | error e => exact hlock b _ hb

theorem keeps_replaceWith
    (hmove : ∀ {a b : Arena} {c p i}, I a → a.setParent c p i = .ok b → I b) {n : NodeId}
    (m : NodeId) (hlock : ∀ p a k, I a → I (a.setLockCount p k)) : Keeps I (replaceWith n m) := by
  refine Keeps.get_bind fun a _ => ?_
  cases a.parent n with
  | none => exact Keeps.throw
  | some p =>
    refine Keeps.bind (keeps_checked fun a x b h hb => ?_) fun i => ?_
    · obtain ⟨_, -, hb⟩ := bind_eq_ok_iff.1 hb
      obtain rfl : a = b := congrArg Prod.snd (Except.ok.inj hb)
      exact h
    · exact Keeps.bind (keeps_withoutLocks (hlock p) (keeps_setChild hmove p i m)) fun _ =>
        Keeps.pure

theorem keeps_setAttributeTree
    (hset : ∀ {a b : Arena} {n t v r}, I a → a.setAttribute n t v = .ok (r, b) → I b)
    (n : NodeId) (t : Attribute) (v : Bool) : Keeps I (setAttributeTree n t v) :=
  Keeps.get_bind fun _ _ => Keeps.foldlM fun _ _ _ =>
    Keeps.bind (keeps_checked fun _ _ _ h hb => hset h hb) fun _ => Keeps.pure

theorem keeps_cleanChild
    (hdetach : ∀ {a b : Arena} {c i}, I a → a.setParent c none i = .ok b → I b)
    (hdiscard : ∀ {a b : Arena} {c}, I a → a.discard c = .ok b → I b)
    {clean : NodeId → Edit Unit} (hclean : ∀ c, Keeps I (clean c)) (n : NodeId) (i : Nat) :
    Keeps I (cleanChild clean n i) := by
  refine Keeps.bind (keeps_checked fun a x b h hb => ?_) fun c => Keeps.get_bind fun a _ => ?_
  · obtain ⟨_, -, hb⟩ := bind_eq_ok_iff.1 hb
    obtain rfl : a = b := congrArg Prod.snd (Except.ok.inj hb)
    exact h
  · split
    · exact Keeps.bind (keeps_deleteChild hdetach n i) fun _ =>
        keeps_change fun _ _ h hb => hdiscard h hb
    · exact hclean c

theorem keeps_cleanTreeFrom
    (hdetach : ∀ {a b : Arena} {c i}, I a → a.setParent c none i = .ok b → I b)
    (hdiscard : ∀ {a b : Arena} {c}, I a → a.discard c = .ok b → I b) (fuel : Nat) (n : NodeId) :
    Keeps I (cleanTreeFrom fuel n) := by
  induction fuel generalizing n with
  | zero => exact Keeps.pure
  | succ fuel ih =>
    refine Keeps.get_bind fun a _ => ?_
    generalize (a.children n).length = i
    induction i with
    | zero => exact Keeps.pure
    | succ i ihi => exact Keeps.bind (keeps_cleanChild hdetach hdiscard ih n i) fun _ => ihi

end Edit

/-! ## Run -/

/-- What every request keeps, granted or refused, holds after every history. -/
theorem after_invariant {I : Arena → Prop} (hempty : I {}) (hstep : ∀ c : Command, Keeps I c.run)
    (history : List Command) : I (after history) := by
  suffices ∀ a, I a → I (history.foldl (fun a c => (c.run.exec a).2) a) from this {} hempty
  induction history with
  | nil => exact fun a ha => ha
  | cons c history ih => exact fun a ha => ih _ ((hstep c).state ha)

end SymbolTree
