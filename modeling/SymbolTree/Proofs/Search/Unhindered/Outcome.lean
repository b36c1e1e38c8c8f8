import SymbolTree.Proofs.Search.Proceeds
import SymbolTree.Proofs.Search.Unhindered.Tidy

/-!
# Searches that pass the locks

`Search.Unhindered c p φ` says that the search `p`, started in `c`, is not refused because of a lock
and, if it answers, leads to a tidy context with `φ`.  Nothing else is said about a search that
fails.

The rules are those of `Search.Proceeds`.  A proof goes on from the very context that a search left,
since what may be written there depends on the kinds of the nodes at hand.

## Main statements

* `Search.Unhindered.setFlag` — a node of a kind that is never held may be marked.
* `Search.Unhindered.withLock` — a node of a kind that may be held may be locked.
-/

set_option autoImplicit false
namespace SymbolTree

namespace Search

variable {α β : Type} {c d : Context}

/-- A search that is not refused because of a lock and, if it answers, leads from an orderly context
to one with `φ`. -/
abbrev Unhindered (c : Context) (p : Search α) (φ : α → Context → Prop) : Prop :=
  Proceeds (fun c => c.arena.Orderly) (fun c d => c.arena.LeadsTo d.arena)
    (fun e => e.isLock = false) c p φ

/-- A search that is not refused because of a lock, whatever it answers. -/
abbrev Passes (c : Context) (p : Search α) : Prop := Unhindered c p fun _ _ => True

instance progress_leadsTo : Progress (fun c => c.arena.Orderly)
    (fun c d => c.arena.LeadsTo d.arena) fun e => e.isLock = false where
  trans := Arena.LeadsTo.trans
  start := Arena.LeadsTo.orderly
  aside _ _ _ _ hc := .refl hc
  drop n hc := hc.drop n
  fault _ := rfl

namespace Unhindered

variable {p : Search α} {f : α → Search β} {φ : α → Context → Prop} {ψ : β → Context → Prop}

theorem not_isLock (h : Unhindered c p φ) (hc : c.arena.Orderly) {e : Stop}
    (he : (p.exec c).1 = .error e) : e.isLock = false :=
  h.of_error hc (Prod.ext he rfl)

theorem passes (h : Unhindered c p φ) : Passes c p := h.mono fun _ _ _ _ => trivial

theorem flag {n : NodeId} {g : Flag} : Passes c (Search.ask fun a => a.flag n g) :=
  passes (.ask fun _ => Arena.not_isLock_flag)

theorem flag_bind {n : NodeId} {g : Flag} {f : Bool → Search β}
    (h : ∀ b, Unhindered c (f b) ψ) : Unhindered c (Search.ask (fun a => a.flag n g) >>= f) ψ :=
  .ask_bind (fun _ => Arena.not_isLock_flag) fun b _ => h b

theorem write {g : Arena → Arena} (h : c.arena.Orderly → c.arena.LeadsTo (g c.arena)) :
    Passes c (write g) :=
  .modify h

/-- A node of a kind that is never held may be marked. -/
theorem setFlag {n : NodeId} {g : Flag}
    (h : g.accepts (c.arena.kind n) = true → (c.arena.kind n).isHeld = false) :
    Passes c (Search.change fun a => a.setFlag n g true) := by
  refine passes (.change (fun b hc hb => hc.setFlag hb) fun e hc he => ?_)
  by_contra hlock
  obtain ⟨haccepts, hheld⟩ := hc.isHeld_of_setFlag he (by simpa [Stop.isLock] using hlock)
  rw [h haccepts] at hheld
  cases hheld

/-- A node of a kind that is never held may be given a name. -/
theorem setText {n : NodeId} {s : String} (h : (c.arena.kind n).isHeld = false) :
    Passes c (Search.change fun a => a.setText n s) := by
  refine passes (.change (fun b hc hb => hc.setText hb) fun e hc he => ?_)
  by_contra hlock
  have hheld := hc.isHeld_of_setText he (by simpa [Stop.isLock] using hlock)
  rw [h] at hheld
  cases hheld

/-- A name or a type is created. -/
theorem createReplacement {n : NodeId} {k : Kind} (hk : k = .identifier ∨ k = .void) :
    Unhindered c (createReplacement n k) fun m d => d.arena.kind m = k := by
  refine .of_exec (fun x d hc hr => ?_) fun e d hc hr => ?_
  · rw [Search.createReplacement, exec_checked] at hr
    cases hr
    exact ⟨hc.push hk rfl rfl rfl rfl,
      congrArg Node.kind ((Arena.node_create ..).trans (if_pos rfl))⟩
  · rw [Search.createReplacement, exec_checked] at hr
    cases hr

/-- A node of a kind that may be held may be locked. -/
theorem withLock {n : NodeId} (hn : (c.arena.kind n).isHeld = true)
    (h : ∀ d, c.arena.LeadsTo d.arena → Unhindered d p φ)
    (hφ : ∀ x d e, d.arena.LeadsTo e.arena → φ x d → φ x e) : Unhindered c (withLock n p) φ :=
  Proceeds.withLock (fun hc => hc.lock hn) (fun hlock => h _ hlock) fun x d e hd _ => hφ x d e hd

/-- A lock around a search that stops at once does no harm. -/
theorem withLock_internal {n : NodeId} {e : TreeFault} :
    Unhindered c (Search.withLock n (Search.internal e : Search α)) φ :=
  .of_exec (fun _ _ _ hr => by cases hr) fun _ _ _ hr => by
    cases hr
    rfl

end Unhindered

end Search

end SymbolTree
