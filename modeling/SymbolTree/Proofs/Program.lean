import SymbolTree.Search.Run
import Mathlib.Logic.Relation
import Mathlib.Tactic.Common

/-!
# What a program leaves behind

Edits of the arena, the building of trees and the searches are all programs of one shape: they read
and change a state, may stop early, and keep the state they reached when they do.  This file is the
small logic in which the other files speak about them.

* `Ensures P p Q R` — started where `P` holds, the program `p` either answers `x` in a state with
  `Q x`, or stops for the reason `e` in a state with `R e`.
* `Keeps I p` — the invariant `I` survives `p` whichever way `p` ends.

There is one rule for each way of putting programs together, so that a proof about a program can
follow its text; `Ensures.get_bind` is the one that lets a proof use what was read.
-/

set_option autoImplicit false
namespace SymbolTree

section

variable {ε σ α β : Type}

/-- Two checked requests in a row are granted when the first is and the second is after it. -/
theorem bind_eq_ok_iff {x : Except ε α} {f : α → Except ε β} {b : β} :
    (x >>= f) = .ok b ↔ ∃ a, x = .ok a ∧ f a = .ok b := by
  cases x with
  | error e => simp [Bind.bind, Except.bind]
  | ok a => simp [Bind.bind, Except.bind]

/-- Two checked requests in a row are refused when the first is or the second is after it. -/
theorem bind_eq_error_iff {x : Except ε α} {f : α → Except ε β} {e : ε} :
    (x >>= f) = .error e ↔ x = .error e ∨ ∃ a, x = .ok a ∧ f a = .error e := by
  cases x with
  | error e => simp [Bind.bind, Except.bind]
  | ok a => simp [Bind.bind, Except.bind]

theorem map_eq_ok_iff {x : Except ε α} {f : α → β} {b : β} :
    (f <$> x) = .ok b ↔ ∃ a, x = .ok a ∧ f a = b := by
  cases x with
  | error e => simp [Functor.map, Except.map]
  | ok a => simp [Functor.map, Except.map]

theorem eq_ok_of_toOption {x : Except ε α} {a : α} (h : x.toOption = some a) : x = .ok a := by
  cases x with
  | error e => cases h
  | ok b => rw [Option.some.inj h]

/-- Started in a state with `P`, the program answers `x` and leaves a state with `Q x`, or stops for
the reason `e` and leaves a state with `R e`. -/
def Ensures (P : σ → Prop) (p : ExceptT ε (StateM σ) α) (Q : α → σ → Prop) (R : ε → σ → Prop) :
    Prop :=
  ∀ s, P s → match StateT.run (ExceptT.run p) s with
    | (.ok x, t) => Q x t
    | (.error e, t) => R e t

/-- The invariant survives the program, be it that the program answers or that it stops. -/
def Keeps (I : σ → Prop) (p : ExceptT ε (StateM σ) α) : Prop :=
  Ensures I p (fun _ => I) (fun _ => I)

variable {P P' : σ → Prop} {Q Q' : α → σ → Prop} {R R' : ε → σ → Prop} {I : σ → Prop}
  {p : ExceptT ε (StateM σ) α} {f : α → ExceptT ε (StateM σ) β} {S : β → σ → Prop}

theorem Ensures.state {J : σ → Prop} (h : Ensures P p (fun _ => J) (fun _ => J)) {s : σ}
    (hs : P s) : J (StateT.run (ExceptT.run p) s).2 := by
  have := h s hs
  cases hr : StateT.run (ExceptT.run p) s with
  | mk r t =>
    rw [hr] at this
    cases r with
    | ok x => exact this
    | error e => exact this

theorem Keeps.state (h : Keeps I p) {s : σ} (hs : I s) : I (StateT.run (ExceptT.run p) s).2 :=
  Ensures.state h hs

/-- To keep an invariant is to lead from states with it to such states. -/
theorem Keeps.of_state (h : ∀ s, I s → I (StateT.run (ExceptT.run p) s).2) : Keeps I p := by
  intro s hs
  have := h s hs
  cases hr : StateT.run (ExceptT.run p) s with
  | mk r t =>
    rw [hr] at this
    cases r with
    | ok x => exact this
    | error e => exact this

/-- What a program that answered has ensured. -/
theorem Ensures.of_ok (h : Ensures P p Q R) {s t : σ} {x : α} (hs : P s)
    (hr : StateT.run (ExceptT.run p) s = (.ok x, t)) : Q x t := by
  have := h s hs
  rw [hr] at this
  exact this

/-- What a program that stopped has ensured. -/
theorem Ensures.of_error (h : Ensures P p Q R) {s t : σ} {e : ε} (hs : P s)
    (hr : StateT.run (ExceptT.run p) s = (.error e, t)) : R e t := by
  have := h s hs
  rw [hr] at this
  exact this

/-- Less may be required of the start, and more be said about the end. -/
theorem Ensures.mono (h : Ensures P p Q R) (hP : ∀ s, P' s → P s)
    (hQ : ∀ x s, Q x s → Q' x s) (hR : ∀ e s, R e s → R' e s) : Ensures P' p Q' R' := by
  intro s hs
  have := h s (hP s hs)
  cases hr : StateT.run (ExceptT.run p) s with
  | mk r t =>
    rw [hr] at this
    cases r with
    | ok x => exact hQ x t this
    | error e => exact hR e t this

/-- Two things that are known of a program are known together. -/
theorem Ensures.and (h : Ensures P p Q R) (h' : Ensures P' p Q' R') :
    Ensures (fun s => P s ∧ P' s) p (fun x s => Q x s ∧ Q' x s) fun e s => R e s ∧ R' e s := by
  intro s hs
  have h1 := h s hs.1
  have h2 := h' s hs.2
  cases hr : StateT.run (ExceptT.run p) s with
  | mk r t =>
    rw [hr] at h1 h2
    cases r with
    | ok x => exact ⟨h1, h2⟩
    | error e => exact ⟨h1, h2⟩

/-- A program may be looked at from one state at a time. -/
theorem Ensures.at (h : ∀ s, P s → Ensures (· = s) p Q R) : Ensures P p Q R :=
  fun s hs => h s hs s rfl

/-! ## The rules -/

/-- To answer changes nothing. -/
theorem Ensures.pure {x : α} (h : ∀ s, P s → Q x s) :
    Ensures P (Pure.pure x : ExceptT ε (StateM σ) α) Q R :=
  fun s hs => h s hs

/-- Nor does it to stop. -/
theorem Ensures.throw {e : ε} (h : ∀ s, P s → R e s) :
    Ensures P (throw e : ExceptT ε (StateM σ) α) Q R :=
  fun s hs => h s hs

/-- The second program starts from what the first one ensures when it answers. -/
theorem Ensures.bind (hp : Ensures P p Q R) (hf : ∀ x, Ensures (Q x) (f x) S R) :
    Ensures P (p >>= f) S R := by
  intro s hs
  have h1 := hp s hs
  change match (StateT.run (ExceptT.run p) s >>= fun r => StateT.run (ExceptT.bindCont f r.1) r.2 :
    Id (Except ε β × σ)) with | (.ok x, t) => S x t | (.error e, t) => R e t
  cases hr : StateT.run (ExceptT.run p) s with
  | mk r t =>
    rw [hr] at h1
    cases r with
    | ok x => exact hf x t h1
    | error e => exact h1

/-- Keeping an invariant on the way, with a fact about the answer. -/
theorem Ensures.bind_of {φ : α → Prop} (hp : Ensures P p (fun x s => I s ∧ φ x) R)
    (hf : ∀ x, φ x → Ensures I (f x) S R) : Ensures P (p >>= f) S R :=
  hp.bind fun x s hs => hf x hs.2 s hs.1

/-- What was read is the state, and the proof goes on from there. -/
theorem Ensures.get_bind {f : σ → ExceptT ε (StateM σ) β}
    (h : ∀ s, P s → Ensures (· = s) (f s) S R) : Ensures P (get >>= f) S R :=
  fun s hs => h s hs s rfl

theorem Ensures.modify {g : σ → σ} {Q : Unit → σ → Prop} (h : ∀ s, P s → Q () (g s)) :
    Ensures P (modify g : ExceptT ε (StateM σ) Unit) Q R :=
  fun s hs => h s hs

theorem Ensures.set {t : σ} {Q : Unit → σ → Prop} (h : ∀ s, P s → Q () t) :
    Ensures P (set t : ExceptT ε (StateM σ) Unit) Q R :=
  fun s hs => h s hs

/-- What each of several programs keeps, they keep one after the other. -/
theorem Ensures.forM {γ : Type} {g : γ → ExceptT ε (StateM σ) PUnit} {l : List γ}
    (h : ∀ x ∈ l, Ensures P (g x) (fun _ => P) R) : Ensures P (l.forM g) (fun _ => P) R := by
  induction l with
  | nil => exact Ensures.pure fun s hs => hs
  | cons x l ih =>
    show Ensures P (g x >>= fun _ => l.forM g) (fun _ => P) R
    exact (h x List.mem_cons_self).bind fun _ => ih fun y hy => h y (List.mem_cons_of_mem x hy)

/-- A condition on the value and the state is handed on from step to step. -/
theorem Ensures.foldlM {γ : Type} {g : β → γ → ExceptT ε (StateM σ) β} {l : List γ} {b : β}
    (h : ∀ b, ∀ x ∈ l, Ensures (S b) (g b x) S R) : Ensures (S b) (l.foldlM g b) S R := by
  induction l generalizing b with
  | nil => exact Ensures.pure fun s hs => hs
  | cons x l ih =>
    rw [List.foldlM_cons]
    exact (h b x List.mem_cons_self).bind fun b' =>
      ih fun b y hy => h b y (List.mem_cons_of_mem x hy)

/-- A program that may be saved: what it leaves when it stops is where the rescue begins. -/
theorem Ensures.tryCatch {g : ε → ExceptT ε (StateM σ) α} (hp : Ensures P p Q R')
    (hg : ∀ e, Ensures (R' e) (g e) Q R) : Ensures P (tryCatch p g) Q R := by
  intro s hs
  have h1 := hp s hs
  change match (StateT.run (ExceptT.run p) s >>= fun r => StateT.run (match r.1 with
    | .ok x => Pure.pure (.ok x)
    | .error e => ExceptT.run (g e)) r.2 : Id (Except ε α × σ)) with
    | (.ok x, t) => Q x t | (.error e, t) => R e t
  cases hr : StateT.run (ExceptT.run p) s with
  | mk r t =>
    rw [hr] at h1
    cases r with
    | ok x => exact h1
    | error e => exact hg e t h1

/-! ## Invariants -/

theorem Keeps.pure {x : α} : Keeps I (Pure.pure x : ExceptT ε (StateM σ) α) :=
  Ensures.pure fun _ hs => hs

theorem Keeps.throw {e : ε} : Keeps I (throw e : ExceptT ε (StateM σ) α) :=
  Ensures.throw fun _ hs => hs

/-- What both of two programs keep, they keep one after the other. -/
theorem Keeps.bind (hp : Keeps I p) (hf : ∀ x, Keeps I (f x)) : Keeps I (p >>= f) :=
  Ensures.bind hp hf

/-- What was read satisfies the invariant. -/
theorem Keeps.get_bind {f : σ → ExceptT ε (StateM σ) β} (h : ∀ s, I s → Keeps I (f s)) :
    Keeps I (get >>= f) :=
  Ensures.get_bind fun s hs => (h s hs).mono (fun _ e => e ▸ hs) (fun _ _ => id) fun _ _ => id

theorem Keeps.modify {g : σ → σ} (h : ∀ s, I s → I (g s)) :
    Keeps I (modify g : ExceptT ε (StateM σ) Unit) :=
  Ensures.modify h

theorem Keeps.tryCatch {g : ε → ExceptT ε (StateM σ) α} (hp : Keeps I p) (hg : ∀ e, Keeps I (g e)) :
    Keeps I (tryCatch p g) :=
  Ensures.tryCatch hp hg

theorem Keeps.forM {γ : Type} {g : γ → ExceptT ε (StateM σ) PUnit} {l : List γ}
    (h : ∀ x ∈ l, Keeps I (g x)) : Keeps I (l.forM g) :=
  Ensures.forM h

theorem Keeps.foldlM {γ : Type} {g : β → γ → ExceptT ε (StateM σ) β} {l : List γ} {b : β}
    (h : ∀ b, ∀ x ∈ l, Keeps I (g b x)) : Keeps I (l.foldlM g b) :=
  Ensures.foldlM h

end

/-! ## Programs of requests -/

namespace Edit

variable {α : Type} {I P : Arena → Prop}

theorem exec_checked (f : Arena → Except NodeError (α × Arena)) (a : Arena) :
    (checked f).exec a = match f a with
      | .ok (x, b) => (.ok x, b)
      | .error e => (.error e, a) := rfl

/-- A refused request leaves the arena as it is. -/
theorem exec_change (f : Arena → Except NodeError Arena) (a : Arena) :
    (change f).exec a = match f a with
      | .ok b => (.ok (), b)
      | .error e => (.error e, a) := by
  rw [change, exec_checked]
  cases f a with
  | ok b => rfl
  | error e => rfl

theorem exec_change_eq_ok_iff {f : Arena → Except NodeError Arena} {a b : Arena} :
    (change f).exec a = (.ok (), b) ↔ f a = .ok b := by
  rw [exec_change]
  cases f a <;> simp

/-- What is known after a checked request: it was granted, or it was refused and did nothing. -/
theorem ensures_checked {f : Arena → Except NodeError (α × Arena)} :
    Ensures P (checked f) (fun x b => ∃ a, P a ∧ f a = .ok (x, b))
      fun e b => P b ∧ f b = .error e := by
  intro s hs
  rw [show StateT.run (ExceptT.run (checked f)) s = _ from exec_checked f s]
  cases hf : f s with
  | ok r => exact ⟨s, hs, hf⟩
  | error e => exact ⟨hs, hf⟩

/-- A request that is granted leads to the arena it answers with, and one that is refused changes
nothing. -/
theorem ensures_change {f : Arena → Except NodeError Arena} :
    Ensures P (change f) (fun _ b => ∃ a, P a ∧ f a = .ok b) fun e b => P b ∧ f b = .error e := by
  refine ensures_checked.mono (fun _ h => h) (fun _ b h => ?_) fun e b h => ?_
  · obtain ⟨a, ha, hb⟩ := h
    obtain ⟨b', hb', hb⟩ := map_eq_ok_iff.1 hb
    exact ⟨a, ha, hb'.trans (congrArg Except.ok (congrArg Prod.snd hb))⟩
  · refine ⟨h.1, ?_⟩
    cases hf : f b with
    | ok b' => rw [hf] at h; cases h.2
    | error e' => rw [hf] at h; exact congrArg Except.error (Except.error.inj h.2)

theorem keeps_checked {f : Arena → Except NodeError (α × Arena)}
    (h : ∀ a x b, I a → f a = .ok (x, b) → I b) : Keeps I (checked f) := by
  refine ensures_checked.mono (fun _ ha => ha) (fun x b hb => ?_) fun _ _ hb => hb.1
  obtain ⟨a, ha, hf⟩ := hb
  exact h a x b ha hf

theorem keeps_change {f : Arena → Except NodeError Arena} (h : ∀ a b, I a → f a = .ok b → I b) :
    Keeps I (change f) := by
  refine ensures_change.mono (fun _ ha => ha) (fun _ b hb => ?_) fun _ _ hb => hb.1
  obtain ⟨a, ha, hf⟩ := hb
  exact h a b ha hf

end Edit

end SymbolTree
