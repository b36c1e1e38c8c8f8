import SymbolTree.Proofs.Arena.Labels
import SymbolTree.Proofs.Search.Imported.Kept

/-!
# Labels of a package that is searched

Before a name is looked for in a package, its labels are registered.  This is sure to come to its
end where labels have names, and leaves the module as it was.

## Main statements

* `Search.answers_registerLabels`
-/

set_option autoImplicit false
namespace SymbolTree

namespace Search

open Relation (ReflTransGen)

variable {c d : Context} {m n p : NodeId}

/-- The module is as it was, and the labels that are registered with a package of it were not
discarded. -/
structure Labelled (c : Context) (m p : NodeId) (d : Context) : Prop where
  /-- The module is as it was. -/
  kept : Kept c m 0 d.arena d.attributeCache
  /-- Labels that are registered were not discarded. -/
  registered : ∀ l ∈ (d.arena.node p).labels, c.arena.isAlive l.2 = true

/-- A label is registered, or reported when there is one of its name already. -/
theorem answers_registerLabel (h : c.HoldsModule m) (hp : c.arena.Inside p m)
    (hkp : c.arena.kind p = .package) (hn : c.arena.Inside n m) (hk : c.arena.kind n = .label)
    (hd : Labelled c m p d) :
    Answers d (if (d.arena.findLabel p (d.arena.name n)).isSome then
        error .duplicates p
          ("label '" ++ d.arena.name n ++
            "' defined twice in the same program, package or function.")
      else change fun a => a.addLabel p n) fun _ => Labelled c m p := by
  have hlt := h.lt_size hn
  have hkd : d.arena.kind n = .label := (hd.kept.grows.kind hlt).trans hk
  have hkpd : d.arena.kind p = .package := (hd.kept.grows.kind (h.lt_size hp)).trans hkp
  have hname : d.arena.name n = (d.arena.node n).text := by
    rw [Arena.name, hkd]
    rfl
  rw [hname]
  split
  · exact answers_error (P := Labelled c m p) (fun _ => ⟨hd.kept, hd.registered⟩) _ _ _
  · next hnone =>
    rw [Option.not_isSome_iff_eq_none] at hnone
    have halive : ∀ l ∈ (d.arena.node p).labels, d.arena.isAlive l.2 = true := by
      intro l hl
      have hlive := hd.registered l hl
      rwa [Arena.isAlive, (hd.kept.grows.node l.2 (Arena.lt_size_of_isAlive hlive)).alive]
    have htext : (d.arena.node n).text ≠ "" := by
      rw [(hd.kept.grows.node n hlt).text]
      exact h.labelled n hn hk
    rw [Arena.findLabel_eq_lookup halive] at hnone
    have hadd := Arena.addLabel_of_lookup_eq_none hkd (by rw [hkpd]; rfl) htext hnone
    refine Answers.change hadd ⟨hd.kept.addLabel hadd ?_, fun l hl => ?_⟩
    · rw [hkp]
      decide
    · dsimp only at hl
      rw [Arena.node_update] at hl
      split at hl
      · rcases List.mem_append.1 hl with hl | hl
        · exact hd.registered l hl
        · rw [List.mem_singleton.1 hl]
          exact h.alive n hn
      · exact hd.registered l hl

/-- The labels at and below a node are registered, as deep as the tree reaches. -/
theorem answers_findLabelsFrom (h : c.HoldsModule m) (hp : c.arena.Inside p m)
    (hkp : c.arena.kind p = .package) {k : Nat} (hshallow : c.arena.Shallow k n)
    (hn : c.arena.Inside n m) (hd : Labelled c m p d) :
    Answers d (findLabelsFrom p k n) fun _ => Labelled c m p := by
  induction k generalizing n d with
  | zero => exact hshallow.elim
  | succ k ih =>
    have hlt := h.lt_size hn
    refine Answers.arena_bind ?_
    rw [hd.kept.grows.kind hlt, hd.kept.grows.children hlt]
    split
    · next hk => exact answers_registerLabel h hp hkp hn hk hd
    split
    · exact Answers.pure hd
    have hall : ∀ l : List NodeId, (∀ x ∈ l, x ∈ c.arena.children n) → ∀ d, Labelled c m p d →
        Answers d (l.forM (findLabelsFrom p k)) fun _ => Labelled c m p := by
      intro l
      induction l with
      | nil => exact fun _ d hd => Answers.pure hd
      | cons x l ihl =>
        intro hl d hd
        have hx := hl x List.mem_cons_self
        have hinside := ReflTransGen.head (Arena.under_of_mem_children h.sound.consistent hx) hn
        exact (ih (hshallow x hx) hinside hd).bind fun _ d hd =>
          ihl (fun y hy => hl y (List.mem_cons_of_mem x hy)) d hd
    have hlocked : Labelled c m p { d with arena := d.arena.lock n } :=
      ⟨hd.kept.lock n, hd.registered⟩
    refine (hall _ (fun _ => id) _ hlocked).withLock fun _ e he => ⟨he.kept.drop _, fun l hl => ?_⟩
    rw [Arena.node, Arena.nodes_drop] at hl
    exact he.registered l hl

/-- The labels of a package are registered the first time it is searched. -/
theorem answers_registerLabels (h : c.HoldsModule m) (hp : c.arena.Inside p m)
    (hkp : c.arena.kind p = .package) {body : NodeId} (hbody : body ∈ c.arena.children p)
    (hd : Labelled c m p d) (hfree : d.arena.modifying p = .ok ()) :
    Answers d (registerLabels p body) fun _ => Labelled c m p := by
  have hkpd : d.arena.kind p = .package := (hd.kept.grows.kind (h.lt_size hp)).trans hkp
  have hinside := ReflTransGen.head (Arena.under_of_mem_children h.sound.consistent hbody) hp
  refine Answers.ask_bind (Arena.flag_of_accepts (by rw [hkpd]; rfl)) ?_
  split
  · exact Answers.pure hd
  obtain ⟨b, hb⟩ := Arena.exists_setFlag (f := .packageFoundLabels) (by rw [hkpd]; rfl) hfree
  have hmark : Answers d (change fun a => a.setFlag p .packageFoundLabels true)
      fun _ => Labelled c m p := by
    refine Answers.change hb ⟨hd.kept.setFlag hb (by rw [hkp]; decide), fun l hl => ?_⟩
    obtain ⟨-, -, rfl⟩ := Arena.setFlag_eq_ok_iff.1 hb
    dsimp only at hl
    rw [Arena.node_update] at hl
    split at hl
    · exact hd.registered l hl
    · exact hd.registered l hl
  refine hmark.bind fun _ d hd => Answers.arena_bind ?_
  rw [hd.kept.size]
  exact answers_findLabelsFrom h hp hkp
    (h.forest.shallow h.sound.consistent (by omega)) hinside hd

end Search

end SymbolTree
