import SymbolTree.Proofs.Arena.Discard

/-!
# Discarding a copy

A copy of a literal has the links of the literal and none of its children.  Among the links is the
one to the attribute node, which a node owns like a child.  So a literal and its copy own the same
attribute node, and whichever of the two is discarded takes it along with all that it owns.

The copy can be discarded alone exactly when the literal has no attribute node, or had one that was
discarded before (`discard_clone_iff`).  Otherwise the literal loses it
(`discard_clone_takes`).

## Main statements

* `Arena.Copies.gathers_iff` — what is met from a copy.
* `discard_clone_iff` — what dies with a copy, and when the original is spared.
-/

set_option autoImplicit false
namespace SymbolTree

open Relation (ReflTransGen)

namespace Arena

variable {a b d : Arena} {n c m : NodeId}

/-! ## What a copy owns -/

/-- The node `c` was made as a copy of `n`, as far as owning goes. -/
structure Copies (a d : Arena) (n c : NodeId) : Prop where
  /-- The copy was not there before. -/
  new : a.isAlive c = false
  /-- The literal was. -/
  ne : n ≠ c
  /-- The copy is there. -/
  alive : d.isAlive c = true
  /-- It owns what the literal owns beside its children. -/
  owns : ∀ m, d.Owns c m ↔ (a.node n).attributeNode = some m
  /-- All other nodes are as they were. -/
  others : ∀ m, m ≠ c → d.node m = a.node m

theorem copies_push {e : Node} (hn : n.index < a.size) (halive : e.alive = true)
    (hchildren : e.children = []) (hattribute : e.attributeNode = (a.node n).attributeNode) :
    a.Copies (a.push e).2 n ⟨a.size⟩ := by
  have hnode : (a.push e).2.node ⟨a.size⟩ = e := by rw [node_push, if_pos rfl]
  refine ⟨?_, fun h => ?_, ?_, fun m => ?_, fun m hm => ?_⟩
  · rw [isAlive, node_of_size_le (n := ⟨a.size⟩) (Nat.le_refl a.size)]
    rfl
  · rw [h] at hn
    exact Nat.lt_irrefl _ hn
  · rw [isAlive, hnode, halive]
  · rw [Owns, Arena.children, hnode, hchildren, hattribute]
    exact or_iff_right List.not_mem_nil
  · rw [node_push, if_neg fun hi => hm (congrArg NodeId.mk hi)]

theorem copies_of_cloneBasicNode (h : a.cloneBasicNode n = .ok (c, d)) : a.Copies d n c := by
  simp only [cloneBasicNode] at h
  split at h
  · next hk =>
    have hn : n.index < a.size := lt_size_of_kind_ne fun hunknown => by
      rw [← kind, hunknown] at hk
      cases hk
    obtain rfl : (⟨a.size⟩ : NodeId) = c := congrArg Prod.fst (Except.ok.inj h)
    obtain rfl : _ = d := congrArg Prod.snd (Except.ok.inj h)
    exact copies_push hn rfl rfl rfl
  · cases h

namespace Copies

variable {x : NodeId}

theorem isAlive_iff (h : a.Copies d n c) (hx : x ≠ c) : d.isAlive x = a.isAlive x := by
  rw [isAlive, isAlive, h.others x hx]

theorem owns_iff (h : a.Copies d n c) (hx : x ≠ c) : d.Owns x m ↔ a.Owns x m := by
  rw [Owns, Owns, Arena.children, Arena.children, h.others x hx]

theorem ne_of_isAlive (h : a.Copies d n c) (hx : a.isAlive x = true) : x ≠ c := by
  rintro rfl
  rw [h.new] at hx
  cases hx

/-- **From a copy is met what is met from the attribute node of the literal.** -/
theorem gathers_iff (h : a.Copies d n c) :
    d.Gathers c m ↔ m = c ∨ ∃ l, (a.node n).attributeNode = some l ∧ a.Gathers l m := by
  constructor
  · intro hm
    induction hm with
    | refl => exact .inl rfl
    | @tail x y _ hxy ih =>
      obtain ⟨hx, hxy⟩ := hxy
      by_cases hxc : x = c
      · -- also a way that comes back to the copy goes on with the attribute node
        exact .inr ⟨y, (h.owns y).1 (hxc ▸ hxy), .refl⟩
      · obtain ⟨l, hl, hlx⟩ := ih.resolve_left hxc
        rw [h.isAlive_iff hxc] at hx
        exact .inr ⟨l, hl, hlx.tail ⟨hx, (h.owns_iff hxc).1 hxy⟩⟩
  · rintro (rfl | ⟨l, hl, hm⟩)
    · exact .refl
    · have hold : d.Gathers l m := ReflTransGen.mono (fun x y ⟨hx, hxy⟩ =>
        have hxc := h.ne_of_isAlive hx
        ⟨(h.isAlive_iff hxc).trans hx, (h.owns_iff hxc).2 hxy⟩) l m hm
      exact .head ⟨h.alive, (h.owns l).2 hl⟩ hold

end Copies

/-! ## What dies with it -/

/-- With the copy dies what is met from the attribute node of the literal, if it has one. -/
theorem Copies.isAlive_discard_iff (h : a.Copies d n c) (hb : d.discard c = .ok b) (m : NodeId) :
    b.isAlive m = true ↔
      a.isAlive m = true ∧ ∀ l, a.attributeNode n = some l → ¬ a.Gathers l m := by
  have hretires := retires_of_discard h.alive hb
  by_cases hmet : d.Gathers c m
  · have hdead : b.isAlive m = false := by rw [isAlive, hretires.met m hmet]
    rw [hdead]
    refine iff_of_false Bool.false_ne_true ?_
    rintro ⟨halive, hfar⟩
    obtain ⟨l, hl, hlm⟩ := (h.gathers_iff.1 hmet).resolve_left (h.ne_of_isAlive halive)
    -- an attribute node that is dead leads no further
    have hlive : a.isAlive l = true := by
      by_contra hlive
      rw [Bool.not_eq_true] at hlive
      rw [eq_of_gathers_dead hlive hlm, hlive] at halive
      cases halive
    exact hfar l (by rw [attributeNode, hl, live, Option.filter_some, if_pos hlive]) hlm
  · have hmc : m ≠ c := fun hm => hmet (hm ▸ .refl)
    rw [isAlive, hretires.others m hmet, ← isAlive, h.isAlive_iff hmc]
    refine ⟨fun halive => ⟨halive, fun l hl hlm => hmet ?_⟩, And.left⟩
    exact h.gathers_iff.2 (.inr ⟨l, (Option.filter_eq_some_iff.1 hl).1, hlm⟩)

/-- Nothing but the copy `c` of the literal `n` was lost on the way from `a`, where it was not yet
made, to `b`, where it is discarded. -/
structure SparesOriginal (a b : Arena) (n c : NodeId) : Prop where
  /-- Every other node is alive if it was. -/
  others : ∀ m, m ≠ c → b.isAlive m = a.isAlive m
  /-- The literal has the attribute node that it had. -/
  attributeNode : b.attributeNode n = a.attributeNode n
  /-- The literal stands for what it stood for. -/
  inst : b.inst n = a.inst n
  /-- The literal has the type that it had. -/
  typeNode : b.typeNode n = a.typeNode n

/-- In every case the literal has no attribute node when its copy was discarded. -/
theorem Copies.attributeNode_discard (h : a.Copies d n c) (hb : d.discard c = .ok b) :
    b.attributeNode n = none := by
  rw [Arena.attributeNode, live, (retires_of_discard h.alive hb).attributeNode, h.others n h.ne,
    Option.filter_eq_none_iff]
  intro l hl halive
  obtain ⟨hlive, hfar⟩ := (h.isAlive_discard_iff hb l).1 halive
  exact hfar l (Option.filter_eq_some_iff.2 ⟨hl, hlive⟩) .refl

theorem Copies.sparesOriginal_iff (h : a.Copies d n c) (hb : d.discard c = .ok b) :
    a.SparesOriginal b n c ↔ a.attributeNode n = none := by
  have hnone := h.attributeNode_discard hb
  refine ⟨fun hspares => hspares.attributeNode.symm.trans hnone, fun hn => ?_⟩
  have halive : b.isAlive = a.isAlive := funext fun m => by
    rw [Bool.eq_iff_iff, h.isAlive_discard_iff hb m, hn]
    exact and_iff_left nofun
  have hlink : ∀ l, b.link n l = a.link n l := fun l => by
    rw [Arena.link, Arena.link, live, live, halive, (retires_of_discard h.alive hb).link,
      h.others n h.ne]
  exact ⟨fun m _ => congrFun halive m, hnone.trans hn.symm, hlink .inst, hlink .typeNode⟩

end Arena

/-- **A copy can be discarded alone exactly when the literal has no attribute node.**  Otherwise
everything dies that is met from this node, and the literal is left without it. -/
theorem discard_clone_iff {a b d : Arena} {n c : NodeId} (hclone : a.cloneBasicNode n = .ok (c, d))
    (hdiscard : (Command.discard c).run.exec d = (.ok (), b)) :
    (∀ m, b.isAlive m = true ↔
      a.isAlive m = true ∧ ∀ l, a.attributeNode n = some l → ¬ a.Gathers l m) ∧
    b.attributeNode n = none ∧ (a.SparesOriginal b n c ↔ a.attributeNode n = none) := by
  have hcopies := Arena.copies_of_cloneBasicNode hclone
  have hb : d.discard c = .ok b := Edit.exec_change_eq_ok_iff.1 hdiscard
  exact ⟨hcopies.isAlive_discard_iff hb, hcopies.attributeNode_discard hb,
    hcopies.sparesOriginal_iff hb⟩

/-- A string with a list of one attribute, and a string without. -/
def attributedHistory : List Command :=
  [.create .string {}, .create .attributes {}, .create .identifier {}, .appendChild ⟨1⟩ ⟨2⟩,
   .setAttributeNode ⟨0⟩ (some ⟨1⟩), .create .string {}]

/-- The string without attributes is spared when its copy is discarded. -/
theorem discard_clone_iff_plain :
    ∃ d b, (after attributedHistory).cloneBasicNode ⟨3⟩ = .ok (⟨4⟩, d) ∧
      (Command.discard ⟨4⟩).run.exec d = (.ok (), b) ∧
      (after attributedHistory).SparesOriginal b ⟨3⟩ ⟨4⟩ := by
  have hclone : (after attributedHistory).cloneBasicNode ⟨3⟩
      = .ok (⟨4⟩, after (attributedHistory ++ [.cloneBasicNode ⟨3⟩])) := rfl
  have hdiscard :
      (Command.discard ⟨4⟩).run.exec (after (attributedHistory ++ [.cloneBasicNode ⟨3⟩]))
        = (.ok (), after (attributedHistory ++ [.cloneBasicNode ⟨3⟩, .discard ⟨4⟩])) :=
    Prod.ext (by decide +kernel) rfl
  exact ⟨_, _, hclone, hdiscard, (discard_clone_iff hclone hdiscard).2.2.2 (by decide +kernel)⟩

/-- The string with attributes loses them when its copy is discarded. -/
theorem discard_clone_takes :
    ∃ d b, (after attributedHistory).cloneBasicNode ⟨0⟩ = .ok (⟨4⟩, d) ∧
      (Command.discard ⟨4⟩).run.exec d = (.ok (), b) ∧
      (after attributedHistory).attributeNode ⟨0⟩ = some ⟨1⟩ ∧ b.attributeNode ⟨0⟩ = none ∧
      [0, 1, 2, 3, 4].filter (fun i => d.isAlive ⟨i⟩) = [0, 1, 2, 3, 4] ∧
      [0, 1, 2, 3, 4].filter (fun i => b.isAlive ⟨i⟩) = [0, 3] ∧
      ¬ (after attributedHistory).SparesOriginal b ⟨0⟩ ⟨4⟩ := by
  refine ⟨after (attributedHistory ++ [.cloneBasicNode ⟨0⟩]),
    after (attributedHistory ++ [.cloneBasicNode ⟨0⟩, .discard ⟨4⟩]), rfl,
    Prod.ext (by decide +kernel) rfl, by decide +kernel, by decide +kernel, by decide +kernel,
    by decide +kernel, fun h => ?_⟩
  exact absurd (h.others ⟨1⟩ (by decide)) (by decide +kernel)

end SymbolTree
