import SymbolTree.Proofs.Arena.Deed

/-!
# The marks on a node

A node carries flags and attributes.  `Node.Legal` says that its kind accepts each of them, and that
no attribute stands beside one that would keep it away.

The second part rests on the table of rivals being the same from both sides
(`Attribute.rivals_symm`): an attribute that is set is compared with those that are there by its own
row of the table, and not by theirs.  A change of kind cannot break it, since it only takes marks
away (`Node.Remarks`).

## Main statement

* `legal_after` — the marks on every node are legal in every arena that can be reached.
-/

set_option autoImplicit false
namespace SymbolTree

/-! ## Rivals -/

namespace AttributeSet

/-- No conflict is found if no rival is there. -/
theorem conflict?_eq_none_iff {s : AttributeSet} {t : Attribute} :
    s.conflict? t = none ↔ ∀ u ∈ t.rivals, s.contains u = false := by
  rw [← Option.not_isSome_iff_eq_none, conflict?_isSome, any]
  simp

/-- Beside a single attribute only its rivals meet with a conflict. -/
theorem conflict?_single_eq_none_iff {t u : Attribute} :
    (empty.set t true).conflict? u = none ↔ t ∉ u.rivals := by
  rw [conflict?_eq_none_iff]
  constructor
  · intro h ht
    have := h t ht
    simp only [contains_set, if_true] at this
    cases this
  · intro h v hv
    have hne : v ≠ t := fun e => h (e ▸ hv)
    simp [hne]

end AttributeSet

/-! ## Nodes -/

namespace Node

/-- The kind accepts the flags and the attributes, and no two attributes exclude each other. -/
structure Legal (d : Node) : Prop where
  /-- Every flag is accepted by the kind. -/
  flags : ∀ f, d.flags.contains f = true → f.accepts d.kind = true
  /-- Every attribute is accepted by the kind. -/
  attributes : ∀ t, d.attributes.contains t = true → t.accepts d.kind = true
  /-- No attribute would be kept away by another one alone. -/
  compatible : ∀ t u, d.attributes.contains t = true → d.attributes.contains u = true → t ≠ u →
    (AttributeSet.empty.set t true).conflict? u = none

variable {d e : Node}

theorem legal_of_empty (hf : d.flags = .empty) (ht : d.attributes = .empty) : d.Legal := by
  refine ⟨fun f h => ?_, fun t h => ?_, fun t u h _ _ => ?_⟩
  · simp [hf] at h
  · simp [ht] at h
  · simp [ht] at h

/-- The marks of a node on another one: the same ones on the same kind, or those that are left when
the kind has changed. -/
def Remarks (d e : Node) : Prop :=
  (e.kind = d.kind ∧ e.flags = d.flags ∧ e.attributes = d.attributes) ∨
    e.flags = d.flags.retainLegal e.kind ∧ e.attributes = d.attributes.retainLegal e.kind

theorem SameStanding.remarks (h : d.SameStanding e) : d.Remarks e :=
  .inl ⟨h.kind, h.flags, h.attributes⟩

/-- What is left of legal marks is legal. -/
theorem Legal.remarks (h : d.Legal) (hd : d.Remarks e) : e.Legal := by
  obtain ⟨hk, hf, ht⟩ | ⟨hf, ht⟩ := hd
  · refine ⟨?_, ?_, ?_⟩
    · rw [hf, hk]; exact h.flags
    · rw [ht, hk]; exact h.attributes
    · rw [ht]; exact h.compatible
  · -- what is left was there before and is accepted now
    have hleft : ∀ t, e.attributes.contains t = true →
        d.attributes.contains t = true ∧ t.accepts e.kind = true := by
      intro t h
      rwa [ht, AttributeSet.contains_retainLegal, Bool.and_eq_true] at h
    refine ⟨fun f h => ?_, fun t h => (hleft t h).2, fun t u h' hu hne => ?_⟩
    · rw [hf, FlagSet.contains_retainLegal, Bool.and_eq_true] at h
      exact h.2
    · exact h.compatible t u (hleft t h').1 (hleft u hu).1 hne

/-- A flag that the kind accepts may be set and cleared. -/
theorem Legal.setFlag (h : d.Legal) {f : Flag} (hf : f.accepts d.kind = true) (v : Bool) :
    { d with flags := d.flags.set f v }.Legal := by
  refine ⟨fun g hg => ?_, h.attributes, h.compatible⟩
  rw [FlagSet.contains_set] at hg
  split at hg
  · next he => exact he ▸ hf
  · exact h.flags g hg

theorem Legal.clearAttribute (h : d.Legal) (t : Attribute) :
    { d with attributes := d.attributes.set t false }.Legal := by
  have hleft : ∀ u, (d.attributes.set t false).contains u = true →
      d.attributes.contains u = true := by
    intro u hu
    obtain ⟨-, hu⟩ : u ≠ t ∧ d.attributes.contains u = true := by simpa using hu
    exact hu
  exact ⟨h.flags, fun u hu => h.attributes u (hleft u hu),
    fun u v hu hv => h.compatible u v (hleft u hu) (hleft v hv)⟩

/-- An attribute without rivals on the node may be added. -/
theorem Legal.addAttribute (h : d.Legal) {t : Attribute} (ht : t.accepts d.kind = true)
    (hfree : d.attributes.conflict? t = none) :
    { d with attributes := d.attributes.set t true }.Legal := by
  have hnew : ∀ u, (d.attributes.set t true).contains u = true →
      u = t ∨ d.attributes.contains u = true := fun u hu => by simpa using hu
  have hrival : ∀ u, d.attributes.contains u = true → u ∉ t.rivals := by
    intro u hu hmem
    rw [AttributeSet.conflict?_eq_none_iff.1 hfree u hmem] at hu
    cases hu
  refine ⟨h.flags, fun u hu => ?_, fun u v hu hv hne => ?_⟩
  · rcases hnew u hu with rfl | hu
    · exact ht
    · exact h.attributes u hu
  · rw [AttributeSet.conflict?_single_eq_none_iff]
    rcases hnew u hu with rfl | hu'
    · rcases hnew v hv with rfl | hv'
      · exact absurd rfl hne
      · -- the row of `v` lists the new attribute only if the row of the new one lists `v`
        exact fun hmem => hrival v hv' (Attribute.rivals_symm hmem)
    · rcases hnew v hv with rfl | hv'
      · exact hrival u hu'
      · exact AttributeSet.conflict?_single_eq_none_iff.1 (h.compatible u v hu' hv' hne)

end Node

/-- A conversion drops the marks that the new kind does not accept. -/
theorem Conversion.remarks {c : Conversion} {d e : Node} (h : c.apply d = some e) :
    d.Remarks e := by
  obtain rfl | ⟨k, i, f, s, rfl⟩ := c.eq_of_apply h
  · exact .inl ⟨rfl, rfl, rfl⟩
  · exact .inr ⟨rfl, rfl⟩

/-! ## Arenas -/

namespace Arena

/-- The marks on every node are legal. -/
def Legal (a : Arena) : Prop := ∀ n, (a.node n).Legal

variable {a b : Arena} {n : NodeId}

theorem legal_empty : ({} : Arena).Legal := fun _ => Node.legal_of_empty rfl rfl

theorem Legal.of_nodes (h : a.Legal) (hn : b.nodes = a.nodes) : b.Legal := fun n => by
  rw [node, hn]
  exact h n

theorem Legal.update (h : a.Legal) {f : Node → Node} (hf : (f (a.node n)).Legal) :
    (a.update n f).Legal := fun m =>
  rel_node_update (r := fun d e => d.Legal → e.Legal) (fun _ => id) (fun _ => hf) m (h m)

theorem Legal.push (h : a.Legal) {d : Node} (hd : d.Legal) : (a.push d).2.Legal := by
  intro m
  rw [node_push]
  split
  · exact hd
  · exact h m

/-- The request looks for rivals before it sets the attribute. -/
theorem Legal.setAttribute (h : a.Legal) {t : Attribute} {v r : Bool}
    (hb : a.setAttribute n t v = .ok (r, b)) : b.Legal := by
  obtain ⟨ht, -, -⟩ := setAttribute_eq_ok hb
  simp only [Arena.setAttribute, bind_eq_ok_iff] at hb
  obtain ⟨_, -, _, -, hb⟩ := hb
  split at hb
  · obtain rfl : a = b := congrArg Prod.snd (Except.ok.inj hb)
    exact h
  · next hfree =>
    obtain rfl : _ = b := congrArg Prod.snd (Except.ok.inj hb)
    cases v with
    | false => exact h.update ((h n).clearAttribute t)
    | true =>
      rw [Bool.true_and, Option.not_isSome_iff_eq_none] at hfree
      exact h.update ((h n).addAttribute ht hfree)

theorem Legal.setBoolean (h : a.Legal) {v : Bool} (hb : a.setBoolean n v = .ok b) : b.Legal := by
  obtain ⟨-, -, rfl⟩ := setBoolean_eq_ok hb
  exact h.update ((h n).remarks (.inr ⟨rfl, rfl⟩))

theorem Legal.convert (h : a.Legal) {c : Conversion} {r : Bool}
    (hb : a.convert n c.apply = .ok (r, b)) : b.Legal := by
  obtain ⟨-, rfl | ⟨d, hd, rfl⟩⟩ := convert_eq_ok hb
  · exact h
  · exact h.update ((h n).remarks (Conversion.remarks hd))

/-- A node may be given another place. -/
theorem Legal.updatePlace (h : a.Legal) {f : Node → Node}
    (hf : ∀ d : Node, (f d).kind = d.kind ∧ (f d).flags = d.flags ∧
      (f d).attributes = d.attributes) :
    (a.update n f).Legal :=
  h.update ((h n).remarks (.inl (hf _)))

theorem Legal.detach (h : a.Legal) (c : NodeId) : (a.detach c).Legal := by
  rw [Arena.detach]
  split
  · exact h
  · refine Legal.updatePlace (Legal.updatePlace h ?_) ?_ <;> exact fun _ => ⟨rfl, rfl, rfl⟩

theorem Legal.setParent (h : a.Legal) {c : NodeId} {p : Option NodeId} {i : Option Nat}
    (hb : a.setParent c p i = .ok b) : b.Legal := by
  obtain ⟨-, -, -, hb⟩ := setParent_eq_ok hb
  obtain ⟨-, -, rfl⟩ | ⟨-, -, -, rfl⟩ := relocate_eq_ok hb
  · exact h
  · cases p with
    | none => exact h.detach c
    | some q =>
      refine Legal.updatePlace (Legal.updatePlace (h.detach c) ?_) ?_ <;>
        exact fun _ => ⟨rfl, rfl, rfl⟩

theorem Legal.discard (h : a.Legal) (hb : a.discard n = .ok b) : b.Legal := by
  obtain ⟨-, rfl⟩ | ⟨-, -, -, rfl⟩ := discard_eq_ok hb
  · exact h
  · exact List.foldlRecOn _ _ h fun _ h _ _ => h.updatePlace fun _ => ⟨rfl, rfl, rfl⟩

/-- Every single write leaves the marks legal. -/
theorem Deed.legal {t : Bool} (hab : Deed t a b) (h : a.Legal) : b.Legal := by
  cases hab with
  | create k p => exact h.push (Node.legal_of_empty rfl rfl)
  | clone hb =>
    simp only [cloneBasicNode] at hb
    split at hb
    · obtain rfl : _ = b := congrArg Prod.snd (Except.ok.inj hb)
      exact h.push ((h _).remarks (.inl ⟨rfl, rfl, rfl⟩))
    · cases hb
  | fill n hf => exact h.update ((h n).remarks (hf _).remarks)
  | setFlag hb =>
    obtain ⟨hf, -, rfl⟩ := setFlag_eq_ok_iff.1 hb
    exact h.update ((h _).setFlag hf _)
  | setAttribute hb => exact h.setAttribute hb
  | setBoolean hb => exact h.setBoolean hb
  | convert hb => exact h.convert hb
  | detach hb => exact h.setParent hb
  | attach _ hb => exact h.setParent hb
  | discard hb => exact h.discard hb

end Arena

/-- No request, granted or refused, makes the marks on a node illegal. -/
theorem Command.keeps_legal (c : Command) : Keeps Arena.Legal c.run :=
  c.keeps_of_deeds (fun _ _ _ hab h => hab.legal h) fun _ _ hn _ h => h.of_nodes hn

/-- **The marks on every node are legal in every arena that can be reached**: its kind accepts its
flags and attributes, and its attributes do not exclude each other. -/
theorem legal_after (history : List Command) : (after history).Legal :=
  after_invariant Arena.legal_empty Command.keeps_legal history

end SymbolTree
