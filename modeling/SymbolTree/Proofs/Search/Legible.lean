import SymbolTree.Proofs.Arena.Forest
import SymbolTree.Proofs.Search.Answers
import SymbolTree.Proofs.Search.Settled

/-!
# Attributes that are sure to be worked out

An attribute list that holds only keywords and names of attributes, each of them one that the kind
of the node accepts, is read without looking anything up (`Arena.Legible`).  Where the lists of a
node and of those around it are legible and the tree is a forest, the attributes of the node are
worked out, at the cost of one nested call for each node around it.

## Main statements

* `Arena.Graded` — what bounds the way up, in a forest or in the tree of one program.
* `Arena.Forest.exists_effective` — in a forest every node has effective attributes.
* `Search.answers_effective` — an answer comes, and it agrees with the tree.
-/

set_option autoImplicit false
namespace SymbolTree

namespace Arena

variable {a : Arena}

/-- The attribute list of a node can be read: each entry stands by itself for an attribute that the
kind of the node accepts. -/
def Legible (a : Arena) (n : NodeId) : Prop :=
  ∀ e ∈ a.attributeEntries n, ∃ t, a.entryAttribute e = some t ∧ t.accepts (a.kind n) = true

theorem Legible.builtIn {n : NodeId} (h : a.Legible n) : a.BuiltIn n := by
  intro e he
  obtain ⟨t, ht, -⟩ := h e he
  rw [ht]
  rfl

/-- In a forest the nodes above a parent are all but one of those above the child. -/
theorem Forest.ancestors_of_parent (hf : a.Forest) (h : a.Consistent) {n p : NodeId}
    (hp : a.parent n = some p) : a.ancestors n = p :: a.ancestors p := by
  rw [← (hf.ancestors h n).1 (a.size + 1) (Nat.le_succ _), ancestorsFrom, hp]
  rfl

/-- A measure that goes down wherever attributes are inherited, on nodes that inherit from each
other only. -/
structure Graded (a : Arena) (tree : NodeId → Prop) (depth : NodeId → Nat) : Prop where
  /-- What they inherit from is one of them. -/
  closed : ∀ n p, tree n → a.InheritsFrom n p → tree p
  /-- The measure goes down. -/
  lt : ∀ n p, tree n → a.InheritsFrom n p → depth p < depth n

/-- In a forest the nodes above a node can be counted. -/
theorem Forest.graded (hf : a.Forest) (h : a.Consistent) (tree : NodeId → Prop)
    (hclosed : ∀ n p, tree n → a.InheritsFrom n p → tree p) :
    a.Graded tree fun n => (a.ancestors n).length := by
  refine ⟨hclosed, fun n p _ hp => ?_⟩
  rw [hf.ancestors_of_parent h hp.2.2, List.length_cons]
  exact Nat.lt_succ_self _

/-- Where there is such a measure every node has effective attributes. -/
theorem Graded.exists_effective {tree : NodeId → Prop} {depth : NodeId → Nat}
    (h : a.Graded tree depth) {n : NodeId} (hn : tree n) : ∃ s, a.Effective n s := by
  induction hk : depth n using Nat.strongRecOn generalizing n with
  | ind k ih =>
    by_cases hprogram : a.kind n = .program
    · exact ⟨_, .program hprogram⟩
    cases hp : a.parent n with
    | none => exact ⟨_, .alone hprogram (.inl hp)⟩
    | some p =>
      by_cases hpackage : a.kind n = .package
      · exact ⟨_, .alone hprogram (.inr hpackage)⟩
      have hinherits : a.InheritsFrom n p := ⟨hprogram, hpackage, hp⟩
      obtain ⟨s, hs⟩ := ih (depth p) (hk ▸ h.lt n p hn hinherits) (h.closed n p hn hinherits) rfl
      exact ⟨_, .inherited hprogram hpackage hp hs⟩

/-- In a forest every node has effective attributes. -/
theorem Forest.exists_effective (hf : a.Forest) (h : a.Consistent) (n : NodeId) :
    ∃ s, a.Effective n s :=
  (hf.graded h (fun _ => True) fun _ _ _ _ => trivial).exists_effective trivial

end Arena

namespace Search

variable {tree : NodeId → Prop} {c : Context}

theorem answers_error {c : Context} {P : Context → Prop}
    (hP : ∀ ds, P { c with diagnostics := ds }) (code : Code) (n : NodeId) (text : String) :
    Answers c (error code n text) fun _ => P :=
  Answers.modify (hP _)

/-! ## One list -/

theorem answers_addAttribute {n : NodeId} {t : Attribute} (ht : t.accepts (c.arena.kind n) = true)
    (s : AttributeSet) {d : Context} (hd : Same c d) :
    Answers d (addAttribute n s t) fun _ e => Same c e := by
  have hcheck : d.arena.checkAttribute n t = .ok () := by
    rw [Arena.checkAttribute, hd.alike.kind, if_pos ht]
  refine Answers.ask_bind hcheck ?_
  cases s.conflict? t with
  | none => exact Answers.pure hd
  | some g =>
    exact (answers_error (P := Same c) (fun ds => hd.message ds) _ _ _).bind fun _ _ he =>
      Answers.pure he

theorem answers_addListed {n e : NodeId} {t : Attribute} (he : c.arena.entryAttribute e = some t)
    (ht : t.accepts (c.arena.kind n) = true) (s : AttributeSet) (fuel : Nat) {d : Context}
    (hd : Same c d) : Answers d (answer (fuel + 1) (.addListed n e s)) fun _ e => Same c e := by
  refine Answers.arena_bind ?_
  dsimp only
  rw [hd.alike.kind]
  rw [Arena.entryAttribute] at he
  split
  · next hk =>
    rw [if_pos hk] at he
    refine Answers.nameOf_bind ?_
    rw [hd.alike.name, he]
    exact answers_addAttribute ht s hd
  · next hk =>
    rw [if_neg hk] at he
    rw [he]
    exact answers_addAttribute ht s hd

theorem answers_addAllListed {n : NodeId} (hn : c.arena.Legible n) (s : AttributeSet) (fuel : Nat)
    {d : Context} (hd : Same c d) :
    Answers d (addAllListed (answer (fuel + 1)) n s) fun _ e => Same c e := by
  have hfold : ∀ es : List NodeId, (∀ e ∈ es, e ∈ c.arena.attributeEntries n) →
      ∀ (s : AttributeSet) (d : Context), Same c d →
        Answers d (es.foldlM (fun s e => answer (fuel + 1) (.addListed n e s)) s)
          fun _ e => Same c e := by
    intro es hes
    induction es with
    | nil => exact fun s d hd => Answers.pure hd
    | cons e es ih =>
      intro s d hd
      obtain ⟨t, het, ht⟩ := hn e (hes e List.mem_cons_self)
      rw [List.foldlM_cons]
      exact (answers_addListed het ht s fuel hd).bind fun s d hd =>
        ih (fun e he => hes e (List.mem_cons_of_mem _ he)) s d hd
  refine Answers.arena_bind ?_
  rw [hd.alike.attributeNode, hd.alike.children]
  cases hlist : c.arena.attributeNode n with
  | none => exact Answers.pure hd
  | some list =>
    have hentries : c.arena.attributeEntries n = c.arena.children list := by
      rw [Arena.attributeEntries, hlist]
    exact (hfold _ (fun e he => hentries ▸ he) s _ (hd.lock list)).withLock fun _ e he =>
      he.drop _

/-! ## All that is inherited -/

theorem answers_dropNative (n : NodeId) (written : Bool) (s : AttributeSet) {d : Context}
    (hd : Same c d) : Answers d (dropNative n written s) fun _ e => Same c e := by
  refine Answers.arena_bind ?_
  split
  · dsimp only
    split
    · exact (answers_error (P := Same c) (fun ds => hd.message ds) _ _ _).bind fun _ _ he =>
        Answers.pure he
    · exact Answers.pure hd
  · exact Answers.pure hd

variable {depth : NodeId → Nat}

/-- The attributes of a node are worked out if the calls may be nested as deep as the node is in its
tree. -/
theorem answers_effectiveAttributes (hg : c.arena.Graded tree depth)
    (hlegible : ∀ m, tree m → c.arena.Legible m) {n : NodeId} (hn : tree n) {fuel : Nat}
    (hfuel : depth n + 1 < fuel) {d : Context} (hd : Same c d) :
    Answers d (answer fuel (.effectiveAttributes n)) fun _ e => Same c e := by
  induction fuel generalizing n d with
  | zero => exact absurd hfuel (Nat.not_lt_zero _)
  | succ fuel ih =>
    obtain ⟨fuel, rfl⟩ : ∃ k, fuel = k + 1 := Nat.exists_eq_succ_of_ne_zero (by omega)
    refine Answers.get_bind ?_
    cases d.attributeCache.lookup n with
    | some s => exact Answers.pure hd
    | none =>
      dsimp only
      rw [hd.alike.kind]
      refine (Answers.modify (φ := fun _ e => Same c e) (hd.remember _)).bind fun _ d hd => ?_
      split
      · exact Answers.pure hd
      · next hprogram =>
        refine (answers_addAllListed (hlegible n hn) _ fuel hd).bind fun listed d hd => ?_
        have hinherited : Answers d (addInherited (answer (fuel + 1)) n listed)
            fun _ e => Same c e := by
          refine Answers.arena_bind ?_
          rw [hd.alike.parent, hd.alike.kind]
          cases hp : c.arena.parent n with
          | none => exact Answers.pure hd
          | some p =>
            dsimp only
            split
            · exact Answers.pure hd
            · next hpackage =>
              have hinherits : c.arena.InheritsFrom n p := ⟨hprogram, hpackage, hp⟩
              have hlt := hg.lt n p hn hinherits
              exact (ih (hg.closed n p hn hinherits) (by omega) hd).bind
                fun _ _ he => Answers.pure he
        refine hinherited.bind fun s d hd => ?_
        refine (answers_dropNative n _ s hd).bind fun s d hd => ?_
        exact (Answers.modify (φ := fun _ e => Same c e) (hd.remember _)).bind fun _ _ he =>
          Answers.pure he

/-- Where the attribute lists can be read, the attributes of a node are answered as the tree has
them, and are remembered. -/
theorem answers_effective_of_graded (hg : c.arena.Graded tree depth)
    (hlegible : ∀ m, tree m → c.arena.Legible m) {n : NodeId} (hn : tree n) {fuel : Nat}
    (hfuel : depth n + 1 < fuel) {d : Context} (hd : Settled tree c [] d) :
    Answers d (answer fuel (.effectiveAttributes n)) fun s e =>
      Settled tree c [] e ∧ c.arena.Fits n s ∧ e.attributeCache.lookup n = some s := by
  have hyields := (yields_answer_effective hg.closed (fun m hm => (hlegible m hm).builtIn) hn fuel
    fun m hm => absurd hm List.not_mem_nil).start hd
  exact ((answers_effectiveAttributes hg hlegible hn hfuel hd.same).and hyields).mono
    fun s e h => h.2

/-- **Attributes are sure to be worked out.**  Where the attribute lists can be read, the attributes
of a node are answered as the tree has them. -/
theorem answers_effective (hf : c.arena.Forest) (hc : c.arena.Consistent)
    (hclosed : ∀ m p, tree m → c.arena.InheritsFrom m p → tree p)
    (hlegible : ∀ m, tree m → c.arena.Legible m) {n : NodeId} (hn : tree n) {fuel : Nat}
    (hfuel : (c.arena.ancestors n).length + 1 < fuel) {d : Context} (hd : Settled tree c [] d) :
    Answers d (answer fuel (.effectiveAttributes n)) fun s e =>
      Settled tree c [] e ∧ c.arena.Fits n s :=
  (answers_effective_of_graded (hf.graded hc tree hclosed) hlegible hn hfuel hd).mono
    fun _ _ h => ⟨h.1, h.2.1⟩

/-- Whether a node has an attribute is answered as the tree has it. -/
theorem answers_hasAttribute (hf : c.arena.Forest) (hc : c.arena.Consistent)
    (hclosed : ∀ m p, tree m → c.arena.InheritsFrom m p → tree p)
    (hlegible : ∀ m, tree m → c.arena.Legible m) {n : NodeId} (hn : tree n) {fuel : Nat}
    (hfuel : (c.arena.ancestors n).length + 1 < fuel) {d : Context} (hd : Settled tree c [] d)
    {t : Attribute} (ht : t ≠ .type) {s : AttributeSet} (hs : c.arena.Effective n s) :
    Answers d (hasAttribute (answer fuel) n t) fun b e =>
      Settled tree c [] e ∧ b = s.contains t :=
  (answers_effective hf hc hclosed hlegible hn hfuel hd).bind fun _ _ he =>
    Answers.pure ⟨he.1, he.2 s hs t ht⟩

end Search

end SymbolTree
