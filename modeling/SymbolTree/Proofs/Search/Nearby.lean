import SymbolTree.Proofs.Search.Yields
import SymbolTree.Search.Declaration

/-!
# What is found nearby

Whatever a child of a list declares under a name, it is near: the child itself, a variable below it,
or the class around it that it constructs (`Arena.Gives`).  Only an import hands on what stands
elsewhere (`Search.gives_candidate`), and only a class that inherits has members from elsewhere
(`Search.exec_findInExtends`).
-/

set_option autoImplicit false
namespace SymbolTree

/-- What a node declares without asking elsewhere: itself, a variable below it, or the class that it
constructs. -/
def Arena.Gives (a : Arena) (n m : NodeId) : Prop :=
  m = n ∨ (m ∈ a.children n ∧ a.kind m = .variable_) ∨
    a.findAncestor n [.package, .program, .function, .interface, .class_] = some m ∧
      a.kind m = .class_

/-- The latest declaration found, if counted or not, is the one that was. -/
theorem Tally.found_settle (t : Tally) (a : Arena) (params : Option NodeId) (count : Bool) :
    (t.settle a params count).2.found = t.found := by
  unfold Tally.settle
  split
  · rfl
  · rfl
  · dsimp only
    split
    · rfl
    · split <;> rfl

/-- A class without clauses has no classes to inherit from. -/
theorem Arena.superNames_eq_nil {a : Arena} {n : NodeId}
    (h : ∀ clause ∈ a.children n, a.kind clause ≠ .extends_ ∧ a.kind clause ≠ .implements) :
    a.superNames n = [] := by
  refine List.flatMap_eq_nil_iff.2 fun clause hclause => if_neg ?_
  obtain ⟨hextends, himplements⟩ := h clause hclause
  simp [hextends, himplements]

namespace Search

/-- Whatever the candidate is, it has a property. -/
def Candidate.All (P : NodeId → Prop) : Candidate → Prop
  | .none => True
  | .open_ n => P n
  | .guarded n => P n

theorem Candidate.All.imp {P Q : NodeId → Prop} {o : Candidate} (h : o.All P)
    (hPQ : ∀ n, P n → Q n) : o.All Q := by
  cases o with
  | none => trivial
  | open_ n => exact hPQ n h
  | guarded n => exact hPQ n h

theorem Candidate.all_ofOption {P : NodeId → Prop} {o : Option NodeId} (h : ∀ n ∈ o, P n) :
    (Candidate.ofOption o).All P := by
  cases o with
  | none => trivial
  | some n => exact h n rfl

variable {call : Call} {c : Context} {n : NodeId} {name : String}

/-- A variable that is found below a node is a child of it. -/
theorem of_findVariable {a : Arena} {v : NodeId} (h : findVariable a n name = some v) :
    v ∈ a.children n ∧ a.kind v = .variable_ := by
  have hv := List.find?_some h
  rw [Bool.and_eq_true, decide_eq_true_eq] at hv
  exact ⟨List.mem_of_find?_eq_some h, hv.1⟩

/-- A function constructs the class around it, if any. -/
theorem gives_isConstructor (n : NodeId) :
    Yields (· = c) (isConstructor call n) fun o _ => ∀ m ∈ o,
      c.arena.findAncestor n [.package, .program, .function, .interface, .class_] = some m ∧
        c.arena.kind m = .class_ := by
  refine Yields.arena_bind fun c' hc' => ?_
  subst hc'
  extract_lets around none_ class_
  have haround : ∀ m ∈ around,
      c'.arena.findAncestor n [.package, .program, .function, .interface, .class_] = some m ∧
        c'.arena.kind m = .class_ := fun m hm => by
    simpa using Option.filter_eq_some_iff.1 hm
  have hclass : ∀ {P : Context → Prop}, Yields P (class_ ()) fun o _ => ∀ m ∈ o,
      c'.arena.findAncestor n [.package, .program, .function, .interface, .class_] = some m ∧
        c'.arena.kind m = .class_ := by
    intro P
    dsimp only [class_, none_]
    clear_value around
    cases around with
    | none =>
      refine Yields.bind Yields.any fun b => ?_
      split
      · exact Yields.bind Yields.any fun _ => Yields.pure fun _ _ => nofun
      · exact Yields.pure fun _ _ => nofun
    | some m =>
      have hsome : ∀ {P : Context → Prop}, Yields P (Pure.pure (some m) : Search (Option NodeId))
          fun o _ => ∀ m ∈ o,
            c'.arena.findAncestor n [.package, .program, .function, .interface, .class_] =
              some m ∧ c'.arena.kind m = .class_ := Yields.pure fun _ _ => haround
      dsimp only
      split
      · exact hsome
      · refine Yields.bind Yields.any fun b => ?_
        split
        · exact hsome
        · exact Yields.pure fun _ _ => nofun
  split
  · exact Yields.bind (Q := fun _ _ => False) Yields.internal fun _ => Yields.of_exec
      fun _ _ _ h => h.elim
  · exact hclass

/-- A function that a name stands for is the one that was asked about. -/
theorem gives_checkFunction {P : Context → Prop} (n : NodeId) (name : String)
    (args : Option NodeId) (mode : SearchMode) :
    Yields P (checkFunction call n name args mode) fun o _ => ∀ m ∈ o, m = n := by
  have hnone : ∀ {P : Context → Prop}, Yields P (Pure.pure none : Search (Option NodeId))
      fun o _ => ∀ m ∈ o, m = n := Yields.pure fun _ _ => nofun
  have hsome : ∀ {P : Context → Prop}, Yields P (Pure.pure (some n) : Search (Option NodeId))
      fun o _ => ∀ m ∈ o, m = n := Yields.pure fun _ _ m hm => (Option.some.inj hm).symm
  refine Yields.bind Yields.any fun unused => ?_
  split
  · exact hnone
  · refine Yields.bind Yields.any fun getter => Yields.bind Yields.any fun setter => ?_
    extract_lets expected
    refine Yields.arena_bind fun _ _ => ?_
    clear_value expected
    split
    · exact hnone
    · split
      · split
        · refine Yields.bind Yields.any fun o => ?_
          split
          · exact Yields.bind Yields.any fun _ => Yields.bind Yields.any fun _ => hnone
          · exact Yields.bind Yields.any fun _ => hsome
        · exact Yields.bind Yields.any fun _ => hsome
      · exact hsome

/-- What a child of a list declares is near, unless the child is an import. -/
theorem gives_candidate {Q : NodeId → Context → Prop} (n id : NodeId) (args : Option NodeId)
    (mode : SearchMode)
    (himport : c.arena.kind n = .import_ → Yields (· = c)
      (checkImport call n (c.arena.name id) args mode) fun o d => ∀ m ∈ o, Q m d) :
    Yields (· = c) (candidate call n id args mode) fun o d =>
      o.All fun m => c.arena.Gives n m ∨ c.arena.kind n = .import_ ∧ Q m d := by
  refine Yields.arena_bind fun c' hc' => ?_
  subst hc'
  have hnone : Yields (· = c') (Pure.pure Candidate.none : Search Candidate) fun o d =>
      o.All fun m => c'.arena.Gives n m ∨ c'.arena.kind n = .import_ ∧ Q m d :=
    Yields.pure fun _ _ => trivial
  have hself : ∀ {P : Context → Prop}, Yields P (Pure.pure (Candidate.open_ n) : Search Candidate)
      fun o d => o.All fun m => c'.arena.Gives n m ∨ c'.arena.kind n = .import_ ∧ Q m d :=
    Yields.pure fun _ _ => .inl (.inl rfl)
  have hclass : ∀ {P : Context → Prop}, Yields P (do
      change fun a => a.setFlag id .identifierTyped true
      return Candidate.guarded n)
      fun o d => o.All fun m => c'.arena.Gives n m ∨ c'.arena.kind n = .import_ ∧ Q m d :=
    Yields.bind Yields.any fun _ => Yields.pure fun _ _ => .inl (.inl rfl)
  have hvariable : ∀ {v}, findVariable c'.arena n (c'.arena.name id) = some v →
      c'.arena.Gives n v := fun hv => .inr (.inl (of_findVariable hv))
  dsimp only
  split
  · exact Yields.pure fun _ _ => Candidate.all_ofOption fun v hv => .inl (hvariable hv)
  · split
    · exact Yields.bind Yields.any fun _ => hself
    · exact hnone
  · refine Yields.bind (gives_isConstructor n) fun o => ?_
    cases o with
    | some m =>
      refine Yields.arena_bind fun d hd => Yields.pure fun _ _ => ?_
      split
      · exact .inl (.inr (.inr (hd m rfl)))
      · trivial
    | none =>
      refine Yields.bind (gives_checkFunction n _ args mode) fun o => Yields.pure fun _ ho => ?_
      exact Candidate.all_ofOption fun m hm => .inl (.inl (ho m hm))
  · split
    · split
      · exact Yields.bind Yields.any fun _ => hclass
      · exact hclass
    · exact hnone
  · split
    · split
      · exact Yields.bind Yields.any fun _ => hclass
      · exact hclass
    · exact hnone
  · refine Yields.arena_bind fun d hd => ?_
    subst hd
    split
    · exact Yields.bind Yields.any fun _ => hself
    · split
      · next v hv =>
        exact Yields.bind Yields.any fun _ => Yields.pure fun _ _ => .inl (hvariable hv)
      · exact hnone
  · split
    · exact hself
    · exact hnone
  · next hk =>
    refine Yields.bind (himport hk) fun o => ?_
    cases o with
    | none => exact Yields.pure fun _ _ => trivial
    | some m => exact Yields.pure fun _ hd => .inr ⟨hk, hd m rfl⟩
  · exact hnone

/-- Nothing is found in the classes that a class inherits from if there are none. -/
theorem exec_findInExtends {link : NodeId} (h : c.arena.superNames link = []) (field : NodeId)
    (t : Tally) (args : Option NodeId) (mode : SearchMode) :
    (findInExtends call link field t args mode).exec c = (.ok (decide (t.funcs ≠ 0), t),
      { c with arena := Guard.drop ⟨some link⟩ (c.arena.lock link) }) := by
  have hnames : (c.arena.lock link).superNames link = [] := h
  rw [findInExtends, exec_withLock, exec_arena_bind, hnames, findInSupers, pure_bind]
  dsimp only
  by_cases ht : t.funcs = 0
  · simp only [ht, ne_eq, not_true_eq_false, decide_false]
    rfl
  · simp only [ht, ne_eq, not_false_eq_true, decide_true, Bool.or_true]
    rfl

end Search

end SymbolTree
