import SymbolTree.Proofs.Arena.Forest
import SymbolTree.Search.Scope

/-!
# The way into a scope

Scopes are found by climbing: from a node to its parent and so on, until a scope is met.  The offset
that goes with the scope is the place of the child through which it was entered
(`Search.entered_of_climb`), and the way starts below it (`Search.below_of_enclosingScope`).  A way
that ends without a scope ends at a node without a parent or above the program
(`Search.LeadsOut`).
-/

set_option autoImplicit false
namespace SymbolTree.Search

variable {a : Arena} {n p scope : NodeId} {offset : Nat} {e : CompileError}

/-! ## Ways that lead somewhere -/

theorem parentInWalk_eq_ok (h : parentInWalk a n = .ok p) : a.parent n = some p := by
  rw [parentInWalk] at h
  split at h
  · next q hq => rw [hq, Except.ok.inj h]
  · cases h

theorem offset_eq_ok (h : (a.offset n).mapError CompileError.node = .ok offset)
    (hp : a.parent n = some p) : (a.children p).idxOf? n = some offset := by
  rw [Arena.offset, hp] at h
  dsimp only at h
  split at h
  · next i hi =>
    cases h
    exact hi
  · cases h

/-- A scope is entered through the child below which the way starts. -/
theorem entered_of_climb {fuel : Nat} (h : climb a fuel n = .ok (scope, offset)) :
    ∃ place, (a.children scope).idxOf? place = some offset ∧ a.Inside n place := by
  induction fuel generalizing n with
  | zero => cases h
  | succ fuel ih =>
    obtain ⟨i, hi, h⟩ := bind_eq_ok_iff.1 h
    obtain ⟨p, hp, h⟩ := bind_eq_ok_iff.1 h
    have hparent := parentInWalk_eq_ok hp
    have hskip : (do let q ← parentInWalk a p; climb a fuel q) = .ok (scope, offset) →
        ∃ place, (a.children scope).idxOf? place = some offset ∧ a.Inside n place := fun h => by
      obtain ⟨q, hq, h⟩ := bind_eq_ok_iff.1 h
      obtain ⟨place, hplace, hinside⟩ := ih h
      exact ⟨place, hplace, .head hparent (.head (parentInWalk_eq_ok hq) hinside)⟩
    split at h
    · cases h
    · exact hskip h
    · exact hskip h
    · split at h
      · cases h
        exact ⟨n, offset_eq_ok hi hparent, .refl⟩
      · obtain ⟨place, hplace, hinside⟩ := ih h
        exact ⟨place, hplace, .head hparent hinside⟩

/-- The place in a scope is that of the child below which the way starts. -/
theorem entered_of_enclosingScope (h : enclosingScope a n = .ok (scope, offset)) :
    ∃ place, (a.children scope)[offset]? = some place ∧ a.Inside n place := by
  have hplace : ∃ place, (a.children scope).idxOf? place = some offset ∧ a.Inside n place := by
    rw [enclosingScope] at h
    split at h
    · obtain ⟨q, hq, h⟩ := bind_eq_ok_iff.1 h
      obtain ⟨place, hplace, hinside⟩ := entered_of_climb h
      exact ⟨place, hplace, .head (parentInWalk_eq_ok hq) hinside⟩
    · exact entered_of_climb h
  obtain ⟨place, hplace, hinside⟩ := hplace
  obtain ⟨hlt, heq, -⟩ := List.idxOf?_eq_some_iff.1 hplace
  exact ⟨place, by rw [List.getElem?_eq_getElem hlt, heq], hinside⟩

/-- The offset is that of a child of the scope. -/
theorem lt_length_of_enclosingScope (h : enclosingScope a n = .ok (scope, offset)) :
    offset < (a.children scope).length := by
  obtain ⟨place, hplace, -⟩ := entered_of_enclosingScope h
  exact (List.getElem?_eq_some_iff.1 hplace).1

theorem below_of_climb {fuel : Nat} (h : climb a fuel n = .ok (scope, offset)) :
    Relation.TransGen a.Under n scope := by
  induction fuel generalizing n with
  | zero => cases h
  | succ fuel ih =>
    obtain ⟨i, -, h⟩ := bind_eq_ok_iff.1 h
    obtain ⟨p, hp, h⟩ := bind_eq_ok_iff.1 h
    have hparent := parentInWalk_eq_ok hp
    have hskip : (do let q ← parentInWalk a p; climb a fuel q) = .ok (scope, offset) →
        Relation.TransGen a.Under n scope := fun h => by
      obtain ⟨q, hq, h⟩ := bind_eq_ok_iff.1 h
      exact .head hparent (.head (parentInWalk_eq_ok hq) (ih h))
    split at h
    · cases h
    · exact hskip h
    · exact hskip h
    · split at h
      · cases h
        exact .single hparent
      · exact .head hparent (ih h)

/-- Where a climb starts is below the scope to which it leads. -/
theorem below_of_enclosingScope (h : enclosingScope a n = .ok (scope, offset)) :
    Relation.TransGen a.Under n scope := by
  rw [enclosingScope] at h
  split at h
  · obtain ⟨q, hq, h⟩ := bind_eq_ok_iff.1 h
    exact .head (parentInWalk_eq_ok hq) (below_of_climb h)
  · exact below_of_climb h

/-! ## Ways that lead out -/

/-- A way ended in vain: at a node without a parent, or above the program. -/
def LeadsOut (e : CompileError) : Prop :=
  (∃ r, e = .node (.noParent r)) ∨ e = .internal .rootReached

theorem leadsOut_of_parentInWalk (h : parentInWalk a n = .error e) : LeadsOut e := by
  rw [parentInWalk] at h
  split at h
  · cases h
  · cases h
    exact .inl ⟨_, rfl⟩

theorem leadsOut_of_offset (h : (a.offset n).mapError .node = .error e) : LeadsOut e := by
  rw [Arena.offset] at h
  split at h
  · cases h
    exact .inl ⟨_, rfl⟩
  · split at h
    · cases h
    · cases h
      exact .inl ⟨_, rfl⟩

theorem leadsOut_of_climb {fuel : Nat} (h : climb a fuel n = .error e) : LeadsOut e := by
  induction fuel generalizing n with
  | zero =>
    cases h
    exact .inl ⟨_, rfl⟩
  | succ fuel ih =>
    rcases bind_eq_error_iff.1 h with h | ⟨offset, -, h⟩
    · exact leadsOut_of_offset h
    · rcases bind_eq_error_iff.1 h with h | ⟨p, -, h⟩
      · exact leadsOut_of_parentInWalk h
      · have hskip : (do let q ← parentInWalk a p; climb a fuel q) = .error e → LeadsOut e :=
          fun h => by
            rcases bind_eq_error_iff.1 h with h | ⟨q, -, h⟩
            · exact leadsOut_of_parentInWalk h
            · exact ih h
        split at h
        · cases h
          exact .inr rfl
        · exact hskip h
        · exact hskip h
        · split at h
          · cases h
          · exact ih h

/-- The way to a scope ends without one only where it leads out. -/
theorem leadsOut_of_enclosingScope (h : enclosingScope a n = .error e) : LeadsOut e := by
  rw [enclosingScope] at h
  split at h
  · rcases bind_eq_error_iff.1 h with h | ⟨q, -, h⟩
    · exact leadsOut_of_parentInWalk h
    · exact leadsOut_of_climb h
  · exact leadsOut_of_climb h

end SymbolTree.Search
