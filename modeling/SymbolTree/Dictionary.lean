/-!
# Dictionaries in key order

A dictionary is a list of named entries in increasing order of their names, so that a walk through
it visits the names in order.

## Main statements

* `Dictionary.find?_insert` — the last entry made under a name is the one found.
* `Dictionary.sorted_insert` — insertion keeps the order.
* `Dictionary.ofList_of_sorted` — the entries of a dictionary make that dictionary.
-/

set_option autoImplicit false
namespace SymbolTree

/-- Named entries in increasing order of their names. -/
abbrev Dictionary (α : Type) := List (String × α)

namespace Dictionary

variable {α : Type}

/-- The entry with a given name. -/
def find? (d : Dictionary α) (name : String) : Option α := List.lookup name d

/-- Puts an entry at its place, in the stead of one with the same name. -/
def insert : Dictionary α → String → α → Dictionary α
  | [], k, v => [(k, v)]
  | (l, w) :: d, k, v =>
      if k = l then (k, v) :: d
      else if k < l then (k, v) :: (l, w) :: d
      else (l, w) :: insert d k v

/-- The dictionary with the given entries; of two with the same name the later one counts. -/
def ofList (entries : List (String × α)) : Dictionary α :=
  entries.foldl (fun d e => insert d e.1 e.2) []

/-- The names, in order. -/
def names (d : Dictionary α) : List String := d.map (·.1)

/-- The names increase strictly. -/
def Sorted (d : Dictionary α) : Prop := d.Pairwise (fun x y => x.1 < y.1)

theorem find?_insert (d : Dictionary α) (k l : String) (v : α) :
    find? (insert d k v) l = if l = k then some v else find? d l := by
  unfold find?
  induction d with
  | nil =>
    by_cases h : l = k <;>
      simp [insert, List.lookup_cons, List.lookup_nil, h, beq_eq_false_iff_ne.mpr]
  | cons e d ih =>
    obtain ⟨m, w⟩ := e
    by_cases hkm : k = m
    · subst hkm
      by_cases h : l = k
      · simp [insert, h]
      · simp [insert, List.lookup_cons, h, beq_eq_false_iff_ne.mpr h]
    · by_cases hlt : k < m
      · by_cases h : l = k
        · simp [insert, hkm, hlt, h]
        · simp [insert, hkm, hlt, List.lookup_cons, h, beq_eq_false_iff_ne.mpr h]
      · by_cases h : l = m
        · subst h
          have hlk : ¬ l = k := fun e => hkm e.symm
          simp [insert, hkm, hlt, hlk]
        · simp [insert, hkm, hlt, List.lookup_cons, beq_eq_false_iff_ne.mpr h, ih]

theorem mem_of_find? {d : Dictionary α} {name : String} {x : α} (h : find? d name = some x) :
    (name, x) ∈ d := by
  obtain ⟨front, back, rfl, -⟩ := List.lookup_eq_some_iff.1 h
  exact List.mem_append_right _ List.mem_cons_self

theorem mem_insert {d : Dictionary α} {k : String} {v : α} {e : String × α}
    (h : e ∈ insert d k v) : e = (k, v) ∨ e ∈ d := by
  induction d with
  | nil => simpa [insert] using h
  | cons f d ih =>
    rw [insert] at h
    split at h
    · rcases List.mem_cons.mp h with h | h
      · exact .inl h
      · exact .inr (List.mem_cons_of_mem _ h)
    · split at h
      · rcases List.mem_cons.mp h with h | h
        · exact .inl h
        · exact .inr h
      · rcases List.mem_cons.mp h with h | h
        · exact .inr (h ▸ List.mem_cons_self ..)
        · exact (ih h).imp_right (List.mem_cons_of_mem _)

theorem sorted_insert {d : Dictionary α} (h : Sorted d) (k : String) (v : α) :
    Sorted (insert d k v) := by
  induction d with
  | nil => simp [insert, Sorted]
  | cons e d ih =>
    obtain ⟨l, w⟩ := e
    obtain ⟨hl, hd⟩ := List.pairwise_cons.mp h
    rw [insert]
    split
    · next heq => subst heq; exact List.pairwise_cons.mpr ⟨hl, hd⟩
    · next hne =>
      split
      · next hlt =>
        refine List.pairwise_cons.mpr ⟨fun f hf => ?_, h⟩
        rcases List.mem_cons.mp hf with hf | hf
        · exact hf ▸ hlt
        · exact String.lt_trans hlt (hl f hf)
      · next hge =>
        refine List.pairwise_cons.mpr ⟨fun f hf => ?_, ih hd⟩
        rcases mem_insert hf with hf | hf
        · subst hf
          refine Decidable.byContradiction fun hge' => hne ?_
          exact String.le_antisymm (String.not_lt.mp hge') (String.not_lt.mp hge)
        · exact hl f hf

/-- An entry whose name comes after all others is put at the end. -/
theorem insert_of_lt {d : Dictionary α} {k : String} (h : ∀ e ∈ d, e.1 < k) (v : α) :
    insert d k v = d ++ [(k, v)] := by
  induction d with
  | nil => rfl
  | cons e d ih =>
    obtain ⟨he, hd⟩ := List.forall_mem_cons.1 h
    rw [insert, if_neg fun heq : k = e.1 => String.lt_irrefl _ (heq ▸ he),
      if_neg (String.lt_asymm he), ih hd, List.cons_append]

/-- Of entries in order the next one goes to the end. -/
theorem Sorted.insert_append {d : Dictionary α} {e : String × α} {more : List (String × α)}
    (h : Sorted (d ++ e :: more)) : insert d e.1 e.2 = d ++ [e] :=
  insert_of_lt (fun f hf => (List.pairwise_append.1 h).2.2 f hf e List.mem_cons_self) e.2

theorem ofList_of_sorted {d : Dictionary α} (h : Sorted d) : ofList d = d := by
  have hfold : ∀ more d : Dictionary α, Sorted (d ++ more) →
      more.foldl (fun d e => insert d e.1 e.2) d = d ++ more := by
    intro more
    induction more with
    | nil => exact fun d _ => (List.append_nil d).symm
    | cons e more ih =>
      intro d hd
      rw [List.foldl_cons, hd.insert_append, ih _ (by rwa [List.append_assoc]), List.append_assoc]
      rfl
  exact hfold d [] h

theorem sorted_map {β : Type} (f : String × α → β) {d : Dictionary α} :
    Sorted (d.map fun e => (e.1, f e)) ↔ Sorted d :=
  List.pairwise_map

end Dictionary

end SymbolTree
