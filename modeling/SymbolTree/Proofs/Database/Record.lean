import Mathlib.Data.List.Sort
import SymbolTree.Proofs.Database

/-!
# Recording elements in the database

A database in order is what a lookup says of it: which packages there are, and which element each
of them has under a name (`Database.Ordered.ext`).  Recording an element changes what is said under
its package and its name (`Database.element?_put`), so that of several recorded there the last one
is what is found, and recording all of them once more changes nothing.

## Main statements

* `Database.element?_putAll` — what is found after a list of elements was recorded.
* `Database.putAll_putAll` — the second time nothing changes.
-/

set_option autoImplicit false
namespace SymbolTree

namespace Dictionary

variable {α : Type} {d d' : Dictionary α}

/-- In a dictionary in order an entry is what is found under its name. -/
theorem Sorted.find?_eq_some_iff (h : Sorted d) {k : String} {v : α} :
    find? d k = some v ↔ (k, v) ∈ d := by
  refine ⟨mem_of_find?, fun hmem => ?_⟩
  induction d with
  | nil => cases hmem
  | cons e d ih =>
    obtain ⟨he, hd⟩ := List.pairwise_cons.1 h
    rw [find?, List.lookup_cons]
    rcases List.mem_cons.1 hmem with rfl | hmem
    · rw [beq_self_eq_true]
    · have hne : (k == e.1) = false :=
        beq_false_of_ne fun hk => String.lt_irrefl k (by simpa [hk] using he _ hmem)
      rw [hne]
      exact ih hd hmem

/-- Dictionaries in order with the same lookups are the same. -/
theorem Sorted.ext (h : Sorted d) (h' : Sorted d') (heq : ∀ k, find? d k = find? d' k) :
    d = d' := by
  have hirrefl : Std.Irrefl fun x y : String × α => x.1 < y.1 := ⟨fun x => String.lt_irrefl x.1⟩
  have hantisymm : Std.Antisymm fun x y : String × α => x.1 < y.1 :=
    ⟨fun _ _ hxy hyx => absurd hyx (String.lt_asymm hxy)⟩
  refine List.Pairwise.eq_of_mem_iff h h' fun e => ?_
  rw [← h.find?_eq_some_iff, ← h'.find?_eq_some_iff, heq]

theorem insert_insert (d : Dictionary α) (k : String) (v w : α) :
    insert (insert d k v) k w = insert d k w := by
  induction d with
  | nil => simp [insert]
  | cons e d ih =>
    obtain ⟨l, u⟩ := e
    by_cases hkl : k = l
    · simp [insert, hkl]
    · by_cases hlt : k < l
      · simp [insert, hkl, hlt]
      · simp [insert, hkl, hlt, ih]

end Dictionary

namespace Database

open Dictionary (Sorted)

variable {db db' : Database} {package name p x : String} {e : Element}

/-- The element of a package under a name. -/
def element? (db : Database) (package name : String) : Option Element :=
  (db.getPackage package).bind fun p => Dictionary.find? p name

/-- **Databases in order are told apart by lookups.** -/
theorem Ordered.ext (h : Ordered db.packages) (h' : Ordered db'.packages)
    (hloaded : db.loaded = db'.loaded)
    (hpackages : ∀ p, (db.getPackage p).isSome = (db'.getPackage p).isSome)
    (helements : ∀ p x, db.element? p x = db'.element? p x) : db = db' := by
  have hget : ∀ p, db.getPackage p = db'.getPackage p := by
    intro p
    have hp := hpackages p
    have hx := helements p
    simp only [element?] at hx
    cases hq : db.getPackage p with
    | none =>
      rw [hq, Option.isSome_none] at hp
      exact (Option.not_isSome_iff_eq_none.1 (hp ▸ Bool.false_ne_true)).symm
    | some q =>
      rw [hq, Option.isSome_some] at hp
      obtain ⟨q', hq'⟩ := Option.isSome_iff_exists.1 hp.symm
      rw [hq, hq'] at hx
      rw [hq']
      exact congrArg some (Sorted.ext (h.elements _ (Dictionary.mem_of_find? hq))
        (h'.elements _ (Dictionary.mem_of_find? hq')) hx)
  have hall : db.packages = db'.packages := h.names.ext h'.names hget
  cases db
  cases db'
  cases hloaded
  cases hall
  rfl

/-! ## One element -/

/-- Records an element of a package, in the place of what was recorded there. -/
def put (db : Database) (package name : String) (e : Element) : Database :=
  { db with
    packages := Dictionary.insert db.packages package
      (Dictionary.insert ((db.getPackage package).getD []) name e) }

/-- In a database that was loaded an element is changed by recording what becomes of it. -/
theorem changeElement_const (h : db.isLoaded = true) (package name : String) (e : Element) :
    db.changeElement package name (fun _ => e) = .ok (e, db.put package name e) := by
  rw [changeElement, addPackage, if_pos h, put]
  cases db.getPackage package with
  | some p => rfl
  | none =>
    exact congrArg (fun ps => Except.ok (e, { db with packages := ps }))
      (Dictionary.insert_insert ..)

theorem getPackage_put : (db.put package name e).getPackage p = if p = package then
    some (Dictionary.insert ((db.getPackage package).getD []) name e) else db.getPackage p :=
  Dictionary.find?_insert ..

theorem element?_put : (db.put package name e).element? p x =
    if p = package ∧ x = name then some e else db.element? p x := by
  rw [element?, getPackage_put]
  by_cases hp : p = package
  · subst hp
    rw [if_pos rfl, Option.bind_some, Dictionary.find?_insert]
    by_cases hx : x = name
    · rw [if_pos hx, if_pos ⟨rfl, hx⟩]
    · rw [if_neg hx, if_neg fun h => hx h.2, element?]
      cases db.getPackage p with
      | none => rfl
      | some q => rfl
  · rw [if_neg hp, if_neg fun h => hp h.1, element?]

theorem Ordered.put (h : Ordered db.packages) :
    Ordered (db.put package name e).packages := by
  refine h.insert package (Dictionary.sorted_insert ?_ name e)
  cases hp : db.getPackage package with
  | none => exact List.Pairwise.nil
  | some p => exact h.elements _ (Dictionary.mem_of_find? hp)

/-! ## A list of elements -/

/-- What is to be recorded: an element under the name of its package and its own. -/
structure Record where
  /-- The name of the package. -/
  package : String
  /-- The name of the element. -/
  name : String
  /-- The element. -/
  element : Element

variable {r : Record} {rs : List Record}

/-- Records a list of elements, one after the other. -/
def putAll (db : Database) (rs : List Record) : Database :=
  rs.foldl (fun db r => db.put r.package r.name r.element) db

/-- The last of a list of records under a name in a package. -/
def last? (rs : List Record) (package name : String) : Option Record :=
  rs.reverse.find? fun r => r.package = package ∧ r.name = name

theorem putAll_append (db : Database) (rs rs' : List Record) :
    db.putAll (rs ++ rs') = (db.putAll rs).putAll rs' := List.foldl_append

theorem putAll_concat (db : Database) (rs : List Record) (r : Record) :
    db.putAll (rs ++ [r]) = (db.putAll rs).put r.package r.name r.element := db.putAll_append rs [r]

theorem last?_concat (rs : List Record) (r : Record) (package name : String) :
    last? (rs ++ [r]) package name =
      if r.package = package ∧ r.name = name then some r else last? rs package name := by
  rw [last?, List.reverse_append, List.reverse_singleton, List.singleton_append, List.find?_cons]
  split <;> simp_all [last?]

/-- The last record under a name stands behind all others of the name. -/
theorem exists_of_last?_eq_some (h : last? rs package name = some r) :
    r.package = package ∧ r.name = name ∧ ∃ before after, rs = before ++ r :: after ∧
      ∀ s ∈ after, ¬ (s.package = package ∧ s.name = name) := by
  obtain ⟨hr, front, back, hrs, hfront⟩ := List.find?_eq_some_iff_append.1 h
  rw [decide_eq_true_eq] at hr
  refine ⟨hr.1, hr.2, back.reverse, front.reverse, ?_, fun s hs => ?_⟩
  · rw [← List.reverse_reverse rs, hrs, List.reverse_append, List.reverse_cons, List.append_assoc,
      List.singleton_append]
  · have hne := hfront s (List.mem_reverse.1 hs)
    rwa [Bool.not_eq_true', decide_eq_false_iff_not] at hne

theorem last?_eq_none_iff : last? rs package name = none ↔
    ∀ r ∈ rs, ¬ (r.package = package ∧ r.name = name) := by
  simp [last?]

theorem loaded_putAll (db : Database) (rs : List Record) : (db.putAll rs).loaded = db.loaded :=
  List.foldlRecOn (motive := fun d : Database => d.loaded = db.loaded) rs _ rfl fun _ h _ _ => h

theorem Ordered.putAll (h : Ordered db.packages) (rs : List Record) :
    Ordered (db.putAll rs).packages :=
  List.foldlRecOn (motive := fun d : Database => Ordered d.packages) rs _ h fun _ h _ _ => h.put

/-- **What is found after a list of elements was recorded** is the last of them, or else what was
found before. -/
theorem element?_putAll (db : Database) (rs : List Record) (package name : String) :
    (db.putAll rs).element? package name =
      ((last? rs package name).map Record.element).or (db.element? package name) := by
  induction rs using List.reverseRecOn with
  | nil => rfl
  | append_singleton rs r ih =>
    rw [putAll_concat, element?_put, last?_concat, ih]
    by_cases hr : r.package = package ∧ r.name = name
    · rw [if_pos ⟨hr.1.symm, hr.2.symm⟩, if_pos hr]
      rfl
    · rw [if_neg fun h => hr ⟨h.1.symm, h.2.symm⟩, if_neg hr]

/-- There are the packages of what was recorded, and those that were there before. -/
theorem isSome_getPackage_putAll (db : Database) (rs : List Record) (package : String) :
    ((db.putAll rs).getPackage package).isSome =
      (rs.any (·.package = package) || (db.getPackage package).isSome) := by
  induction rs using List.reverseRecOn with
  | nil => rfl
  | append_singleton rs r ih =>
    rw [putAll_concat, getPackage_put, List.any_append]
    by_cases hr : package = r.package
    · simp [hr]
    · rw [if_neg hr, ih]
      simp [Ne.symm hr]

/-- A package of which nothing was recorded stays. -/
theorem getPackage_putAll (h : ∀ r ∈ rs, r.package ≠ package) :
    (db.putAll rs).getPackage package = db.getPackage package := by
  induction rs using List.reverseRecOn with
  | nil => rfl
  | append_singleton rs r ih =>
    rw [putAll_concat, getPackage_put,
      if_neg (h r (List.mem_append_right _ List.mem_cons_self)).symm]
    exact ih fun s hs => h s (List.mem_append_left _ hs)

/-- **Recording the same elements once more changes nothing**, also where one took the place of
another. -/
theorem putAll_putAll (h : Ordered db.packages) (rs : List Record) :
    (db.putAll rs).putAll rs = db.putAll rs := by
  refine Ordered.ext ((h.putAll rs).putAll rs) (h.putAll rs) (loaded_putAll _ rs)
    (fun p => ?_) fun p x => ?_
  · rw [isSome_getPackage_putAll, isSome_getPackage_putAll, ← Bool.or_assoc, Bool.or_self]
  · rw [element?_putAll, element?_putAll]
    cases last? rs p x with
    | none => rfl
    | some r => rfl

end Database

end SymbolTree
