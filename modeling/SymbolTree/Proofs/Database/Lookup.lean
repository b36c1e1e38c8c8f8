import SymbolTree.Proofs.Database.Pattern
import SymbolTree.Proofs.Database.Record

/-!
# The first element that fits

A lookup goes through the packages in the order of their names, and through the elements of each
package in the order of theirs.  So the element that is found is the first one that fits, by package
and then by name (`Database.findElement_eq_some_iff`), where a database is in order.

A pattern without an asterisk stands for itself alone, so that a lookup under two such patterns is a
direct one (`Database.findElement_of_starless`).

## Main statements

* `nameFits_of_starless` — what fits a pattern without an asterisk.
* `Database.findElement_eq_some_iff`, `Database.findElement_eq_none_iff` — what a lookup finds.
* `Database.findElement_of_starless` — a lookup without asterisks.
-/

set_option autoImplicit false
namespace SymbolTree

/-! ## Patterns without an asterisk -/

theorem Pattern.fits_of_starless {pattern : List Char} (h : '*' ∉ pattern) {name : List Char} :
    fits pattern name = true ↔ name = pattern := by
  induction pattern generalizing name with
  | nil => rw [fits, List.isEmpty_iff]
  | cons p pattern ih =>
    obtain ⟨hp, hpattern⟩ := not_or.1 (mt List.mem_cons.2 h)
    rw [fits_cons (Ne.symm hp)]
    constructor
    · rintro ⟨rest, rfl, hrest⟩
      rw [(ih hpattern).1 hrest]
    · rintro rfl
      exact ⟨pattern, rfl, (ih hpattern).2 rfl⟩

/-- A pattern without an asterisk stands for itself alone. -/
theorem nameFits_of_starless {name pattern : String} (h : '*' ∉ pattern.toList) :
    nameFits name pattern = true ↔ name = pattern := by
  rw [nameFits, Pattern.fits_of_starless h, String.toList_inj]

/-! ## The first of a list in order -/

/-- In a list in order, the first item with a property is the one that comes before all others that
have it. -/
theorem find?_eq_some_iff_of_pairwise {α : Type} {R : α → α → Prop} (hR : ∀ x y, R x y → ¬ R y x)
    {l : List α} (h : l.Pairwise R) {p : α → Bool} {x : α} :
    l.find? p = some x ↔ x ∈ l ∧ p x = true ∧ ∀ y ∈ l, p y = true → y = x ∨ R x y := by
  induction l with
  | nil => exact iff_of_false nofun fun h => nomatch h.1
  | cons z l ih =>
    obtain ⟨hz, hl⟩ := List.pairwise_cons.1 h
    rw [List.find?_cons]
    cases hpz : p z with
    | true =>
      dsimp only
      constructor
      · intro hzx
        obtain rfl := Option.some.inj hzx
        exact ⟨List.mem_cons_self, hpz, fun y hy _ => (List.mem_cons.1 hy).imp_right (hz y)⟩
      · rintro ⟨hx, -, hfirst⟩
        rcases List.mem_cons.1 hx with rfl | hx
        · rfl
        · rcases hfirst z List.mem_cons_self hpz with rfl | hxz
          · rfl
          · exact absurd hxz (hR z x (hz x hx))
    | false =>
      dsimp only
      rw [ih hl]
      have hne : ∀ y, p y = true → y ∈ z :: l → y ∈ l := by
        intro y hy hmem
        rcases List.mem_cons.1 hmem with rfl | hmem
        · rw [hpz] at hy
          cases hy
        · exact hmem
      constructor
      · rintro ⟨hx, hpx, hfirst⟩
        exact ⟨List.mem_cons_of_mem z hx, hpx, fun y hy hpy => hfirst y (hne y hpy hy) hpy⟩
      · rintro ⟨hx, hpx, hfirst⟩
        exact ⟨hne x hpx hx, hpx, fun y hy => hfirst y (List.mem_cons_of_mem z hy)⟩

namespace Database

open Dictionary (Sorted)

variable {db : Database} {package element name : String} {type : Option String} {r q : Record}

/-! ## Records in order -/

/-- One record comes before another: by the package, and in the same package by the name. -/
def Record.Precedes (r q : Record) : Prop :=
  r.package < q.package ∨ r.package = q.package ∧ r.name < q.name

theorem Record.Precedes.asymm (h : r.Precedes q) : ¬ q.Precedes r := by
  rintro (hp | ⟨hp, hn⟩)
  · rcases h with hp' | ⟨hp', -⟩
    · exact String.lt_asymm hp hp'
    · exact String.lt_irrefl _ (hp' ▸ hp)
  · rcases h with hp' | ⟨-, hn'⟩
    · exact String.lt_irrefl _ (hp ▸ hp')
    · exact String.lt_asymm hn hn'

/-- Everything that is recorded, package by package. -/
def records (db : Database) : List Record :=
  db.packages.flatMap fun p => p.2.map fun e => ⟨p.1, e.1, e.2⟩

theorem Ordered.mem_records (h : Ordered db.packages) :
    r ∈ db.records ↔ db.element? r.package r.name = some r.element := by
  rw [records, List.mem_flatMap, element?, Option.bind_eq_some_iff]
  constructor
  · rintro ⟨p, hp, hr⟩
    obtain ⟨e, he, rfl⟩ := List.mem_map.1 hr
    exact ⟨p.2, h.names.find?_eq_some_iff.2 hp, (h.elements p hp).find?_eq_some_iff.2 he⟩
  · rintro ⟨p, hp, he⟩
    have hp := Dictionary.mem_of_find? hp
    exact ⟨(r.package, p), hp,
      List.mem_map.2 ⟨(r.name, r.element), Dictionary.mem_of_find? he, rfl⟩⟩

theorem Ordered.pairwise_records (h : Ordered db.packages) :
    db.records.Pairwise Record.Precedes := by
  refine List.pairwise_flatMap.2 ⟨fun p hp => ?_, h.names.imp fun hpq r hr q hq => ?_⟩
  · exact List.pairwise_map.2 ((h.elements p hp).imp fun hxy => .inr ⟨rfl, hxy⟩)
  · obtain ⟨-, -, rfl⟩ := List.mem_map.1 hr
    obtain ⟨-, -, rfl⟩ := List.mem_map.1 hq
    exact .inl hpq

/-! ## Lookups -/

/-- A record of the database fits the patterns, and has the type if one is given. -/
structure Candidate (db : Database) (package element : String) (type : Option String)
    (r : Record) : Prop where
  /-- It is in the database. -/
  recorded : db.element? r.package r.name = some r.element
  /-- The name of the package fits. -/
  package_fits : nameFits r.package package = true
  /-- The name of the element fits. -/
  name_fits : nameFits r.name element = true
  /-- The type is the given one. -/
  type_eq : ∀ t ∈ type, t = r.element.type

/-- What a lookup asks of a record. -/
def Record.fits (package element : String) (type : Option String) (r : Record) : Bool :=
  nameFits r.package package && (nameFits r.name element && type.all (· = r.element.type))

theorem Ordered.candidate_iff (h : Ordered db.packages) :
    db.Candidate package element type r ↔ r ∈ db.records ∧ r.fits package element type = true := by
  rw [h.mem_records, Record.fits, Bool.and_eq_true, Bool.and_eq_true, Option.all_eq_true]
  simp only [decide_eq_true_eq]
  exact ⟨fun h => ⟨h.recorded, h.package_fits, h.name_fits, fun t ht => h.type_eq t ht⟩,
    fun h => ⟨h.1, h.2.1, h.2.2.1, fun t ht => h.2.2.2 t ht⟩⟩

/-- A lookup goes through the records. -/
theorem findElement_eq_find? (db : Database) (package element : String) (type : Option String) :
    db.findElement package element type =
      (db.records.find? (Record.fits package element type)).map fun r => (r.name, r.element) := by
  -- the records of one package are asked only if its name fits
  have hone : ∀ p : String × Package,
      ((p.2.map fun e => (⟨p.1, e.1, e.2⟩ : Record)).find? (Record.fits package element type)).map
        (fun r => (r.name, r.element)) = if nameFits p.1 package = true then
          (Package.findElements p.2 element).find? fun e => type.all (· = e.2.type) else none := by
    intro p
    rw [List.find?_map, Option.map_map, Package.findElements, List.find?_filter]
    split
    · next hp =>
      have hfits : Record.fits package element type ∘
          (fun e : String × Element => (⟨p.1, e.1, e.2⟩ : Record)) =
            fun e => nameFits e.1 element && type.all (· = e.2.type) := by
        funext e
        rw [Function.comp, Record.fits, hp, Bool.true_and]
      rw [hfits]
      simp only [Bool.decide_and, Bool.decide_eq_true]
      exact Option.map_id'
    · next hp =>
      rw [List.find?_eq_none.2, Option.map_none]
      intro e _ he
      rw [Function.comp, Record.fits, Bool.and_eq_true] at he
      exact hp he.1
  rw [findElement, findPackages, records]
  induction db.packages with
  | nil => rfl
  | cons p packages ih =>
    rw [List.flatMap_cons, List.find?_append, Option.map_or, hone, ← ih, List.filter_cons]
    split
    · rw [List.flatMap_cons, List.find?_append]
    · rw [Option.none_or]

/-- **A lookup finds the first element that fits**, by package and then by name. -/
theorem findElement_eq_some_iff (h : Ordered db.packages) {x : String × Element} :
    db.findElement package element type = some x ↔
      ∃ r, db.Candidate package element type r ∧
        (∀ q, db.Candidate package element type q → q = r ∨ r.Precedes q) ∧
        (r.name, r.element) = x := by
  rw [findElement_eq_find?, Option.map_eq_some_iff]
  refine exists_congr fun r => ?_
  rw [find?_eq_some_iff_of_pairwise (fun _ _ => Record.Precedes.asymm) h.pairwise_records,
    h.candidate_iff]
  simp only [h.candidate_iff, and_imp, and_assoc]

/-- It finds none if and only if none fits. -/
theorem findElement_eq_none_iff (h : Ordered db.packages) :
    db.findElement package element type = none ↔
      ∀ r, ¬ db.Candidate package element type r := by
  rw [findElement_eq_find?, Option.map_eq_none_iff, List.find?_eq_none]
  simp only [h.candidate_iff, not_and]

/-- **A lookup without asterisks is a direct one.** -/
theorem findElement_of_starless (h : Ordered db.packages) (hp : '*' ∉ package.toList)
    (hn : '*' ∉ name.toList) : db.findElement package name none =
      (db.element? package name).map fun e => (name, e) := by
  have hcandidate : ∀ r, db.Candidate package name none r ↔
      r.package = package ∧ r.name = name ∧ db.element? package name = some r.element := by
    intro r
    constructor
    · rintro ⟨hr, hpackage, hname, -⟩
      rw [nameFits_of_starless hp] at hpackage
      rw [nameFits_of_starless hn] at hname
      exact ⟨hpackage, hname, hpackage ▸ hname ▸ hr⟩
    · rintro ⟨rfl, rfl, hr⟩
      exact ⟨hr, (nameFits_of_starless hp).2 rfl, (nameFits_of_starless hn).2 rfl, nofun⟩
  cases he : db.element? package name with
  | none =>
    rw [Option.map_none, findElement_eq_none_iff h]
    intro r hr
    rw [he] at hcandidate
    cases ((hcandidate r).1 hr).2.2
  | some e =>
    rw [Option.map_some, findElement_eq_some_iff h]
    refine ⟨⟨package, name, e⟩, (hcandidate _).2 ⟨rfl, rfl, he⟩, fun q hq => .inl ?_, rfl⟩
    obtain ⟨hpackage, hname, hq⟩ := (hcandidate q).1 hq
    rw [← hpackage, ← hname, Option.some.inj (he.symm.trans hq)]

end Database

end SymbolTree
