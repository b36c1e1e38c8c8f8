import SymbolTree.Proofs.Outline

/-!
# The course of a search

Searches call each other in many ways, but there are few things that any of them does to the
context.  `Search.Effect` lists what is done to the arena in a single request, and `Search.Course`
how such requests follow each other and nest inside the actions that a search undoes at its end:
locks, marks of variables being expanded, rejections.

A property of contexts that is proved by induction over courses holds for every search, since every
search runs such a course (`Search.follows_run`).  A course is said to be for `params` when only
matches below that list of arguments come and go; without arguments there are none.

## Main statements

* `Search.Course.consistent` — the tree stays consistent.
* `Search.Course.frame` — the program stays arranged as it is.
* `Search.Course.housed` — attribute nodes are there.
* `Search.Course.lookup` — attributes that were worked out are not worked out again.
* `Search.Course.provided` — the modules that declare things for all programs stay.
-/

set_option autoImplicit false
namespace SymbolTree

/-- The flags by which a search marks what it comes upon, apart from packages that are used. -/
def Flag.isTrace : Flag → Bool
  | .identifierTyped | .identifierWith | .enumInuse | .variableInuse | .paramReferenced
  | .paramMatchUnprototyped | .packageFoundLabels => true
  | _ => false

/-- That a package is referred to is recorded by its own effect. -/
theorem Flag.ne_of_isTrace {f : Flag} (h : f.isTrace = true) : f ≠ .packageReferenced := by
  rintro rfl
  cases h

namespace Search

/-- What a search does to an arena in one request. -/
inductive Effect (params : Option NodeId) : Arena → Arena → Prop
  /-- A node is marked as used, typed or searched. -/
  | flag {a b : Arena} {n : NodeId} {f : Flag} (hf : f.isTrace = true)
      (h : a.setFlag n f true = .ok b) : Effect params a b
  /-- A name is marked as the name of a type. -/
  | typed {a b : Arena} {n : NodeId} {r : Bool} (h : a.setAttribute n .type true = .ok (r, b)) :
      Effect params a b
  /-- A label is registered. -/
  | label {a b : Arena} {n l : NodeId} (h : a.addLabel n l = .ok b) : Effect params a b
  /-- The tables of a match are filled in. -/
  | table {a : Arena} (n : NodeId) (f : List Int32 → List Int32) (g : List Nat → List Nat) :
      Effect params a (a.retable n f g)
  /-- A name to be resolved, a type or a match is created. -/
  | create {a : Arena} {k : Kind} (p : Position) (s : String) (i : Option NodeId)
      (hk : k = .identifier ∨ k = .void ∨ k = .paramMatch) :
      Effect params a (a.push { kind := k, position := p, text := s, inst := i }).2
  /-- A match is put after the arguments. -/
  | append {a b : Arena} {p m : NodeId} (hp : params = some p) (hk : a.kind m = .paramMatch)
      (hm : a.parent m = none) (h : a.appendChild p m = .ok b) : Effect params a b
  /-- A match is taken from the arguments. -/
  | detach {a b : Arena} {p m : NodeId} (hp : params = some p) (hk : a.kind m = .paramMatch)
      (hm : a.parent m = some p) (h : a.setParent m none none = .ok b) : Effect params a b
  /-- A match is discarded. -/
  | discard {a b : Arena} {p m : NodeId} (hp : params = some p) (hk : a.kind m = .paramMatch)
      (h : a.discard m = .ok b) : Effect params a b

/-- What a search makes of a context, from its beginning to its end. -/
inductive Course (params : Option NodeId) : Context → Context → Prop
  | refl (c : Context) : Course params c c
  | trans {c d e : Context} (h : Course params c d) (h' : Course params d e) : Course params c e
  /-- A request on the arena. -/
  | effect {c : Context} {b : Arena} (h : Effect params c.arena b) :
      Course params c { c with arena := b }
  /-- What a parser made of a source is built, as far as it can be. -/
  | build {c : Context} {source : String} {o : Outline} (p : Position)
      (h : (c.parser source).outline = some o) :
      Course params c { c with
        arena := (StateT.run (ExceptT.run (o.build p)) { arena := c.arena }).2.arena }
  /-- A package is put on the list of packages to compile. -/
  | reference {c : Context} {b : Arena} {p : NodeId}
      (hp : (c.arena.node p).flags.contains .packageReferenced = false)
      (h : c.arena.setFlag p .packageReferenced true = .ok b) :
      Course params c { c with arena := b, compiledPackages := c.compiledPackages ++ [p] }
  /-- A message, the configuration, a loaded module or the reasons for a failure are recorded. -/
  | aside {c : Context} (ds : Diagnostics) (o : Option Config) (ms : List (String × NodeId))
      (l : Rejections) :
      Course params c { c with diagnostics := ds, options := o, modules := ms, lastRejections := l }
  /-- A candidate is rejected. -/
  | reject {c : Context} (r : Rejection) :
      Course params c { c with rejections := c.rejections.add r }
  /-- The attributes written on a node are remembered as its own. -/
  | remember {c : Context} {n : NodeId} (h : c.attributeCache.lookup n = none) :
      Course params c
        { c with attributeCache := (n, (c.arena.node n).attributes) :: c.attributeCache }
  /-- A link that led nowhere is given an end. -/
  | link {c d : Context} {n : NodeId} {l : Link} (t : NodeId) (hl : l = .inst ∨ l = .typeNode)
      (h : c.arena.link n l = none) (hd : Course params c d) :
      Course params c { d with arena := d.arena.setLink n l (some t) }
  /-- The attributes of a node are worked out and remembered. -/
  | attributes {c d : Context} {n : NodeId} (s : AttributeSet)
      (h : c.attributeCache.lookup n = none)
      (hd : Course params
        { c with attributeCache := (n, (c.arena.node n).attributes) :: c.attributeCache } d) :
      Course params c { d with attributeCache := (n, s) :: d.attributeCache }
  /-- Something is done while a node is locked. -/
  | lock {c d : Context} {n : NodeId} (hd : Course params { c with arena := c.arena.lock n } d) :
      Course params c { d with arena := Guard.drop ⟨some n⟩ d.arena }
  /-- Something is done with rejections of its own. -/
  | fresh {c d : Context} (hd : Course params { c with rejections := Rejections.none } d) :
      Course params c { d with rejections := c.rejections }
  /-- Something is done while the attributes of a variable are worked out. -/
  | expand {c d : Context} {v : NodeId}
      (hd : Course params { c with expanding := v :: c.expanding } d) :
      Course params c { d with expanding := d.expanding.erase v }

variable {params : Option NodeId}

/-! ## Single requests -/

/-- One request, case by case. -/
theorem Effect.consistent {a b : Arena} (h : Effect params a b) (ha : a.Consistent) :
    b.Consistent := by
  cases h with
  | flag hf h => exact ha.setFlag h
  | typed h => exact ha.setAttribute h
  | label h => exact ha.addLabel h
  | table n f g => exact ha.retable n f g
  | create p s i hk => exact ha.push rfl rfl
  | append hp hk hm h => exact ha.setParent h
  | detach hp hk hm h => exact ha.setParent h
  | discard hp hk h => exact ha.discard h

/-- What it adds comes after what was there, and what it moves are matches. -/
theorem Effect.frame {a b : Arena} (h : Effect params a b) (ha : a.Consistent) :
    a.Frame params b := by
  cases h with
  | flag hf h => exact .setFlag h
  | typed h => exact .setType h
  | label h => exact .addLabel h
  | table n f g => exact .retable n f g
  | create p s i hk => exact ((Arena.Extends.refl a).push rfl rfl).frame ha params
  | append hp hk hm h => exact .append hp hk hm h
  | detach hp hk hm h => exact .detach ha hp hk hm h
  | discard hp hk h => exact .discard hp hk h

theorem Effect.of_none {a b : Arena} (h : Effect none a b) (params : Option NodeId) :
    Effect params a b := by
  cases h with
  | flag hf h => exact .flag hf h
  | typed h => exact .typed h
  | label h => exact .label h
  | table n f g => exact .table n f g
  | create p s i hk => exact .create p s i hk
  | append hp => cases hp
  | detach hp => cases hp
  | discard hp => cases hp

/-- Attribute nodes are where they were. -/
theorem Effect.housed {a b : Arena} (h : Effect params a b) (ha : a.Housed) : b.Housed := by
  cases h with
  | flag hf h => exact ha.setFlag h
  | typed h =>
    obtain ⟨-, -, rfl | rfl⟩ := Arena.setAttribute_eq_ok h
    · exact ha
    · exact ha.update fun _ => rfl
  | label h =>
    obtain ⟨-, -, -, rfl⟩ := Arena.addLabel_eq_ok h
    exact ha.update fun _ => rfl
  | table n f g => exact ha.update fun _ => rfl
  | create p s i hk => exact ha.push fun _ hl => nomatch hl
  | append hp hk hm h => exact ha.setParent h
  | detach hp hk hm h => exact ha.setParent h
  | discard hp hk h =>
    obtain ⟨-, rfl⟩ | ⟨-, -, -, rfl⟩ := Arena.discard_eq_ok h
    · exact ha
    · refine ha.of_eq (Nat.le_of_eq (Arena.size_foldl_kill _ _).symm) fun n => ?_
      rw [Arena.node_foldl_kill]

/-! ## Whole courses -/

namespace Course

variable {c d : Context}

/-- By induction over the course. -/
theorem consistent (h : Course params c d) (hc : c.arena.Consistent) : d.arena.Consistent := by
  induction h with
  | refl => exact hc
  | trans _ _ ih ih' => exact ih' (ih hc)
  | effect h => exact h.consistent hc
  | build p h => exact (Outline.grownFrom_build hc _ p).1
  | reference hp h => exact hc.setFlag h
  | aside => exact hc
  | reject => exact hc
  | remember => exact hc
  | link t hl h hd ih => exact (ih hc).setLink _ _ _
  | attributes s h hd ih => exact ih hc
  | lock hd ih => exact (ih (hc.lock _)).drop _
  | fresh hd ih => exact ih hc
  | expand hd ih => exact ih hc

/-- The frames of its parts make up that of a course. -/
theorem frame (h : Course params c d) (hc : c.arena.Consistent) :
    c.arena.Frame params d.arena := by
  induction h with
  | refl => exact .refl params _
  | trans h _ ih ih' => exact (ih hc).trans (ih' (h.consistent hc))
  | effect h => exact h.frame hc
  | build p h => exact (Outline.grownFrom_build hc _ p).2.frame hc params
  | reference hp h => exact .setFlag h
  | aside => exact .refl params _
  | reject => exact .refl params _
  | remember => exact .refl params _
  | link t hl h hd ih => exact (ih hc).setLink h _
  | attributes s h hd ih => exact ih hc
  | lock hd ih => exact (ih (hc.lock _)).lock
  | fresh hd ih => exact ih hc
  | expand hd ih => exact ih hc

theorem housed (h : Course params c d) (hc : c.arena.Housed) : d.arena.Housed := by
  induction h with
  | refl => exact hc
  | trans _ _ ih ih' => exact ih' (ih hc)
  | effect h => exact h.housed hc
  | build p h => exact Outline.housed_build hc _ p
  | reference hp h => exact hc.setFlag h
  | aside => exact hc
  | reject => exact hc
  | remember => exact hc
  | link t hl h hd ih =>
    refine (ih hc).update fun d => ?_
    rcases hl with rfl | rfl <;> rfl
  | attributes s h hd ih => exact ih hc
  | lock hd ih => exact (ih (hc.of_nodes rfl)).of_nodes (Arena.nodes_drop _ _)
  | fresh hd ih => exact ih hc
  | expand hd ih => exact ih hc

/-- Nothing comes and goes below any arguments. -/
theorem of_none (h : Course none c d) (params : Option NodeId) : Course params c d := by
  induction h with
  | refl c => exact .refl c
  | trans _ _ ih ih' => exact ih.trans ih'
  | effect h => exact .effect (h.of_none params)
  | build p h => exact .build p h
  | reference hp h => exact .reference hp h
  | aside ds o ms l => exact .aside ds o ms l
  | reject r => exact .reject r
  | remember h => exact .remember h
  | link t hl h hd ih => exact .link t hl h ih
  | attributes s h hd ih => exact .attributes s h ih
  | lock hd ih => exact .lock ih
  | fresh hd ih => exact .fresh ih
  | expand hd ih => exact .expand ih

/-- What was remembered before is found behind what is remembered about another node. -/
theorem lookup_cons_of_none {l : List (NodeId × AttributeSet)} {n m : NodeId} {s t : AttributeSet}
    (hn : l.lookup n = none) (hm : l.lookup m = some s) : ((n, t) :: l).lookup m = some s := by
  have hne : (m == n) = false := by
    rw [beq_eq_false_iff_ne]
    rintro rfl
    rw [hn] at hm
    cases hm
  rw [List.lookup_cons, hne]
  exact hm

/-- What was worked out for a node stays. -/
theorem lookup (h : Course params c d) {n : NodeId} {s : AttributeSet}
    (hn : c.attributeCache.lookup n = some s) : d.attributeCache.lookup n = some s := by
  induction h with
  | refl => exact hn
  | trans _ _ ih ih' => exact ih' (ih hn)
  | effect => exact hn
  | build => exact hn
  | reference => exact hn
  | aside => exact hn
  | reject => exact hn
  | remember h => exact lookup_cons_of_none h hn
  | link _ _ _ _ ih => exact ih hn
  | @attributes c d m t h hd ih =>
    have hd := ih (lookup_cons_of_none h hn)
    -- the provisional entry is replaced, and it is not the entry of `n`
    have hne : (n == m) = false := by
      rw [beq_eq_false_iff_ne]
      rintro rfl
      rw [h] at hn
      cases hn
    rw [List.lookup_cons, hne]
    exact hd
  | lock hd ih => exact ih hn
  | fresh hd ih => exact ih hn
  | expand hd ih => exact ih hn

/-- The modules that declare things for all programs stay. -/
theorem provided (h : Course params c d) : d.globalImport = c.globalImport ∧
    d.systemImport = c.systemImport ∧ d.nativeImport = c.nativeImport := by
  induction h with
  | refl => exact ⟨rfl, rfl, rfl⟩
  | trans _ _ ih ih' => exact ⟨ih'.1.trans ih.1, ih'.2.1.trans ih.2.1, ih'.2.2.trans ih.2.2⟩
  | effect => exact ⟨rfl, rfl, rfl⟩
  | build => exact ⟨rfl, rfl, rfl⟩
  | reference => exact ⟨rfl, rfl, rfl⟩
  | aside => exact ⟨rfl, rfl, rfl⟩
  | reject => exact ⟨rfl, rfl, rfl⟩
  | remember => exact ⟨rfl, rfl, rfl⟩
  | link _ _ _ _ ih => exact ih
  | attributes _ _ _ ih => exact ih
  | lock _ ih => exact ih
  | fresh _ ih => exact ih
  | expand _ ih => exact ih

end Course

end Search

end SymbolTree
