import SymbolTree.Proofs.Search.Answers
import SymbolTree.Proofs.Search.Inherited.Hierarchy

/-!
# Bodies that are searched for a name

A search for a member goes through the lists in the body of a class or package, from the first
directive to the last, and into the lists among them.  If it is known what each directive has under
the name, and that asking for it changes nothing that matters, then it is known what the body has:
the first of what the directives have.

## Main statements

* `Search.answers_scan` — items are tried until one has what is looked for.
* `Search.answers_findInBody` — the body of a class or package.
-/

set_option autoImplicit false
namespace SymbolTree

/-- The answer of a search for a member in one place, where `r` was found. -/
def Tally.take (t : Tally) (r : Option NodeId) : Bool × Tally :=
  (r.isSome, { t with found := r.or t.found })

namespace Search

/-- Items are tried until one has what is looked for. -/
theorem answers_scan {α : Type} {P : Context → Prop} {d : Context} {t : Tally}
    {step : α → Tally → Search (Bool × Tally)}
    (found : α → Option NodeId) {xs : List α} (hstep : ∀ x ∈ xs, ∀ d, P d →
      Answers d (step x t) fun y e => P e ∧ y = t.take (found x)) (hd : P d) :
    Answers d (scan step xs t) fun y e => P e ∧ y = t.take (xs.findSome? found) := by
  induction xs generalizing d with
  | nil => exact Answers.pure ⟨hd, rfl⟩
  | cons x xs ih =>
    refine (hstep x List.mem_cons_self d hd).bind fun y d hd => ?_
    rw [hd.2, List.findSome?_cons]
    cases hx : found x with
    | none => exact ih (fun y hy => hstep y (List.mem_cons_of_mem x hy)) hd.1
    | some v => exact Answers.pure ⟨hd.1, rfl⟩

theorem findSome?_flatMap {α β γ : Type} (l : List α) (f : α → List β) (g : β → Option γ) :
    (l.flatMap f).findSome? g = l.findSome? fun x => (f x).findSome? g := by
  induction l with
  | nil => rfl
  | cons x l ih =>
    rw [List.flatMap_cons, List.findSome?_append, ih, List.findSome?_cons]
    cases (f x).findSome? g with
    | none => rfl
    | some y => rfl

theorem findSome?_congr {α β : Type} {l : List α} {f g : α → Option β}
    (h : ∀ x ∈ l, f x = g x) : l.findSome? f = l.findSome? g := by
  induction l with
  | nil => rfl
  | cons x l ih =>
    rw [List.findSome?_cons, List.findSome?_cons, h x List.mem_cons_self,
      ih fun y hy => h y (List.mem_cons_of_mem x hy)]

/-- The places of a list lead to its items. -/
theorem findSome?_range {α β : Type} (l : List α) (g : α → Option β) :
    (List.range l.length).findSome? (fun i => l[i]?.bind g) = l.findSome? g := by
  induction l with
  | nil => rfl
  | cons x l ih =>
    rw [List.length_cons, List.range_succ_eq_map, List.findSome?_cons, List.findSome?_map,
      List.findSome?_cons]
    rw [← ih]
    rfl

/-! ## What a search may rely on -/

variable {c d : Context} {P : Context → Prop} {held : NodeId → Prop} {field s list n : NodeId}
  {fuel : Nat} {t : Tally} {mode : SearchMode} {found : NodeId → Option NodeId}

/-- What holds of the contexts in which a name is looked for: some nodes, lists among them, have the
children that they had in `c`, and may be locked on the way. -/
structure Steady (c : Context) (held : NodeId → Prop) (P : Context → Prop) : Prop where
  /-- Nodes are of the kind that they were. -/
  kind : ∀ d n, n.index < c.arena.size → P d → d.arena.kind n = c.arena.kind n
  /-- They have the children that they had. -/
  children : ∀ d n, held n → P d → d.arena.children n = c.arena.children n
  /-- Lists are among them. -/
  list : ∀ n, c.arena.kind n = .directiveList → held n
  /-- It goes on to hold under a lock. -/
  lock : ∀ d n, held n → P d → P { d with arena := d.arena.lock n }
  /-- It goes on to hold when the lock is taken off. -/
  drop : ∀ d n, held n → P d → P { d with arena := Guard.drop ⟨some n⟩ d.arena }

/-- Asking for the name at a directive `n` is sure to give `r`, if the calls may be nested deeper
than `need`. -/
structure Tells (c : Context) (P : Context → Prop) (field : NodeId) (t : Tally) (mode : SearchMode)
    (need : Nat) (n : NodeId) (r : Option NodeId) : Prop where
  /-- An empty directive is not asked. -/
  empty : c.arena.kind n = .empty → r = none
  /-- Any other one gives the answer. -/
  answers : ∀ fuel list i d, need < fuel → (c.arena.children list)[i]? = some n → P d →
    Answers d (tryChild (answer fuel) list field none mode i t) fun x e => P e ∧ x = t.take r

/-! ## Lists of directives -/

/-- One item of a list is asked: a list inside it by one more call, anything else at once. -/
theorem answers_tryBodyChild (need : Nat) {r : Option NodeId} (hP : Steady c held P) {i : Nat}
    (hlist : held list) (hn : n.index < c.arena.size) (hi : (c.arena.children list)[i]? = some n)
    (htells : c.arena.kind n ≠ .directiveList → Tells c P field t mode need n r)
    (hinner : c.arena.kind n = .directiveList → ∀ d, P d →
      Answers d (answer fuel (.findInList n field t none mode)) fun x e => P e ∧ x = t.take r)
    (hfuel : need < fuel) (hd : P d) :
    Answers d (tryBodyChild (answer fuel) list field none mode i t) fun x e =>
      P e ∧ x = t.take r := by
  refine Answers.ask_bind (x := n) ?_ (Answers.arena_bind ?_)
  · rw [Arena.child, hP.children d list hlist hd, hi]
  rw [hP.kind d n hn hd]
  split
  · next hk =>
    refine (hinner hk d hd).bind fun x e he => ?_
    rw [he.2]
    cases r with
    | none => exact Answers.pure ⟨he.1, rfl⟩
    | some v => exact Answers.arena_bind (Answers.pure ⟨he.1, rfl⟩)
  · next hk =>
    rw [(htells (by rw [hk]; decide)).empty hk]
    exact Answers.pure ⟨hd, rfl⟩
  · next hk _ => exact (htells hk).answers fuel list i d hfuel hi hd

/-- The lists of a body are searched, and those inside them, as deep as they reach. -/
theorem answers_findInList (need : Nat) (hP : Steady c held P) (hc : c.arena.Consistent) {k : Nat}
    (hshallow : c.arena.Shallow k list) (hlist : c.arena.kind list = .directiveList)
    (htells : ∀ n ∈ c.arena.bodyFrom k list, Tells c P field t mode need n (found n))
    (hfuel : k + need < fuel) (hd : P d) :
    Answers d (answer fuel (.findInList list field t none mode)) fun x e =>
      P e ∧ x = t.take ((c.arena.bodyFrom k list).findSome? found) := by
  induction k generalizing list fuel d with
  | zero => exact hshallow.elim
  | succ k ih =>
    obtain ⟨fuel, rfl⟩ : ∃ m, fuel = m + 1 := Nat.exists_eq_succ_of_ne_zero (by omega)
    have hheld := hP.list list hlist
    let has : NodeId → Option NodeId := fun n =>
      if c.arena.kind n = .directiveList then (c.arena.bodyFrom k n).findSome? found else found n
    have hhas : (c.arena.bodyFrom (k + 1) list).findSome? found =
        (c.arena.children list).findSome? has := by
      rw [Arena.bodyFrom, findSome?_flatMap]
      refine congrArg (List.findSome? · _) (funext fun n => ?_)
      dsimp only [has]
      split
      · rfl
      · rw [List.findSome?_singleton]
    have hstep : ∀ i ∈ List.range (c.arena.children list).length, ∀ d, P d →
        Answers d (tryBodyChild (answer fuel) list field none mode i t) fun y e =>
          P e ∧ y = t.take ((c.arena.children list)[i]?.bind has) := by
      intro i hi d hd
      obtain ⟨n, hn⟩ : ∃ n, (c.arena.children list)[i]? = some n :=
        ⟨_, List.getElem?_eq_getElem (List.mem_range.1 hi)⟩
      have hmem := List.mem_of_getElem? hn
      have hbody : ∀ m ∈ (if c.arena.kind n = .directiveList then c.arena.bodyFrom k n else [n]),
          m ∈ c.arena.bodyFrom (k + 1) list := fun m hm =>
        List.mem_flatMap.2 ⟨n, hmem, hm⟩
      rw [hn, Option.bind_some]
      refine answers_tryBodyChild need hP hheld (hc.child_lt list n hmem) hn
        (fun hk => ?_) (fun hk d hd => ?_) (by omega) hd
      · rw [if_neg hk] at hbody
        rw [show has n = found n from if_neg hk]
        exact htells n (hbody n List.mem_cons_self)
      · rw [if_pos hk] at hbody
        rw [show has n = (c.arena.bodyFrom k n).findSome? found from if_pos hk]
        exact ih (hshallow n hmem) hk (fun m hm => htells m (hbody m hm)) (by omega) hd
    rw [hhas, ← findSome?_range]
    have hlock := hP.lock d list hheld hd
    have hscan : Answers { d with arena := d.arena.lock list } (arena >>= fun a =>
        scan (tryBodyChild (answer fuel) list field none mode)
          (List.range (a.children list).length) t) fun x e => P e ∧
          x = t.take ((List.range (c.arena.children list).length).findSome? fun i =>
            (c.arena.children list)[i]?.bind has) := by
      refine Answers.arena_bind ?_
      rw [hP.children _ list hheld hlock]
      exact answers_scan _ hstep hlock
    exact hscan.withLock fun x e he => ⟨hP.drop e list hheld he.1, he.2⟩

/-- **The body of a class or package.**  The search finds the first of what the directives have. -/
theorem answers_findInBody (need : Nat) (hP : Steady c held P) (hs : held s)
    (hf : c.arena.Forest) (hc : c.arena.Consistent)
    (htells : ∀ n ∈ c.arena.body s, Tells c P field t mode need n (found n))
    (hfuel : c.arena.size + 1 + need < fuel) (hd : P d) :
    Answers d (findInBody (answer fuel) s field t none mode) fun x e =>
      P e ∧ x = t.take ((c.arena.body s).findSome? found) := by
  have hlists : ∀ list ∈ (c.arena.children s).filter (fun n => c.arena.kind n = .directiveList),
      ∀ d, P d → Answers d (answer fuel (.findInList list field t none mode)) fun x e => P e ∧
        x = t.take ((c.arena.bodyFrom (c.arena.size + 1) list).findSome? found) := by
    intro list hlist d hd
    have hk := (List.mem_filter.1 hlist).2
    refine answers_findInList need hP hc (hf.shallow hc (by omega)) (of_decide_eq_true hk)
      (fun n hn => htells n ?_) hfuel hd
    exact List.mem_flatMap.2 ⟨list, hlist, hn⟩
  have hlock := hP.lock d s hs hd
  have hscan : Answers { d with arena := d.arena.lock s } (arena >>= fun a =>
      scan (fun list t => answer fuel (.findInList list field t none mode))
        ((a.children s).filter fun n => a.kind n = .directiveList) t) fun x e =>
        P e ∧ x = t.take ((c.arena.body s).findSome? found) := by
    have hkinds : ∀ n ∈ c.arena.children s,
        decide ((d.arena.lock s).kind n = .directiveList) =
          decide (c.arena.kind n = .directiveList) := fun n hn =>
      congrArg (fun k => decide (k = .directiveList)) (hP.kind _ n (hc.child_lt s n hn) hlock)
    refine Answers.arena_bind ?_
    rw [hP.children _ s hs hlock, List.filter_congr hkinds, Arena.body, findSome?_flatMap]
    exact answers_scan _ hlists hlock
  exact hscan.withLock fun x e he => ⟨hP.drop e s hs he.1, he.2⟩

end Search

end SymbolTree
