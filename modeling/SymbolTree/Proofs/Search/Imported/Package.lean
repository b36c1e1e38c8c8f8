import SymbolTree.Proofs.Search.Inherited.Body

/-!
# What a package offers to an import

An import that names a package is led to the first package of that name in a module
(`Arena.findPackage`).  What it gets there under the name of a declaration can be read off the tree:
the first directive of the package that declares a class, an interface or a variable of the name
which is open to all (`Arena.imported?`).

What is recorded in the package database is another reading of the same tree (`Arena.entries`).
Both go through the lists of directives in the same order, but the one that records also enters the
packages inside a package, and every package of a name.  Where both have come to the same package,
they agree (`Arena.Publishes.exists_imported?`).

Attributes are worked out here as in `Arena.Effective`, but by a function, so that what a package
offers can be computed.

## Main statements

* `Arena.Forest.effective` — in a forest the function gives the effective attributes.
* `Arena.inside_of_mem_entries` — what is recorded stands in the module.
* `Arena.Publishes.exists_imported?` — a declaration that was recorded for a package, and is open
  to all, is offered by it, or another one of the name before it.
-/

set_option autoImplicit false
namespace SymbolTree

namespace Arena

variable {a : Arena} {name : String} {m n p x : NodeId}

/-! ## Attributes as a function -/

/-- The attributes of a node with those that it inherits, up to `fuel` nodes above it. -/
def effectiveFrom (a : Arena) : Nat → NodeId → AttributeSet
  | 0, n => a.ownAttributes n
  | fuel + 1, n =>
      if a.kind n = .program then a.ownAttributes n
      else match a.parent n with
        | none => a.withoutNative n (a.listedAttributes n)
        | some p =>
            if a.kind n = .package then a.withoutNative n (a.listedAttributes n)
            else a.withoutNative n
              ((a.listedAttributes n).inherit (a.effectiveFrom fuel p) (a.kind p))

/-- The attributes of a node with those that it inherits. -/
def effective (a : Arena) (n : NodeId) : AttributeSet := a.effectiveFrom (a.size + 1) n

/-- Where the way up is short enough these are the effective attributes. -/
theorem Graded.effective {tree : NodeId → Prop} {depth : NodeId → Nat} (h : a.Graded tree depth)
    (hn : tree n) (hdepth : depth n ≤ a.size) : a.Effective n (a.effective n) := by
  have hfrom : ∀ fuel n, tree n → depth n < fuel → a.Effective n (a.effectiveFrom fuel n) := by
    intro fuel
    induction fuel with
    | zero => exact fun n _ hn => absurd hn (Nat.not_lt_zero _)
    | succ fuel ih =>
      intro n hn hfuel
      rw [effectiveFrom]
      split
      · next hk => exact .program hk
      · next hk =>
        cases hp : a.parent n with
        | none => exact .alone hk (.inl hp)
        | some p =>
          dsimp only
          split
          · next hk' => exact .alone hk (.inr hk')
          · next hk' =>
            have hinherits : a.InheritsFrom n p := ⟨hk, hk', hp⟩
            have hlt := h.lt n p hn hinherits
            exact .inherited hk hk' hp (ih p (h.closed n p hn hinherits) (by omega))
  exact hfrom _ n hn (Nat.lt_succ_of_le hdepth)

/-- In a forest these are the effective attributes. -/
theorem Forest.effective (hf : a.Forest) (h : a.Consistent) (n : NodeId) :
    a.Effective n (a.effective n) :=
  (hf.graded h (fun _ => True) fun _ _ _ _ => trivial).effective trivial
    (hf.length_ancestors_le h n)

/-- A declaration is open to all: it is neither private nor protected nor internal. -/
def isOpen (a : Arena) (n : NodeId) : Bool :=
  !(a.effective n).any [.private_, .protected_, .internal]

/-- A declaration is recorded: it is neither private nor internal nor excluded from the
compilation. -/
def isRecorded (a : Arena) (n : NodeId) : Bool :=
  !(a.effective n).any [.private_, .false_, .internal]

/-! ## What is offered -/

/-- The class, interface or variable that a directive declares under a name. -/
def declared? (a : Arena) (name : String) (n : NodeId) : Option NodeId :=
  match a.kind n with
  | .var => Search.findVariable a n name
  | .class_ | .interface => if a.textIs n name then some n else none
  | _ => none

/-- A directive has something under a name that is not open or closed by its attributes: a function,
a parameter, an enumeration or one of its values, a package, or whatever an import leads to. -/
def contests (a : Arena) (name : String) (n : NodeId) : Bool :=
  match a.kind n with
  | .function | .param | .package => a.textIs n name
  | .enum => a.textIs n name || (Search.findVariable a n name).isSome
  | .import_ => (a.node n).flags.contains .importImplements
  | _ => false

/-- What a package offers under a name. -/
def imported? (a : Arena) (name : String) (p : NodeId) : Option NodeId :=
  (a.body p).findSome? fun n => (a.declared? name n).filter a.isOpen

/-- The declarations to be recorded for a package. -/
def entriesOf (a : Arena) (p : NodeId) : List Entry :=
  match (a.children p).head? with
  | some body => a.packageEntries (a.size + 1) (a.node p).text body
  | none => []

theorem textIs_of_declared? (h : a.declared? name n = some x) : a.textIs x name = true := by
  rw [declared?] at h
  split at h
  · exact (Bool.and_eq_true _ _ ▸ List.find?_some h).2
  · split at h
    · next htext =>
      cases h
      exact htext
    · cases h
  · split at h
    · next htext =>
      cases h
      exact htext
    · cases h
  · cases h

theorem name_of_textIs (h : a.textIs x name = true) : a.name x = name := by
  rw [textIs, Bool.and_eq_true, decide_eq_true_eq] at h
  rw [Arena.name, if_pos h.1, h.2]

/-! ## Where it stands -/

theorem under_of_mem_children (h : a.Consistent) (hn : n ∈ a.children p) : a.Under n p :=
  (h.mem_children p n).1 hn

theorem inside_of_mem_bodyFrom (h : a.Consistent) {fuel : Nat} (hn : n ∈ a.bodyFrom fuel m) :
    a.Inside n m := by
  induction fuel generalizing m with
  | zero => cases hn
  | succ fuel ih =>
    obtain ⟨c, hc, hn⟩ := List.mem_flatMap.1 hn
    have hunder := under_of_mem_children h hc
    split at hn
    · exact (ih hn).tail hunder
    · rw [List.mem_singleton.1 hn]
      exact .single hunder

theorem inside_of_mem_body (h : a.Consistent) (hn : n ∈ a.body p) : a.Inside n p := by
  obtain ⟨list, hlist, hn⟩ := List.mem_flatMap.1 hn
  exact (inside_of_mem_bodyFrom h hn).tail (under_of_mem_children h (List.mem_of_mem_filter hlist))

theorem inside_of_declared? (h : a.Consistent) (hx : a.declared? name n = some x) :
    a.Inside x n := by
  rw [declared?] at hx
  split at hx
  · exact .single (under_of_mem_children h (List.mem_of_find?_eq_some hx))
  · split at hx
    · cases hx
      exact .refl
    · cases hx
  · split at hx
    · cases hx
      exact .refl
    · cases hx
  · cases hx

/-- What a package offers under a name has that name, stands in it, and is open to all. -/
theorem of_imported? (h : a.Consistent) (hx : a.imported? name p = some x) :
    a.name x = name ∧ a.Inside x p ∧ a.isOpen x = true := by
  obtain ⟨n, hn, hx⟩ := List.exists_of_findSome?_eq_some hx
  obtain ⟨hx, hopen⟩ := Option.filter_eq_some_iff.1 hx
  exact ⟨name_of_textIs (textIs_of_declared? hx),
    (inside_of_declared? h hx).trans (inside_of_mem_body h hn), hopen⟩

/-- A package that is found has the name and stands in the module. -/
theorem of_findPackage (h : a.Consistent) (hp : a.findPackage m name = some p) :
    a.kind p = .package ∧ a.textIs p name = true ∧ a.Inside p m := by
  have hfrom : ∀ fuel list, a.findPackageFrom name fuel list = some p →
      a.kind p = .package ∧ a.textIs p name = true ∧ a.Inside p list := by
    intro fuel
    induction fuel with
    | zero => exact fun list hp => by cases hp
    | succ fuel ih =>
      intro list hp
      obtain ⟨c, hc, hp⟩ := List.exists_of_findSome?_eq_some hp
      have hunder := under_of_mem_children h hc
      split at hp
      · obtain ⟨hk, htext, hinside⟩ := ih c hp
        exact ⟨hk, htext, hinside.tail hunder⟩
      · next hk =>
        split at hp
        · next htext =>
          cases hp
          exact ⟨hk, htext, .single hunder⟩
        · cases hp
      · cases hp
  exact hfrom _ m hp

theorem inside_of_mem_packageEntries (h : a.Consistent) {fuel : Nat} {package : String}
    {e : Entry} (he : e ∈ a.packageEntries fuel package m) : a.Inside e.node m := by
  induction fuel generalizing package m with
  | zero => cases he
  | succ fuel ih =>
    obtain ⟨c, hc, he⟩ := List.mem_flatMap.1 he
    have hunder := under_of_mem_children h hc
    split at he
    · exact (ih he).tail hunder
    · rw [List.mem_singleton.1 he]
      exact .single hunder
    · rw [List.mem_singleton.1 he]
      exact .single hunder
    · obtain ⟨v, hv, rfl⟩ := List.mem_map.1 he
      exact .head (under_of_mem_children h hv) (.single hunder)
    · split at he
      · next body hbody =>
        have hbody := under_of_mem_children h (List.mem_of_head? hbody)
        exact ((ih he).tail hbody).tail hunder
      · cases he
    · cases he

/-- What is to be recorded of a program stands in it. -/
theorem inside_of_mem_entries (h : a.Consistent) {e : Entry} (he : e ∈ a.entries m) :
    a.Inside e.node m := by
  have hfrom : ∀ fuel list, e ∈ a.entriesFrom fuel list → a.Inside e.node list := by
    intro fuel
    induction fuel with
    | zero => exact fun list he => by cases he
    | succ fuel ih =>
      intro list he
      obtain ⟨c, hc, he⟩ := List.mem_flatMap.1 he
      have hunder := under_of_mem_children h hc
      split at he
      · exact (ih c he).tail hunder
      · split at he
        · next body hbody =>
          have hbody := under_of_mem_children h (List.mem_of_head? hbody)
          exact ((inside_of_mem_packageEntries h he).tail hbody).tail hunder
        · cases he
      · cases he
  rw [entries] at he
  split at he
  · exact hfrom _ m he
  · cases he

/-- Around what stands in a list of directives is what is around the list. -/
theorem Forest.findAncestor_of_mem_children (hf : a.Forest) (h : a.Consistent) {ks : List Kind}
    (hks : Kind.directiveList ∉ ks) (hk : a.kind p = .directiveList) (hn : n ∈ a.children p) :
    a.findAncestor n ks = a.findAncestor p ks := by
  rw [findAncestor, findAncestor, hf.ancestors_of_parent h (under_of_mem_children h hn),
    List.find?_cons_of_neg]
  rw [hk, List.contains_iff_mem]
  exact hks

/-- Around what stands in the body of a package is the package. -/
theorem Forest.findAncestor_of_mem_body (hf : a.Forest) (h : a.Consistent) {ks : List Kind}
    (hks : Kind.directiveList ∉ ks) (hk : a.kind p ∈ ks) (hn : n ∈ a.body p) :
    a.findAncestor n ks = some p := by
  have hfrom : ∀ fuel list, a.kind list = .directiveList → n ∈ a.bodyFrom fuel list →
      a.findAncestor n ks = a.findAncestor list ks := by
    intro fuel
    induction fuel with
    | zero => exact fun list _ hn => by cases hn
    | succ fuel ih =>
      intro list hlist hn
      obtain ⟨c, hc, hn⟩ := List.mem_flatMap.1 hn
      have hup := hf.findAncestor_of_mem_children h hks hlist hc
      split at hn
      · next hkc => exact (ih c hkc hn).trans hup
      · rw [List.mem_singleton.1 hn, hup]
  obtain ⟨list, hlist, hn⟩ := List.mem_flatMap.1 hn
  obtain ⟨hmem, hlist⟩ := List.mem_filter.1 hlist
  rw [hfrom _ list (of_decide_eq_true hlist) hn, findAncestor,
    hf.ancestors_of_parent h (under_of_mem_children h hmem), List.find?_cons_of_pos]
  exact List.contains_iff_mem.2 hk

/-! ## What is recorded is offered -/

/-- A package inside another has the longer name. -/
theorem length_le_of_mem_packageEntries {fuel : Nat} {package : String} {e : Entry}
    (he : e ∈ a.packageEntries fuel package m) : package.length ≤ e.package.length := by
  induction fuel generalizing package m with
  | zero => cases he
  | succ fuel ih =>
    obtain ⟨c, hc, he⟩ := List.mem_flatMap.1 he
    split at he
    · exact ih he
    · rw [List.mem_singleton.1 he]
    · rw [List.mem_singleton.1 he]
    · obtain ⟨v, hv, rfl⟩ := List.mem_map.1 he
      exact Nat.le_refl _
    · split at he
      · have hle := ih he
        rw [String.length_append, String.length_append] at hle
        omega
      · cases he
    · cases he

/-- What is recorded under the name of the package itself is declared by one of its directives. -/
theorem exists_mem_bodyFrom_of_mem_packageEntries {fuel : Nat} {e : Entry}
    (he : e ∈ a.packageEntries fuel e.package m) : ∃ n ∈ a.bodyFrom fuel m,
      n = e.node ∧ (a.kind n = .class_ ∨ a.kind n = .function) ∨
        e.node ∈ a.children n ∧ a.kind n = .var := by
  induction fuel generalizing m with
  | zero => cases he
  | succ fuel ih =>
    obtain ⟨c, hc, he⟩ := List.mem_flatMap.1 he
    have hbody : ∀ n ∈ (if a.kind c = .directiveList then a.bodyFrom fuel c else [c]),
        n ∈ a.bodyFrom (fuel + 1) m := fun n hn => List.mem_flatMap.2 ⟨c, hc, hn⟩
    split at he
    · next hk =>
      obtain ⟨n, hn, hnode⟩ := ih he
      rw [if_pos hk] at hbody
      exact ⟨n, hbody n hn, hnode⟩
    · next hk =>
      rw [hk, if_neg (by decide)] at hbody
      rw [List.mem_singleton.1 he]
      exact ⟨c, hbody c List.mem_cons_self, .inl ⟨rfl, .inl hk⟩⟩
    · next hk =>
      rw [hk, if_neg (by decide)] at hbody
      rw [List.mem_singleton.1 he]
      exact ⟨c, hbody c List.mem_cons_self, .inl ⟨rfl, .inr hk⟩⟩
    · next hk =>
      rw [hk, if_neg (by decide)] at hbody
      obtain ⟨v, hv, hve⟩ := List.mem_map.1 he
      have hnode : e.node = v := congrArg Entry.node hve.symm
      exact ⟨c, hbody c List.mem_cons_self, .inr ⟨hnode ▸ hv, hk⟩⟩
    · split at he
      · have hle := length_le_of_mem_packageEntries he
        rw [String.length_append, String.length_append] at hle
        have hdot : ".".length = 1 := rfl
        omega
      · cases he
    · cases he

/-- No other variable of the same name stands before a declaration in its `var`. -/
def ComesFirst (a : Arena) (v : NodeId) : Prop :=
  ∀ n, a.kind n = .var → v ∈ a.children n → Search.findVariable a n (a.name v) = some v

/-- A class or a variable was recorded for a package, and every place sees it there. -/
structure Publishes (a : Arena) (p : NodeId) (e : Entry) : Prop where
  /-- It was recorded for this package. -/
  mem : e ∈ a.entriesOf p
  /-- It is a class or a variable. -/
  kind : a.kind e.node = .class_ ∨ a.kind e.node = .variable_
  /-- No other variable of the name stands before it. -/
  first : a.ComesFirst e.node
  /-- It is open to all. -/
  isOpen : a.isOpen e.node = true

/-- **What is recorded is offered**, by the package for which it was recorded. -/
theorem Publishes.exists_imported? {e : Entry} (he : a.Publishes p e)
    (hlists : ∀ n ∈ a.children p, a.kind n = .directiveList)
    (htext : a.textIs p e.package = true) : ∃ x, a.imported? (a.name e.node) p = some x := by
  obtain ⟨he, hk, hfirst, hopen⟩ := he
  rw [entriesOf] at he
  split at he
  · next body hbody =>
    have hname : (a.node p).text = e.package := by
      rw [textIs, Bool.and_eq_true, decide_eq_true_eq] at htext
      exact htext.2
    rw [hname] at he
    obtain ⟨n, hn, hnode⟩ := exists_mem_bodyFrom_of_mem_packageEntries he
    have hmem := List.mem_of_head? hbody
    have hn : n ∈ a.body p :=
      List.mem_flatMap.2 ⟨body, List.mem_filter.2 ⟨hmem, decide_eq_true (hlists body hmem)⟩, hn⟩
    have hdeclared : a.declared? (a.name e.node) n = some e.node := by
      rw [declared?]
      rcases hnode with ⟨rfl, hkn⟩ | ⟨hchild, hkn⟩
      · rcases hk with hk | hk
        · rw [hk]
          dsimp only
          rw [textIs, Arena.name, hk]
          simp [Kind.hasText]
        · rw [hk] at hkn
          rcases hkn with hkn | hkn <;> cases hkn
      · rw [hkn]
        exact hfirst n hkn hchild
    refine Option.isSome_iff_exists.1 (List.findSome?_isSome_iff.2 ⟨n, hn, ?_⟩)
    rw [hdeclared, Option.filter_some, if_pos hopen]
    rfl
  · cases he

end Arena

end SymbolTree
