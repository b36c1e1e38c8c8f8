import SymbolTree.Proofs.Search.Lexical.Resolution

/-!
# A type is linked once

Linking the name of a type tries each name once, and the mark by which it knows that a name was
tried (`Flag.identifierTyped`) is the one that a search for the name leaves when it meets a class.
So a name that was resolved before is taken for one that was tried, and its class is never linked.

Here this is told for plain programs, in which the class that a name stands for is selected by
lexical scoping.

## Main statement

* `Search.linkType_after_resolveName` — run directly, linking records the class that is selected;
  after the name was resolved it records none, and the members of the class are not found.
-/

set_option autoImplicit false
namespace SymbolTree

/-! ## What marks leave alone -/

namespace Arena

variable {a b : Arena}

/-- What a node declares is a variable, a parameter, a function or a class. -/
theorem kind_of_declared {name : String} {n m : NodeId} (h : a.declared name n = some m) :
    a.kind m = .variable_ ∨ a.kind m = .param ∨ a.kind m = .function ∨ a.kind m = .class_ := by
  have hself : ∀ {k : Kind}, a.kind n = k → (if a.textIs n name then some n else none) = some m →
      a.kind m = k := by
    intro k hk hm
    split at hm
    · cases hm
      exact hk
    · cases hm
  rw [declared] at h
  split at h
  · have hv := List.find?_some h
    rw [Bool.and_eq_true, decide_eq_true_eq] at hv
    exact .inl hv.1
  · next hk => exact .inr (.inl (hself hk h))
  · next hk => exact .inr (.inr (.inl (hself hk h)))
  · next hk => exact .inr (.inr (.inr (hself hk h)))
  · cases h

theorem inst_setLink {n : NodeId} (hn : a.kind n ≠ .unknown) (t : Option NodeId) :
    (a.setLink n .inst t).inst n = a.live t := by
  have halike : a.Alike (a.setLink n .inst t) :=
    .update fun _ => ⟨rfl, rfl, rfl, rfl, rfl, rfl, rfl⟩
  rw [inst, link, halike.live, setLink, node_update, if_pos ⟨rfl, lt_size_of_kind_ne hn⟩]
  rfl

theorem Alike.declared (h : a.Alike b) : b.declared = a.declared := by
  funext s n
  rw [Arena.declared, Arena.declared, h.kind, h.children, h.textIs]

theorem Alike.shown (h : a.Alike b) : b.shown = a.shown := by
  funext s n
  rw [Arena.shown, Arena.shown, findFirstChild, findFirstChild, h.kind, h.children]

end Arena

namespace Context

variable {c e : Context}

/-- What scoping selects is something that a node declares. -/
theorem Selects.kind {name : String} {n m : NodeId} (h : c.Selects name n (some m)) :
    c.arena.kind m = .variable_ ∨ c.arena.kind m = .param ∨ c.arena.kind m = .function ∨
      c.arena.kind m = .class_ := by
  generalize hr : some m = r at h
  induction h with
  | parameters _ _ _ ih => exact ih hr
  | inner _ _ _ h =>
    cases hr
    obtain ⟨n, -, hn⟩ := List.exists_of_findSome?_eq_some h
    exact Arena.kind_of_declared hn
  | outer _ _ _ _ _ ih => exact ih hr
  | general =>
    obtain ⟨n, -, hn⟩ := List.exists_of_findSome?_eq_some hr.symm
    exact Arena.kind_of_declared hn

namespace Marked

theorem trans {e' : Context} (h : c.Marked e) (h' : e.Marked e') : c.Marked e' := by
  refine ⟨?_, h'.consistent, fun n => (h.node n).trans (h'.node n)⟩
  have heq := h'.eq
  rw [h.eq] at heq
  exact heq

theorem general (h : c.Marked e) : e.general = c.general := by
  have hshown : e.shownBy = c.shownBy := by
    funext m
    rw [shownBy, shownBy, h.alike.children]
  rw [Context.general, Context.general, hshown, h.eq]

/-- Marks do not matter for what scoping selects. -/
theorem selects (h : c.Marked e) {name : String} {n : NodeId} {r : Option NodeId}
    (hr : e.Selects name n r) : c.Selects name n r := by
  induction hr with
  | parameters hn hp _ ih =>
    rw [h.alike.kind] at hn
    rw [h.alike.parent] at hp
    exact .parameters hn hp ih
  | inner hn hp hk hm =>
    rw [h.alike.kind] at hn hk
    rw [h.alike.parent] at hp
    rw [h.alike.shown, h.alike.declared] at hm
    exact .inner hn hp hk hm
  | outer hn hp hk hm _ ih =>
    rw [h.alike.kind] at hn hk
    rw [h.alike.parent] at hp
    rw [h.alike.shown, h.alike.declared] at hm
    exact .outer hn hp hk hm ih
  | general hn hp hk =>
    rw [h.alike.kind] at hn hk
    rw [h.alike.parent] at hp
    rw [h.general, h.alike.declared]
    exact .general hn hp hk

end Marked

end Context

/-! ## One attempt -/

namespace Search

variable {c d : Context} {root ty : NodeId} {r : Option NodeId}

/-- The one attempt to link the name of a type was made. -/
abbrev Tried (c : Context) (ty : NodeId) : Prop :=
  (c.arena.node ty).flags.contains .identifierTyped = true

/-- A name that was tried is left as it is, whatever the searches around it do. -/
theorem yields_linkType_tried (call : Call) (h : Tried c ty) :
    Yields (· = c) (linkType call ty) fun _ d => d = c := by
  refine Yields.arena_bind fun e he => ?_
  subst he
  split
  · exact Yields.pure fun _ hd => hd
  · refine Yields.bind (Q := fun b d => d = e ∧ b = true) (Yields.ask fun d b hd hb => ⟨hd, ?_⟩)
      fun b => Ensures.at fun d hd => ?_
    · obtain ⟨_, -, hb⟩ := bind_eq_ok_iff.1 hb
      rw [← Except.ok.inj hb, hd]
      exact h
    · rw [hd.1, hd.2]
      exact Yields.pure fun _ hd => hd

/-- No member is found of a parameter whose type was tried and is not linked. -/
theorem yields_resolveField_tried (call : Call) (h : Tried c ty) (hinst : c.arena.inst ty = none)
    {p : NodeId} (hp : c.arena.kind p = .param)
    (hty : (c.arena.children p).find?
      (fun n => c.arena.kind n ≠ .set && c.arena.kind n ≠ .varAttributes) = some ty)
    (field : NodeId) (params : Option NodeId) (mode : SearchMode) :
    Yields (· = c) (resolveField call p field params mode) fun r _ => r = none := by
  have hclass : Yields (· = c) (classOfObject call p) fun r _ => r = none := by
    refine Yields.arena_bind fun _ hd => ?_
    subst hd
    rw [hp]
    dsimp only
    rw [hty]
    refine (yields_linkType_tried call h).bind_at fun _ d hd => ?_
    subst hd
    exact Yields.arena_bind fun _ hd => Yields.pure fun _ _ => hd ▸ hinst
  refine hclass.bind fun r => Ensures.at fun d hd => ?_
  subst hd
  exact Yields.pure fun _ _ => rfl

/-! ## Plain programs -/

theorem inst_eq_of_marked {e : Context} (h : c.Marked e) : e.arena.inst = c.arena.inst := by
  funext n
  rw [Arena.inst, Arena.inst, Arena.link, Arena.link, h.alike.live]
  exact congrArg c.arena.live (h.node n).inst

theorem typeNode_eq_of_marked {e : Context} (h : c.Marked e) (hk : c.arena.kind ty ≠ .class_) :
    e.arena.typeNode ty = c.arena.typeNode ty := by
  rw [Arena.typeNode, Arena.typeNode, Arena.link, Arena.link, h.alike.live]
  exact congrArg c.arena.live ((h.node ty).typeNode hk)

/-- The class that is recorded for a declaration, if it is one. -/
def Recorded (c : Context) (r : Option NodeId) : Option NodeId :=
  c.arena.live (r.filter fun m => (c.arena.kind m).isClass)

/-- A message links nothing. -/
theorem yields_error_unlinked {e : Context} (he : c.Marked e) (hinst : c.arena.inst ty = none)
    (code : Code) (text : String) :
    Yields (fun d => ∃ e', e.Marked e' ∧ Idle e' root d) (error code ty text)
      fun _ d => d.arena.inst ty = none := by
  refine Yields.modify fun d hd => ?_
  obtain ⟨e', he', hd⟩ := hd
  rw [hd.same.inst, inst_eq_of_marked (he.trans he'), hinst]

/-- A name that was resolved is linked to a class, and to nothing else. -/
theorem yields_recordClass {e : Context} (he : c.Marked e) (hk : c.arena.kind ty = .identifier)
    (hinst : c.arena.inst ty = none) {m : NodeId} (hm : c.arena.kind m ≠ .function)
    (text : String) :
    Yields (Met e root ty m) (do
      if ((← arena).kind m).isClass then write fun a => a.setLink ty .inst (some m)
      else error .invalidExpression ty text) fun _ d => d.arena.inst ty = Recorded c (some m) := by
  refine Yields.arena_bind fun d hd => ?_
  rw [← he.alike.kind] at hm
  obtain ⟨e', he', hidle, -⟩ := hd hm
  have halike := (he.trans he').alike.trans hidle.same.alike
  rw [halike.kind]
  split
  · next hclass =>
    refine Yields.modify fun d' hd' => ?_
    subst hd'
    rw [Arena.inst_setLink (by rw [halike.kind, hk]; decide), halike.live, Recorded,
      Option.filter_some, if_pos hclass]
  · next hclass =>
    rw [Recorded, Option.filter_some, if_neg hclass]
    exact (yields_error_unlinked he hinst _ _).start ⟨e', he', hidle⟩

/-- Linking a name records what scoping selects for it if that is a class, unless an attempt was
made before. -/
theorem yields_linkType (h : c.PlainProgram root) {e : Context} (he : c.Marked e)
    (hty : c.arena.Within root ty) (hk : c.arena.kind ty = .identifier)
    (hinst : c.arena.inst ty = none) (htype : c.arena.typeNode ty = none)
    (hr : c.Selects (c.arena.name ty) ty r)
    (hfunction : ∀ m, r = some m → c.arena.kind m ≠ .function) (fuel : Nat) :
    Yields (Idle e root) (linkType (answer fuel) ty) fun _ d =>
      d.arena.inst ty = if Tried e ty then none else Recorded c r := by
  have hflags : ∀ {d : Context}, Idle e root d →
      (d.arena.node ty).flags = (e.arena.node ty).flags :=
    fun hd => by rw [Arena.node, hd.same.nodes]; rfl
  have hnone : ∀ {d : Context}, Idle e root d → d.arena.inst ty = none := fun hd => by
    rw [hd.same.inst, inst_eq_of_marked he, hinst]
  by_cases htried : Tried e ty
  · rw [if_pos htried]
    refine Ensures.at fun d hd => ?_
    exact (yields_linkType_tried _ (by rw [Tried, hflags hd]; exact htried)).mono (fun _ h => h)
      fun _ _ hd' => hd' ▸ hnone hd
  rw [if_neg htried]
  refine Yields.arena_bind fun d hd => ?_
  have hkind : d.arena.kind ty = .identifier := by
    rw [hd.same.alike.kind, he.alike.kind, hk]
  rw [hnone hd, hkind, if_neg (by simp)]
  refine Yields.bind (Q := fun b e => e = d ∧ b = false) (Yields.ask fun d' b hd' hb => ⟨hd', ?_⟩)
    fun b => Ensures.at fun d' hd' => ?_
  · obtain ⟨_, -, hb⟩ := bind_eq_ok_iff.1 hb
    rw [← Except.ok.inj hb, hd', hflags hd]
    exact Bool.eq_false_iff.2 htried
  rw [hd'.1, hd'.2]
  -- the attempt is marked first, so that the search starts from a context with one more mark
  have hg := Node.Marked.setFlag (f := .identifierTyped) (by decide) true (e.arena.node ty)
  have hmarks : Yields (· = d) (change fun a => a.setFlag ty .identifierTyped true)
      fun _ d => ∃ e', c.Marked e' ∧ Idle e' root d := by
    refine Yields.change fun d' b hd' hb => ?_
    obtain ⟨-, -, rfl⟩ := Arena.setFlag_eq_ok_iff.1 hb
    subst hd'
    exact ⟨_, he.update hg, hd.update (he.plainProgram h) hg⟩
  refine hmarks.bind_at fun _ d' hd' => ?_
  obtain ⟨e', hmarked, hidle⟩ := hd'
  cases fuel with
  | zero => exact Yields.bind (Q := fun _ _ => False) Yields.throw fun _ _ hf => hf.elim
  | succ fuel =>
    have hwithin : e'.arena.Within root ty := by
      rw [hmarked.within]
      exact hty
    have hresolve := yields_resolveName {} fuel (hmarked.plainProgram h) hwithin
      (by rw [hmarked.alike.kind]; exact hk)
      (by rw [typeNode_eq_of_marked hmarked (by rw [hk]; decide)]; exact htype)
    refine (hresolve.start hidle).bind_at fun r' d' hd' => ?_
    have hselects := hmarked.selects hd'.1
    rw [hmarked.alike.name] at hselects
    obtain rfl := hselects.unique hr
    cases r' with
    | none => exact (yields_error_unlinked hmarked hinst _ _).start hd'.2
    | some m => exact (yields_recordClass hmarked hk hinst (hfunction m rfl) _).start hd'.2

/-- What the search for a name leaves, unless a function is found: marks, one of which tells that
the name is taken for one that was tried if a class is found. -/
theorem Aftermath.marked (h : Aftermath c root ty r d)
    (hfunction : ∀ m, r = some m → c.arena.kind m ≠ .function) :
    ∃ e, c.Marked e ∧ Idle e root d ∧ ∀ m, r = some m → c.arena.kind m = .class_ → Tried e ty := by
  cases r with
  | none =>
    obtain ⟨e, he, hd⟩ := h
    exact ⟨e, he, hd, nofun⟩
  | some m =>
    obtain ⟨e, he, hd, htried⟩ := h (hfunction m rfl)
    refine ⟨e, he, hd, ?_⟩
    rintro _ ⟨⟩
    exact htried

/-- What is recorded is a class that scoping selects. -/
theorem exists_class_of_recorded {name : String} {n : NodeId} (hr : c.Selects name n r)
    (h : Recorded c r ≠ none) : ∃ m, r = some m ∧ c.arena.kind m = .class_ := by
  cases r with
  | none => exact absurd rfl h
  | some m =>
    have hm : (c.arena.kind m).isClass = true := by
      by_contra hm
      rw [Recorded, Option.filter_some, if_neg hm] at h
      exact h rfl
    rcases hr.kind with hk | hk | hk | hk
    · rw [hk] at hm; cases hm
    · rw [hk] at hm; cases hm
    · rw [hk] at hm; cases hm
    · exact ⟨m, rfl, hk⟩

/-- **Linking a type after its name was resolved.**  Run directly, linking the name of a type
records the class that scoping selects.  After the search for the name it records nothing, so that
the two runs agree exactly if the name stands for no class; and if it does, no member is found of a
parameter of that type any more. -/
theorem linkType_after_resolveName (c : Context) (root ty : NodeId) (h : c.PlainProgram root)
    (hty : c.arena.Within root ty) (hk : c.arena.kind ty = .identifier)
    (hinst : c.arena.inst ty = none) (htype : c.arena.typeNode ty = none) (htried : ¬ Tried c ty)
    {r : Option NodeId} (hr : c.Selects (c.arena.name ty) ty r)
    (hfunction : ∀ m, r = some m → c.arena.kind m ≠ .function)
    {d e e' : Context} {x : Option NodeId} (hdirect : (run (linkType · ty)).exec c = (.ok (), d))
    (hresolve : (run (resolveName · ty ty none {})).exec c = (.ok x, e))
    (hlink : (run (linkType · ty)).exec e = (.ok (), e')) :
    d.arena.inst ty = Recorded c r ∧ e'.arena.inst ty = none ∧
      (Recorded c r ≠ none → ∀ p field mode y f, c.arena.kind p = .param →
        (c.arena.children p).find?
          (fun n => c.arena.kind n ≠ .set && c.arena.kind n ≠ .varAttributes) = some ty →
        (run (resolveField · p field none mode)).exec e' = (.ok y, f) → y = none) := by
  rw [exec_run] at hdirect hresolve hlink
  have hdirect' := (yields_linkType h (.refl h.consistent) hty hk hinst htype hr hfunction
    (fuel c)).of_ok (Idle.refl h) hdirect
  rw [if_neg htried] at hdirect'
  obtain ⟨hx, hconcludes⟩ := (yields_resolveName {} (fuel c) h hty hk htype).of_ok (Idle.refl h)
    hresolve
  obtain rfl := hx.unique hr
  obtain ⟨e₀, hmarked, hidle, hclass⟩ := hconcludes.marked hfunction
  have hafter := (yields_linkType h hmarked hty hk hinst htype hr hfunction (fuel e)).of_ok hidle
    hlink
  have htried' : Recorded c x ≠ none → Tried e₀ ty := fun hrecorded => by
    obtain ⟨m, hm, hkm⟩ := exists_class_of_recorded hr hrecorded
    exact hclass m hm hkm
  have hnone : e'.arena.inst ty = none := by
    rw [hafter]
    split
    · rfl
    · next hnot => exact of_not_not fun hne => hnot (htried' hne)
  refine ⟨hdirect', hnone, fun hrecorded p field mode y f hp hfind hfield => ?_⟩
  have htriedE : Tried e ty := by
    rw [Tried, Arena.node, hidle.same.nodes]
    exact htried' hrecorded
  obtain rfl : e' = e := (yields_linkType_tried _ htriedE).of_ok rfl hlink
  have halike := hmarked.alike.trans hidle.same.alike
  rw [exec_run] at hfield
  refine (yields_resolveField_tried _ htriedE hnone ?_ ?_ field none mode).of_ok rfl hfield
  · rw [halike.kind]
    exact hp
  · rw [halike.kind, halike.children]
    exact hfind

/-! ### A parameter of a class -/

/-- A program with a function that has a parameter `a` of type `T`.  Beside it there is a module
that declares a class `T` with a variable `x`, and a detached name `x`. -/
def typeHistory : List Command :=
  [.create .program {}, .create .directiveList {}, .create .function {}, .create .parameters {},
   .create .param {}, .create .identifier {}, .create .program {}, .create .directiveList {},
   .create .class_ {}, .create .directiveList {}, .create .var {}, .create .variable_ {},
   .create .identifier {},
   .setText ⟨2⟩ "f", .setText ⟨4⟩ "a", .setText ⟨5⟩ "T", .setText ⟨8⟩ "T", .setText ⟨11⟩ "x",
   .setText ⟨12⟩ "x",
   .appendChild ⟨0⟩ ⟨1⟩, .appendChild ⟨1⟩ ⟨2⟩, .appendChild ⟨2⟩ ⟨3⟩, .appendChild ⟨3⟩ ⟨4⟩,
   .appendChild ⟨4⟩ ⟨5⟩, .appendChild ⟨6⟩ ⟨7⟩, .appendChild ⟨7⟩ ⟨8⟩, .appendChild ⟨8⟩ ⟨9⟩,
   .appendChild ⟨9⟩ ⟨10⟩, .appendChild ⟨10⟩ ⟨11⟩]

/-- The context of that program. -/
def typeContext : Context :=
  { arena := after typeHistory, parser := fun _ => .rejected, nativeImport := some ⟨6⟩ }

/-- What the search for the name of the type leaves. -/
def typeResolved : Context := ((run (resolveName · ⟨5⟩ ⟨5⟩ none {})).exec typeContext).2

theorem consistent_typeContext : typeContext.arena.Consistent :=
  .of_history typeHistory (by rw [typeContext])

theorem plainProgram_typeContext : typeContext.PlainProgram ⟨0⟩ := by
  have hnodes := Arena.forall_node (a := typeContext.arena) (P := fun d =>
      d.kind.isPlain = true ∧ d.attributes = AttributeSet.empty ∧ d.attributeNode = none ∧
      d.flags.contains .functionGetter = false ∧ d.flags.contains .functionSetter = false)
    (by decide +kernel) (by decide)
  have hplaces := Arena.forall_node (a := typeContext.arena) (P := fun d =>
      (d.kind = .parameters → d.parent = some ⟨2⟩) ∧ (d.kind = .class_ → d.parent = some ⟨7⟩))
    (by decide +kernel) (by decide)
  have hprovides : ∀ r, typeContext.Provides r → r = ⟨6⟩ := by
    intro r hr
    simpa [Context.Provides, typeContext] using hr
  have hparameters : ∀ n p, typeContext.arena.kind n = .parameters →
      typeContext.arena.parent n = some p → typeContext.arena.kind p = .function := by
    intro n p hk hp
    cases ((hplaces n).1 hk).symm.trans hp
    decide +kernel
  -- the class stands in the module, from which no way leads up to the program
  have hup : ∀ {n p}, n ≠ ⟨0⟩ → typeContext.arena.parent n = some p →
      typeContext.arena.Within ⟨0⟩ n → typeContext.arena.Within ⟨0⟩ p := by
    intro n p hne hp hn
    rcases Relation.ReflTransGen.cases_head hn with rfl | ⟨q, hq, hqr⟩
    · exact absurd rfl hne
    · cases hp.symm.trans hq.1
      exact hqr
  refine ⟨consistent_typeContext, fun r hr => .of_nodes hnodes hparameters ?_,
    fun n hn hclass => ?_, fun r list hr hlist => ?_, fun _ _ _ h => by cases h⟩
  · rcases hr with rfl | hr
    · decide +kernel
    · rw [hprovides r hr]
      decide +kernel
  · have hne : n ≠ ⟨0⟩ := by
      rintro rfl
      exact absurd hclass (by decide +kernel)
    have hmodule := hup (p := ⟨6⟩) (by decide) (by decide +kernel)
      (hup hne ((hplaces n).2 hclass) hn)
    rcases Relation.ReflTransGen.cases_head hmodule with hroot | ⟨q, hq, -⟩
    · cases hroot
    · rw [show typeContext.arena.parent ⟨6⟩ = none by decide +kernel] at hq
      cases hq.1
  · rw [hprovides r hr] at hlist
    cases (show (typeContext.arena.children ⟨6⟩).head? = some ⟨7⟩ by decide +kernel).symm.trans
      hlist
    decide +kernel

theorem within_typeContext : typeContext.arena.Within ⟨0⟩ ⟨5⟩ := by
  refine .head (b := ⟨4⟩) (by decide +kernel) (.head (b := ⟨3⟩) (by decide +kernel) ?_)
  refine .head (b := ⟨2⟩) (by decide +kernel) (.head (b := ⟨1⟩) (by decide +kernel) ?_)
  exact .head (b := ⟨0⟩) (by decide +kernel) .refl

/-- The name of the type was not tried yet; the node for which it stands is a class. -/
theorem name_typeContext : typeContext.arena.kind ⟨5⟩ = .identifier ∧
    typeContext.arena.inst ⟨5⟩ = none ∧ typeContext.arena.typeNode ⟨5⟩ = none ∧
    ¬ Tried typeContext ⟨5⟩ ∧ typeContext.arena.kind ⟨8⟩ = .class_ ∧
    Recorded typeContext (some ⟨8⟩) = some ⟨8⟩ := by
  decide +kernel

/-- The name is linked at once, it is resolved, and it is linked after that. -/
theorem runs_typeContext :
    (run (linkType · ⟨5⟩)).exec typeContext =
      (.ok (), ((run (linkType · ⟨5⟩)).exec typeContext).2) ∧
    (run (resolveName · ⟨5⟩ ⟨5⟩ none {})).exec typeContext = (.ok (some ⟨8⟩), typeResolved) ∧
    (run (linkType · ⟨5⟩)).exec typeResolved =
      (.ok (), ((run (linkType · ⟨5⟩)).exec typeResolved).2) ∧
    ((run (linkType · ⟨5⟩)).exec typeContext).2.arena.inst ⟨5⟩ ≠
      ((run (linkType · ⟨5⟩)).exec typeResolved).2.arena.inst ⟨5⟩ :=
  ⟨exec_of_toOption (by decide +kernel), exec_of_toOption (by decide +kernel),
    exec_of_toOption (by decide +kernel), by decide +kernel⟩

/-- The class is recorded by the one run and not by the other. -/
theorem linkType_after_resolveName_class : typeContext.PlainProgram ⟨0⟩ ∧
    ((run (linkType · ⟨5⟩)).exec typeContext).2.arena.inst ⟨5⟩ = some ⟨8⟩ ∧
    ((run (linkType · ⟨5⟩)).exec typeResolved).2.arena.inst ⟨5⟩ = none := by
  obtain ⟨hk, hinst, htype, htried, hclass, hrecorded⟩ := name_typeContext
  obtain ⟨hdirect, hresolve, hlink, -⟩ := runs_typeContext
  have hrun := hresolve
  rw [exec_run] at hrun
  have hselects := ((yields_resolveName {} (fuel typeContext) plainProgram_typeContext
    within_typeContext hk htype).of_ok (Idle.refl plainProgram_typeContext) hrun).1
  have hinsts := linkType_after_resolveName typeContext ⟨0⟩ ⟨5⟩ plainProgram_typeContext
    within_typeContext hk hinst htype htried hselects
    (by rintro _ ⟨⟩; rw [hclass]; decide) hdirect hresolve hlink
  rw [hrecorded] at hinsts
  exact ⟨plainProgram_typeContext, hinsts.1, hinsts.2.1⟩

/-- Whether the name of a type was resolved before matters for what it is linked to. -/
theorem linkType_depends_on_lookup : ¬ ∀ (c d e e' : Context) (ty : NodeId) (x : Option NodeId),
    c.arena.kind ty = .identifier → c.arena.inst ty = none → c.arena.typeNode ty = none →
    ¬ Tried c ty → (run (linkType · ty)).exec c = (.ok (), d) →
    (run (resolveName · ty ty none {})).exec c = (.ok x, e) →
    (run (linkType · ty)).exec e = (.ok (), e') → d.arena.inst ty = e'.arena.inst ty := by
  intro h
  obtain ⟨hk, hinst, htype, htried, -⟩ := name_typeContext
  obtain ⟨hdirect, hresolve, hlink, hne⟩ := runs_typeContext
  exact hne (h _ _ _ _ ⟨5⟩ _ hk hinst htype htried hdirect hresolve hlink)

end Search
end SymbolTree
