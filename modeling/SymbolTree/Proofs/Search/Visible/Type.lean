import SymbolTree.Proofs.Search.Visible.Permission

/-!
# Attributes and classes in a search without arguments

What the searches on attributes, classes and types answer when no arguments are at hand, in the
order in which they are defined.  They rely on what the requests that they make answer
(`Search.VisibleCalls`).

## Main statements

* `Search.retaining_isDerivedFrom` — a class that is said to inherit from another one does.
* `Search.retaining_rejection` — a declaration that is not rejected may be seen.
-/

set_option autoImplicit false
namespace SymbolTree

/-- What a search has found so far may be seen. -/
def Tally.Holds (t : Tally) (c : Context) (field : NodeId) : Prop :=
  ∀ n, t.found = some n → Search.Found c field n

namespace Search

/-- Requests without arguments retain what was found out, and what they answer may be relied on:
declarations that are found may be seen, attributes that are worked out are remembered, and a class
that is said to inherit from another one does. -/
structure VisibleCalls (call : Call) : Prop where
  /-- Every request runs a course. -/
  faithful : Faithful call
  /-- A name is resolved to a node that is there. -/
  resolveName : ∀ c list id mode, Retaining c (call (.resolveName list id none mode)) fun o d =>
    ∀ n, o = some n → n.index < d.arena.size
  /-- The attributes of a node are remembered. -/
  effectiveAttributes : ∀ c n, n.index < c.arena.size →
    Retaining c (call (.effectiveAttributes n)) fun s d => d.attributeCache.lookup n = some s
  /-- A class that is said to inherit from another one does. -/
  isDerivedFrom : ∀ c derived base, Retaining c (call (.isDerivedFrom derived base)) fun b d =>
    b = true → d.arena.DerivedFrom derived base
  /-- A member that was found may be seen. -/
  findMember : ∀ c link field t mode, t.Holds c field →
    Retaining c (call (.findMember link field t none mode)) fun r d => r.2.Holds d field
  /-- A declaration that was found in a list may be seen. -/
  findInList : ∀ c list field t mode, t.Holds c field →
    Retaining c (call (.findInList list field t none mode)) fun r d => r.2.Holds d field

variable {call : Call} {c d : Context}

/-! ## Attributes -/

/-- What is answered about an attribute agrees with what is remembered. -/
theorem retaining_hasAttribute (hcall : VisibleCalls call) {n : NodeId}
    (hn : n.index < c.arena.size)
    (t : Attribute) : Retaining c (hasAttribute call n t) fun b d =>
      ∃ s, d.attributeCache.lookup n = some s ∧ b = s.contains t :=
  (hcall.effectiveAttributes c n hn).bind fun s _ _ hs => .pure ⟨s, hs, rfl⟩

/-! ## Classes -/

theorem retaining_isConstructor (hcall : VisibleCalls call) {f : NodeId}
    (hf : f.index < c.arena.size) :
    Retaining c (isConstructor call f) fun o d => ∀ x, o = some x → x.index < d.arena.size := by
  refine .of_start fun hc => .arena_bind ?_
  extract_lets around none_ class_
  have haround : ∀ x, around = some x → x.index < c.arena.size := fun x hx =>
    Arena.lt_size_of_findAncestor hc.consistent (Option.filter_eq_some_iff.1 hx).1
  have hclass : Retaining c (class_ ()) fun o d => ∀ x, o = some x → x.index < d.arena.size := by
    dsimp only [class_, none_]
    clear_value around
    cases around with
    | none =>
      refine (retaining_hasAttribute hcall hf _).bind fun b d _ _ => ?_
      split
      · exact (Proceeds.error ..).bind fun _ _ _ _ => .pure nofun
      · exact .pure nofun
    | some x =>
      have hx := haround x rfl
      dsimp only
      split
      · exact .pure fun y hy => by cases hy; exact hx
      · refine (retaining_hasAttribute hcall hf _).bind fun b d hd _ => ?_
        split
        · exact .pure fun y hy => by cases hy; exact hd.lt hx
        · exact .pure nofun
  split
  · exact .internal_bind
  · exact hclass

/-- The link may have been set by another search in between, but it was not set before. -/
theorem retaining_linkType (hcall : VisibleCalls call) (ty : NodeId) :
    Retaining c (linkType call ty) fun _ _ => True := by
  have hto : ∀ {α : Type} {p : Search α} {φ : α → Context → Prop}, (∀ d, Retaining d p φ) →
      Yields (StaysRight c) p fun _ => StaysRight c := fun h =>
    Yields.of_exec fun d x e hd hr => hd.trans (((h d).yields hd.after).of_ok rfl hr).1.toStaysRight
  have hright : Yields (StaysRight c) (linkType call ty) fun _ => StaysRight c := by
    refine Yields.arena_bind fun d hd => ?_
    split
    · exact Yields.pure fun _ he => he ▸ hd
    · refine ((hto fun _ => Retaining.ask).start hd).bind fun b => ?_
      split
      · exact Yields.pure fun _ he => he
      · refine (hto fun _ => Retaining.setFlag ty _).bind fun _ => ?_
        refine (hto fun e => hcall.resolveName e ty ty {}).bind fun o => ?_
        cases o with
        | none => exact hto fun _ => .error ..
        | some object =>
          refine Yields.arena_bind fun e he => ?_
          split
          · exact Yields.modify fun e' he' => by
              subst he'
              exact he.trans (.setLink he.after ty (.inl rfl) _)
          · exact (hto fun _ => .error ..).start he
  refine ⟨fun hc => Yields.of_exec fun e x d he hr => ?_⟩
  subst he
  have hcourse : Course none e d := (follows_linkType hcall.faithful ty).of_ok hc.consistent hr
  exact ⟨.of_course hcourse (hright.of_ok (.refl hc) hr), trivial⟩

/-- What is answered is the link that was set, now or before. -/
theorem retaining_linkedClass (hcall : VisibleCalls call) (ty : NodeId) :
    Retaining c (linkedClass call ty) fun o d => o = d.arena.inst ty :=
  (retaining_linkType hcall ty).bind fun _ _ _ _ => .arena_bind (.pure rfl)

/-- One of the names leads to the base if the answer is yes. -/
theorem retaining_anyDerivedFrom (hcall : VisibleCalls call) (base : NodeId) (names : List NodeId) :
    Retaining c (anyDerivedFrom call base names) fun b d => b = true →
      ∃ name ∈ names, ∃ y, d.arena.inst name = some y ∧ d.arena.DerivedFrom y base := by
  induction names generalizing c with
  | nil => exact .pure nofun
  | cons name names ih =>
    have hrest : ∀ d, Retaining d (anyDerivedFrom call base names) fun b d => b = true →
        ∃ m ∈ name :: names, ∃ y, d.arena.inst m = some y ∧ d.arena.DerivedFrom y base := by
      refine fun d => ih.mono fun b e _ h hb => ?_
      obtain ⟨m, hm, hy⟩ := h hb
      exact ⟨m, List.mem_cons_of_mem name hm, hy⟩
    refine (retaining_linkedClass hcall name).bind fun o d _ hinst => ?_
    cases o with
    | none => exact hrest d
    | some y =>
      refine (hcall.isDerivedFrom d y base).bind fun b e he hb => ?_
      cases b with
      | false => exact hrest e
      | true =>
        exact .pure fun _ => ⟨name, List.mem_cons_self, y, he.inst name y hinst.symm, hb rfl⟩

/-- To derive is a chain of links that were set on the way, and links stay. -/
theorem retaining_isDerivedFrom (hcall : VisibleCalls call) (derived base : NodeId) :
    Retaining c (isDerivedFrom call derived base) fun b d =>
      b = true → d.arena.DerivedFrom derived base := by
  rw [isDerivedFrom]
  split
  · next heq => exact .pure fun _ => heq ▸ .refl
  · refine .arena_bind ((retaining_anyDerivedFrom hcall base _).mono fun b d hd h hb => ?_)
    obtain ⟨name, hname, y, hinst, hy⟩ := h hb
    exact .head ⟨name, hd.mem_superNames hname, hinst⟩ hy

/-- The class around the name derives from the one that owns the member. -/
theorem retaining_isMemberDerivedFrom (hcall : VisibleCalls call) (id n : NodeId) :
    Retaining c (isMemberDerivedFrom call id n) fun r d =>
      r.1 = true → d.arena.SeesProtected id n := by
  refine .of_start fun hc => .arena_bind ?_
  dsimp only
  split
  · next base x howner hx =>
    obtain ⟨ho, hk⟩ := Option.filter_eq_some_iff.1 howner
    refine (hcall.isDerivedFrom c x base).bind fun b d hd hb => .pure fun h => ?_
    refine ⟨base, x, hd.grows.memberOwner hc.consistent ho, ?_,
      hd.grows.classOfMember hc.consistent hx, hb h⟩
    rw [hd.grows.kind (Arena.lt_size_of_memberOwner hc.consistent ho)]
    exact hk
  · exact .pure nofun

/-! ## Visibility -/

/-- What is not rejected is in the same class or package as the name. -/
theorem privateRejection_eq_none {a : Arena} {id n : NodeId} (h : privateRejection a id n = none) :
    a.SeesPrivate id n := by
  rw [privateRejection] at h
  split at h
  · cases h
  · next o ho =>
    refine ⟨o, ho, ?_⟩
    split at h
    · next hk =>
      split at h
      · next hid => exact .inr ⟨hk, hid⟩
      · cases h
    · split at h
      · next hk =>
        split at h
        · next hid => exact .inl ⟨hk, hid⟩
        · cases h
      · cases h

/-- What is not rejected is owned by a class that the name derives from. -/
theorem retaining_protectedRejection (hcall : VisibleCalls call) (id n : NodeId) :
    Retaining c (protectedRejection call id n) fun o d =>
      o = none → d.arena.SeesProtected id n := by
  refine (retaining_isMemberDerivedFrom hcall id n).bind fun r d _ hr => ?_
  obtain ⟨derived, owner⟩ := r
  dsimp only
  split
  · next hderived => exact .pure fun _ => hr hderived
  · refine .arena_bind ?_
    split <;> exact .pure nofun

/-- The rules are checked one after the other, on the same attributes. -/
theorem retaining_rejection (hcall : VisibleCalls call) (id : NodeId) {n : NodeId}
    (hn : n.index < c.arena.size) :
    Retaining c (rejection call id n) fun o d => o = none → Seen d id n := by
  refine (retaining_hasAttribute hcall hn _).bind fun b d hd hb => ?_
  obtain ⟨s, hs, rfl⟩ := hb
  have hagain : ∀ (t : Attribute) {e : Context}, Retains d e →
      Retaining e (hasAttribute call n t) fun b f => Retains d f ∧ b = s.contains t := by
    refine fun t e he => (retaining_hasAttribute hcall (he.lt (hd.lt hn)) t).mono
      fun b f hf hb => ?_
    obtain ⟨s', hs', rfl⟩ := hb
    have hkept := hf.lookup n s (he.lookup n s hs)
    rw [Option.some.inj (hkept.symm.trans hs')]
    exact ⟨he.trans hf, rfl⟩
  extract_lets none_ internal_ protected_
  have hinternal : ∀ e, Retains d e → (s.contains .private_ = true → e.arena.SeesPrivate id n) →
      (s.contains .protected_ = true → e.arena.SeesProtected id n) →
      Retaining e (internal_ ()) fun o d => o = none → Seen d id n := by
    intro e he hprivate hprotected
    refine (hagain .internal he).bind fun b f hf hb => ?_
    obtain ⟨hdf, rfl⟩ := hb
    have hseen : (s.contains .internal = true → f.arena.SeesInternal id) → Seen f id n :=
      fun h => ⟨s, hdf.lookup n s hs, fun hp => hf.seesPrivate (hprivate hp),
        fun hp => hf.seesProtected (hprotected hp), h⟩
    split
    · refine .arena_bind ?_
      split
      · exact .pure nofun
      · next hpackage =>
        exact .pure fun _ => hseen fun _ => Option.ne_none_iff_exists'.1
          (by simpa [Option.isNone_iff_eq_none] using hpackage)
    · next hb => exact .pure fun _ => hseen fun h => absurd h hb
  have hprotected : ∀ e, Retains d e → (s.contains .private_ = true → e.arena.SeesPrivate id n) →
      Retaining e (protected_ ()) fun o d => o = none → Seen d id n := by
    intro e he hprivate
    refine (hagain .protected_ he).bind fun b f hf hb => ?_
    obtain ⟨hdf, rfl⟩ := hb
    split
    · refine (retaining_protectedRejection hcall id n).bind fun o g hg ho => ?_
      cases o with
      | some r => exact .pure nofun
      | none =>
        exact hinternal g (hdf.trans hg) (fun hp => (hf.trans hg).seesPrivate (hprivate hp))
          fun _ => ho rfl
    · next hb =>
      exact hinternal f hdf (fun hp => hf.seesPrivate (hprivate hp)) fun h => absurd h hb
  refine .of_start fun hd => ?_
  split
  · refine .arena_bind ?_
    cases hreject : privateRejection d.arena id n with
    | some r => exact .pure nofun
    | none => exact hprotected d (.refl hd) fun _ => privateRejection_eq_none hreject
  · next hb => exact hprotected d (.refl hd) fun h => absurd h hb

/-! ## Types of functions -/

/-- A name that is created to be resolved stands nowhere. -/
theorem retaining_createName {β : Type} {n : NodeId} {name : String} {k : NodeId → Search β}
    {φ : β → Context → Prop}
    (hk : ∀ id d, Retains c d → d.arena.kind id = .identifier → d.arena.parent id = none →
      Retaining d (k id) φ) :
    Retaining c (do
      let id ← createReplacement n .identifier
      change fun a => a.setText id name
      k id) φ := by
  refine ⟨fun hc => Yields.of_exec fun e x d he hr => ?_⟩
  subst he
  rw [exec_bind, createReplacement, exec_checked] at hr
  dsimp only at hr
  rw [exec_bind, exec_change] at hr
  cases hb : ((e.arena.createReplacement n .identifier).2.setText
      (e.arena.createReplacement n .identifier).1 name) with
  | error _ => rw [hb] at hr; cases hr
  | ok b =>
    rw [hb] at hr
    obtain ⟨-, rfl⟩ := Arena.setText_eq_ok hb
    have hretains : Retains e { e with arena := (e.arena.push
        { kind := .identifier, position := e.arena.position n, text := name }).2 } :=
      .of_effect hc (.create _ name none (.inl rfl))
    have hnode := Arena.node_push e.arena
      { kind := .identifier, position := e.arena.position n, text := name } ⟨e.arena.size⟩
    rw [if_pos rfl] at hnode
    rw [← Arena.update_push e.arena { kind := .identifier, position := e.arena.position n }
      fun d => { d with text := name }] at hretains hnode
    exact ((hk _ _ hretains (congrArg Node.kind hnode) (congrArg Node.parent hnode)).yields
      hretains.after).of_ok rfl hr |>.imp_left hretains.trans

theorem retaining_resolveInternalType (hcall : VisibleCalls call) (n : NodeId) (name : String) :
    Retaining c (resolveInternalType call n name) fun _ _ => True := by
  refine retaining_createName fun id d _ _ _ => ?_
  have hfound : Retaining d (withLock n (call (.resolveName n id none {}))) fun _ _ => True :=
    .withLock (.lock · n) (fun _ => (hcall.resolveName _ n id {}).mono fun _ _ _ _ => trivial)
      fun _ _ _ _ _ h => h
  refine hfound.bind fun o e _ _ => ?_
  cases o with
  | none => exact (Proceeds.fatal ..).bind fun _ _ _ _ => .fail trivial
  | some found => exact .pure trivial

theorem retaining_resolveDeclaredType (hcall : VisibleCalls call) (e : NodeId) :
    Retaining c (resolveDeclaredType call e) fun _ _ => True := by
  have hmark : Retaining c (edit (Edit.setAttributeTree e .type true)) fun _ _ => True := by
    refine Retaining.of_follows (follows_markType e) fun d => ?_
    rw [exec_edit]
    split <;> rfl
  refine hmark.bind fun _ d _ _ => .arena_bind ?_
  dsimp only
  split
  · exact (hcall.resolveName d e e {}).mono fun _ _ _ _ => trivial
  · exact .pure trivial

theorem retaining_defineFunctionType (hcall : VisibleCalls call) {f : NodeId}
    (hf : f.index < c.arena.size) :
    Retaining c (defineFunctionType call f) fun _ _ => True := by
  have hset : ∀ d ty, Retaining d (do write fun a => a.setLink f .typeNode (some ty); return true :
      Search Bool) fun _ _ => True := fun d ty =>
    (Proceeds.modify (Retains.setType · f _)).bind fun _ _ _ _ =>
      .pure trivial
  refine .arena_bind ?_
  split
  · exact .pure trivial
  · dsimp only
    split
    · exact Retaining.ask
    · refine .withLock (.lock · _) (fun _ => .arena_bind ?_) fun _ _ _ _ _ => id
      split
      · refine Proceeds.bind (retaining_isConstructor hcall (by exact hf)) fun o d _ _ => ?_
        split
        · have hcreate : Retaining d (createReplacement f .void) fun _ _ => True :=
            Retaining.of_follows (follows_createReplacement (.inr (.inl rfl))) fun e => by
              rw [createReplacement, exec_checked]
          exact hcreate.bind fun ty e _ _ => hset e ty
        · exact (retaining_resolveInternalType hcall f _).bind fun ty e _ _ => hset e ty
      · refine (retaining_resolveDeclaredType hcall _).bind fun o d _ _ => ?_
        cases o with
        | none => exact .pure trivial
        | some ty => exact hset d ty

/-- A function is taken as itself. -/
theorem retaining_checkFunction (hcall : VisibleCalls call) {f : NodeId}
    (hf : f.index < c.arena.size)
    (name : String) (mode : SearchMode) :
    Retaining c (checkFunction call f name none mode) fun o _ => ∀ x, o = some x → x = f := by
  refine (retaining_hasAttribute hcall hf _).bind fun b d hd _ => ?_
  split
  · exact .pure nofun
  · refine .ask_bind (fun _ _ => trivial) fun getter _ =>
      .ask_bind (fun _ _ => trivial) fun setter _ => ?_
    have hf' : f.index < d.arena.size := hd.lt hf
    extract_lets expected
    clear_value expected
    refine .arena_bind ?_
    split
    · exact .pure nofun
    · have htyped : ∀ d, f.index < d.arena.size → Retaining d (do
          let _ ← defineFunctionType call f
          return some f : Search (Option NodeId)) fun o _ => ∀ x, o = some x → x = f :=
        fun d hd => (retaining_defineFunctionType hcall hd).bind fun _ _ _ _ =>
          .pure fun x hx => (Option.some.inj hx).symm
      dsimp only [Option.isNone_none]
      rw [if_pos rfl]
      split
      · refine (retaining_isConstructor hcall hf').bind fun o e he _ => ?_
        split
        · exact (Proceeds.nameOf f).bind fun _ _ _ _ =>
            (Proceeds.error ..).bind fun _ _ _ _ => .pure nofun
        · exact htyped e (he.lt hf')
      · exact htyped d hf'

end Search

end SymbolTree
