import SymbolTree.Proofs.Search.Follows
import SymbolTree.Proofs.Search.Modular.Type

/-!
# Attributes and types run a course

To run a course is a modular property of searches (`Search.modular_follows`).  The searches on
attributes, classes, and the types of functions and arguments start no search with arguments, so
that they run a course for any.

Where a search sets a link that it found empty, other searches may have come in between.  Such a
search is followed from the context in which it looked (`Search.follows_linkType`).
`Search.effectiveAttributes` is followed by hand too, since it replaces what it remembered in
between.
-/

set_option autoImplicit false
namespace SymbolTree.Search

variable {params : Option NodeId} {call : Call}

/-! ## Rules -/

/-- A name that is created to be resolved. -/
theorem follows_createName {β : Type} {n : NodeId} {name : String} {k : NodeId → Search β}
    (hk : ∀ id, Follows params (k id)) :
    Follows params (do
      let id ← createReplacement n .identifier
      change fun a => a.setText id name
      k id) := by
  refine ⟨fun c hc => ?_⟩
  have hnew : ∀ s : String, Course params c { c with arena := (c.arena.push
      { kind := .identifier, position := c.arena.position n, text := s }).2 } :=
    fun s => .effect (.create _ s none (.inl rfl))
  rw [exec_bind, createReplacement, exec_checked]
  dsimp only
  rw [exec_bind, exec_change]
  cases hb : ((c.arena.createReplacement n .identifier).2.setText
      (c.arena.createReplacement n .identifier).1 name) with
  | error e => exact hnew ""
  | ok b =>
    obtain ⟨-, rfl⟩ := Arena.setText_eq_ok hb
    have hname := hnew name
    rw [← Arena.update_push c.arena { kind := .identifier, position := c.arena.position n }
      fun d => { d with text := name }] at hname
    exact hname.trans ((hk _).course _ (hname.consistent hc))

/-- Names, matches and the type of nothing are the nodes that searches create. -/
theorem follows_createReplacement {n : NodeId} {k : Kind}
    (hk : k = .identifier ∨ k = .void ∨ k = .paramMatch) :
    Follows params (createReplacement n k) :=
  .checked fun a x b _ h => by
    obtain rfl : (a.createReplacement n k).2 = b := congrArg Prod.snd (Except.ok.inj h)
    exact .create _ "" none hk

/-- The names in the expression of a type are marked one after the other, each an effect. -/
theorem follows_markType (e : NodeId) :
    Follows params (edit (Edit.setAttributeTree e .type true)) := by
  refine ⟨fun c hc => ?_⟩
  have h : Keeps (fun b => Course params c { c with arena := b })
      (Edit.setAttributeTree e .type true) :=
    Keeps.get_bind fun _ _ => Keeps.foldlM fun _ _ _ =>
      Keeps.bind (Edit.keeps_checked fun a _ b ha hb => ha.trans (.effect (.typed hb)))
        fun _ => Keeps.pure
  have := h.state (s := c.arena) (.refl c)
  rw [exec_edit]
  change Course params c { c with
    arena := ((Edit.setAttributeTree e .type true).exec c.arena).2 } at this
  cases hr : (Edit.setAttributeTree e .type true).exec c.arena with
  | mk r b =>
    rw [hr] at this
    cases r <;> exact this

/-- To run a course passes from the parts of a search to the whole. -/
theorem modular_follows : Modular fun _ => Follows params where
  pure := .pure
  throw _ := .throw
  bind hp hf := hp.bind hf
  get := ⟨fun c _ => .refl c⟩
  flag _ _ := .ask _
  checkAttribute _ _ := .ask _
  setFlag n _ hf := .setFlag n hf
  addLabel _ _ := .change fun _ _ _ h => .label h
  markType := follows_markType
  createName := follows_createName
  aside {f} hf := ⟨fun c _ => by
    obtain ⟨ds, o, ms, l, h⟩ := hf c
    change Course params c (f c)
    rw [h]
    exact .aside ds o ms l⟩
  withLock h := h.withLock
  withFreshRejections h := h.withFreshRejections
  whileExpanding h := h.whileExpanding

/-- A course says nothing about rejections and places. -/
theorem scanning_follows : Scanning fun _ => Follows params where
  toModular := modular_follows
  stop := .throw
  ask f := .ask f
  reject r := .reject r

/-- The requests without arguments run a course for any arguments. -/
theorem Faithful.answered (hcall : Faithful call) : Answered (fun _ => Follows params) call where
  resolveName list id mode := (hcall (.resolveName list id none mode)).of_none params
  effectiveAttributes n := (hcall (.effectiveAttributes n)).of_none params
  addListed n entry s := (hcall (.addListed n entry s)).of_none params
  isDerivedFrom derived base := (hcall (.isDerivedFrom derived base)).of_none params

theorem Faithful.classDepth (hcall : Faithful call) (c type : NodeId) (depth : Int32) :
    Follows params (call (.classDepth c type depth)) :=
  (hcall (.classDepth c type depth)).of_none params

/-- The requests for members run a course for the arguments they are made with. -/
theorem Faithful.answeredAll (hcall : Faithful call) :
    AnsweredAll (fun _ => Follows params) call params where
  toAnswered := hcall.answered
  findMember link field t mode := hcall (.findMember link field t params mode)
  findInList list field t mode := hcall (.findInList list field t params mode)

/-! ## Attributes -/

/-- What is remembered in between is replaced in the end, unless the search stops before. -/
theorem follows_effectiveAttributes (hcall : Faithful call) (n : NodeId) :
    Follows params (effectiveAttributes call n) := by
  refine ⟨fun c hc => ?_⟩
  rw [effectiveAttributes, exec_get_bind]
  cases hn : c.attributeCache.lookup n with
  | some s => exact .refl c
  | none =>
    -- from here on the search goes on from `d`
    let d : Context :=
      { c with attributeCache := (n, (c.arena.node n).attributes) :: c.attributeCache }
    have hd : Course params c d := .remember hn
    have hon : ∀ {p : Search AttributeSet}, Follows params p →
        Ensures (Course params d) p (fun _ => Course params d) (fun _ => Course params c) :=
      fun h => (h.keeps (hd.consistent hc)).mono (fun _ h => h) (fun _ _ h => h)
        fun _ _ h => hd.trans h
    change Course params c ((if c.arena.kind n = .program then Pure.pure _ else
      (addAllListed call n (c.arena.node n).attributes >>= fun listed =>
        addInherited call n listed >>= fun s =>
        dropNative n (listed.contains .native) s >>= fun s =>
        remember n s >>= fun _ => Pure.pure s) : Search AttributeSet).exec d).2
    split
    · exact hd
    · refine Ensures.state (P := Course params d) ?_ (.refl d)
      refine (hon (modular_addAllListed modular_follows hcall.answered n _)).bind fun listed => ?_
      refine (hon (modular_addInherited modular_follows hcall.answered n listed)).bind fun s => ?_
      refine (hon (modular_dropNative modular_follows n _ s)).bind fun s => ?_
      exact Ensures.bind (Ensures.modify fun e he => .attributes s hn he) fun _ =>
        Ensures.pure fun _ he => he

theorem follows_hasAttribute (hcall : Faithful call) (n : NodeId) (t : Attribute) :
    Follows params (hasAttribute call n t) :=
  modular_hasAttribute modular_follows hcall.answered n t

/-! ## Classes -/

theorem follows_isConstructor (hcall : Faithful call) (f : NodeId) :
    Follows params (isConstructor call f) :=
  modular_isConstructor modular_follows hcall.answered f

/-- The link is set only where there was none at the beginning. -/
theorem follows_linkType (hcall : Faithful call) (ty : NodeId) :
    Follows params (linkType call ty) := by
  refine ⟨fun c hc => ?_⟩
  change Course params c ((if _ then _ else _ : Search Unit).exec c).2
  split
  · exact .refl c
  · next hinst =>
    have hnone : c.arena.link ty .inst = none := by
      simp only [Bool.or_eq_true, not_or, Option.isSome_iff_ne_none, ne_eq, not_not] at hinst
      exact hinst.1
    have hset : ∀ object, Keeps (Course params c)
        (write fun a => a.setLink ty .inst (some object)) := fun object =>
      Keeps.modify fun d hd => .link object (.inl rfl) hnone hd
    refine Keeps.state (I := Course params c) ?_ (.refl c)
    refine Keeps.bind ((Follows.ask _).keeps hc) fun b => ?_
    split
    · exact Keeps.pure
    · refine Keeps.bind ((Follows.setFlag ty (by decide)).keeps hc) fun _ => ?_
      refine Keeps.bind (((hcall (.resolveName ty ty none {})).of_none params).keeps hc) fun o => ?_
      cases o with
      | none => exact (Follows.error ..).keeps hc
      | some object =>
        refine Keeps.bind (Follows.arena.keeps hc) fun a => ?_
        split
        · exact hset object
        · exact (Follows.error ..).keeps hc

theorem follows_linkedClass (hcall : Faithful call) (ty : NodeId) :
    Follows params (linkedClass call ty) :=
  modular_linkedClass (follows_linkType hcall) modular_follows ty

theorem follows_isDerivedFrom (hcall : Faithful call) (derived base : NodeId) :
    Follows params (isDerivedFrom call derived base) :=
  modular_isDerivedFrom (follows_linkType hcall) modular_follows hcall.answered derived base

theorem follows_classDepth (hcall : Faithful call) (c type : NodeId) (depth : Int32) :
    Follows params (classDepth call c type depth) :=
  modular_classDepth (follows_linkType hcall) modular_follows hcall.classDepth c type depth

theorem follows_isMemberDerivedFrom (hcall : Faithful call) (derived member : NodeId) :
    Follows params (isMemberDerivedFrom call derived member) :=
  modular_isMemberDerivedFrom modular_follows hcall.answered derived member

/-! ## Types of functions and arguments -/

theorem follows_resolveInternalType (hcall : Faithful call) (n : NodeId) (name : String) :
    Follows params (resolveInternalType call n name) :=
  modular_resolveInternalType modular_follows hcall.answered n name

/-- The type of a function is set only where there was none at the beginning. -/
theorem follows_defineFunctionType (hcall : Faithful call) (f : NodeId) :
    Follows params (defineFunctionType call f) := by
  refine ⟨fun c hc => ?_⟩
  change Course params c ((if (c.arena.typeNode f).isSome = true then _ else _ :
    Search Bool).exec c).2
  split
  · exact .refl c
  · next htype =>
    split
    · exact (Follows.ask _).course c hc
    · refine Follows.withLock_at ?_
      have hc' : (c.arena.lock f).Consistent := hc.lock f
      have hset : ∀ ty, Keeps (Course params { c with arena := c.arena.lock f })
          (do write fun a => a.setLink f .typeNode (some ty); return true : Search Bool) := by
        refine fun ty => Keeps.bind (Keeps.modify fun d hd => ?_) fun _ => Keeps.pure
        exact .link ty (.inr rfl) (Option.not_isSome_iff_eq_none.1 htype) hd
      refine Keeps.state (I := Course params { c with arena := c.arena.lock f }) ?_ (.refl _)
      refine Keeps.bind (Follows.arena.keeps hc') fun a => ?_
      split
      · refine Keeps.bind ((follows_isConstructor hcall f).keeps hc') fun o => ?_
        dsimp only
        split
        · exact Keeps.bind ((follows_createReplacement (.inr (.inl rfl))).keeps hc') hset
        · exact Keeps.bind ((follows_resolveInternalType hcall f _).keeps hc') hset
      · have hdeclared : ∀ e, Follows params (resolveDeclaredType call e) :=
          modular_resolveDeclaredType modular_follows hcall.answered
        refine Keeps.bind ((hdeclared _).keeps hc') fun o => ?_
        cases o with
        | none => exact Keeps.pure
        | some ty => exact hset ty

/-- The type was missing in the context that the course starts from, so the link may be set at its
end. -/
theorem keeps_typeVariable (hcall : Faithful call) {c : Context} (hc : c.arena.Consistent)
    {e : NodeId} (htype : c.arena.typeNode e = none) :
    Keeps (Course params c) (typeVariable call e) := by
  refine Keeps.bind (Follows.arena.keeps hc) fun a => ?_
  dsimp only
  split
  · exact Keeps.pure
  · refine Keeps.bind ((follows_linkedClass hcall _).keeps hc) fun o => ?_
    cases o with
    | none =>
      refine Keeps.bind ((Follows.nameOf _).keeps hc) fun name => ?_
      exact Keeps.bind ((Follows.fatal ..).keeps hc) fun _ => Keeps.throw
    | some ty => exact Keeps.modify fun d hd => .link ty (.inr rfl) htype hd

/-- A type is set only where none was found at the start. -/
theorem follows_typeExpression (hcall : Faithful call) (e : NodeId) :
    Follows params (typeExpression call e) := by
  refine ⟨fun c hc => ?_⟩
  change Course params c ((if (c.arena.typeNode e).isSome = true then _ else _ :
    Search Unit).exec c).2
  split
  · exact .refl c
  · next htype =>
    have hnone : c.arena.typeNode e = none := Option.not_isSome_iff_eq_none.1 htype
    refine Keeps.state (I := Course params c) ?_ (.refl c)
    split
    · refine Keeps.bind ((follows_resolveInternalType hcall e _).keeps hc) fun ty => ?_
      exact Keeps.modify fun d hd => .link ty (.inr rfl) hnone hd
    · exact keeps_typeVariable hcall hc hnone

theorem follows_expectedOf (hcall : Faithful call) (arg param : NodeId) :
    Follows params (expectedOf call arg param) := by
  refine .bind (.ask _) fun out => ?_
  extract_lets typed
  have htyped : ∀ u, Follows params (typed u) := by
    refine fun u => ⟨fun c hc => ?_⟩
    rw [show (typed u).exec c = _ from exec_arena_bind _ c]
    cases (c.arena.children param).head? with
    | none => exact .refl c
    | some ty =>
      refine Keeps.state (I := Course params c) ?_ (.refl c)
      dsimp only
      split
      · exact Keeps.pure
      · split
        · exact Keeps.pure
        · next htype =>
          -- the link is set only where there was none when the parameter was looked at
          have hset : ∀ ty', Keeps (Course params c) (do
              write fun a => a.setLink ty .typeNode (some ty')
              return .typeOf ty : Search Expected) := by
            refine fun ty' => Keeps.bind (Keeps.modify fun d hd => ?_) fun _ => Keeps.pure
            exact .link ty' (.inr rfl) (Option.not_isSome_iff_eq_none.1 htype) hd
          split
          · refine Keeps.bind (((hcall (.resolveName ty ty none {})).of_none params).keeps hc)
              fun found => ?_
            cases found with
            | none => exact Keeps.pure
            | some ty' => exact hset ty'
          · refine Keeps.bind Keeps.pure fun found => ?_
            cases found with
            | none => exact Keeps.pure
            | some ty' => exact hset ty'
  split
  · refine .arena_bind fun a => ?_
    split
    · exact .bind (.warning ..) fun _ => .pure
    · exact htyped ()
  · exact htyped ()

/-- A link is set where none was found, with nothing in between. -/
theorem follows_linkField (field found : NodeId) : Follows params (linkField field found) := by
  refine ⟨fun c hc => ?_⟩
  rw [linkField, exec_arena_bind]
  cases hinst : c.arena.inst field with
  | none => exact .link found (.inl rfl) hinst (.refl c)
  | some other =>
    dsimp only
    split
    · exact .refl c
    · exact .refl c

/-- What sets links runs a course, each shown by hand above. -/
theorem Faithful.typed (hcall : Faithful call) : Typed (fun _ => Follows params) call where
  linkType := follows_linkType hcall
  defineFunctionType := follows_defineFunctionType hcall
  typeExpression := follows_typeExpression hcall
  expectedOf := follows_expectedOf hcall
  linkField := follows_linkField

theorem follows_matchType (hcall : Faithful call) (arg target : NodeId) :
    Follows params (matchType call arg target) :=
  modular_matchType modular_follows hcall.answered hcall.typed hcall.classDepth arg target

theorem follows_checkFunction (hcall : Faithful call) (f : NodeId) (name : String)
    (args : Option NodeId) (mode : SearchMode) :
    Follows params (checkFunction call f name args mode) :=
  modular_checkFunction modular_follows hcall.answered hcall.typed f name args mode

end SymbolTree.Search
