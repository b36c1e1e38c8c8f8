import SymbolTree.Proofs.Search.Unhindered.Outcome

/-!
# Attributes, classes and types pass the locks

The searches on attributes, classes and types without arguments, in the order in which they are
defined, are not refused because of a lock.  They rely on the requests that they make not being
refused either (`Search.UnhinderedCalls`).

## Main statements

* `Search.passes_effectiveAttributes` — the attributes of a declaration are worked out.
* `Search.unhindered_linkedClass` — the name of a type is linked, and to what may be locked.
* `Search.passes_defineFunctionType` — the type of a function is found.
-/

set_option autoImplicit false
namespace SymbolTree

/-- What a search has found so far may be found in a body. -/
def Tally.Declared (t : Tally) (c : Context) : Prop :=
  ∀ n, t.found = some n → (c.arena.kind n).isMember = true

/-- What may be locked may be locked later on. -/
theorem Tally.Declared.leadsTo {t : Tally} {c d : Context} (h : t.Declared c)
    (hd : c.arena.LeadsTo d.arena) : t.Declared d :=
  fun n hn => hd.isMember (h n hn)

namespace Search

/-- Requests without arguments are not refused because of a lock. -/
structure UnhinderedCalls (call : Call) : Prop where
  /-- Names. -/
  resolveName : ∀ c list id mode, Passes c (call (.resolveName list id none mode))
  /-- Attributes. -/
  effectiveAttributes : ∀ c n, Passes c (call (.effectiveAttributes n))
  /-- Entries of attribute lists. -/
  addListed : ∀ c n entry s, Passes c (call (.addListed n entry s))
  /-- Derivation. -/
  isDerivedFrom : ∀ c derived base, Passes c (call (.isDerivedFrom derived base))
  /-- Members of what may be locked. -/
  findMember : ∀ c link field t mode, (c.arena.kind link).isMember = true →
    (c.arena.kind field).isClass = false → t.Declared c →
    Unhindered c (call (.findMember link field t none mode)) fun r d => r.2.Declared d
  /-- Declarations in a list of directives. -/
  findInList : ∀ c list field t mode, c.arena.kind list = .directiveList →
    (c.arena.kind field).isClass = false → t.Declared c →
    Unhindered c (call (.findInList list field t none mode)) fun r d => r.2.Declared d

variable {call : Call} {c d : Context}

/-! ## Attributes -/

theorem passes_addAttribute (n : NodeId) (s : AttributeSet) (t : Attribute) :
    Passes c (addAttribute n s t) := by
  refine .ask_bind (fun _ => Arena.not_isLock_checkAttribute) fun _ _ => ?_
  split
  · exact (Proceeds.error ..).bind fun _ _ _ _ => .pure trivial
  · exact .pure trivial

theorem passes_addVariablePart (hcall : UnhinderedCalls call) (n : NodeId) (s : AttributeSet)
    (part : NodeId) : Passes c (addVariablePart call n s part) := by
  refine .arena_bind ?_
  dsimp only
  split
  · exact (Proceeds.error ..).bind fun _ _ _ _ => .pure trivial
  · split
    · exact hcall.addListed ..
    · exact (Proceeds.error ..).bind fun _ _ _ _ => .pure trivial

/-- The variable is locked meanwhile. -/
theorem passes_addVariable (hcall : UnhinderedCalls call) (n : NodeId) (name : String) (v : NodeId)
    (s : AttributeSet) : Passes c (addVariable call n name v s) := by
  refine .arena_bind ?_
  split
  · exact (Proceeds.error ..).bind fun _ _ _ _ => .pure trivial
  · next hk =>
    have hheld : (c.arena.kind v).isHeld = true := by
      simp only [ne_eq, Bool.and_eq_true, decide_eq_true_eq, not_and, not_not] at hk
      by_cases hv : c.arena.kind v = .variable_
      · rw [hv]; rfl
      · rw [hk hv]; rfl
    refine .get_bind ?_
    split
    · exact (Proceeds.error ..).bind fun _ _ _ _ => .pure trivial
    · refine .whileExpanding (Unhindered.withLock hheld
        (fun _ _ => .foldlM _ fun s part d => ?_) fun _ _ _ _ => id) fun _ _ _ _ _ => id
      exact passes_addVariablePart hcall n s part

/-- A name is looked up from the node, if that stands anywhere. -/
theorem passes_addNamed (hcall : UnhinderedCalls call) (n entry : NodeId) (s : AttributeSet) :
    Passes c (addNamed call n entry s) := by
  refine (Proceeds.nameOf entry).bind fun name d _ _ => ?_
  split
  · exact passes_addAttribute n s _
  · refine .arena_bind ?_
    extract_lets add
    have hadd : ∀ found e, Passes e (add found) := by
      intro found e
      cases found with
      | none => exact (Proceeds.error ..).bind fun _ _ _ _ => .pure trivial
      | some v => exact passes_addVariable hcall n name v s
    split
    · exact (hcall.resolveName ..).bind fun found e _ _ => hadd found e
    · exact hadd none d

theorem passes_addListed (hcall : UnhinderedCalls call) (n entry : NodeId) (s : AttributeSet) :
    Passes c (addListed call n entry s) := by
  refine .arena_bind ?_
  dsimp only
  split
  · exact passes_addNamed hcall n entry s
  · split
    · exact passes_addAttribute n s _
    · exact (Proceeds.error ..).bind fun _ _ _ _ => .pure trivial

theorem passes_addAllListed (hcall : UnhinderedCalls call) (n : NodeId) (s : AttributeSet) :
    Passes c (addAllListed call n s) := by
  refine .of_start fun hc => .arena_bind ?_
  split
  · exact .pure trivial
  · next list hlist =>
    have hk := hc.tidy.attributes n list (Option.filter_eq_some_iff.1 hlist).1
    refine Unhindered.withLock (by rw [hk]; rfl) (fun _ _ => .foldlM _ fun s entry d => ?_)
      fun _ _ _ _ => id
    exact hcall.addListed d n entry s

theorem passes_addInherited (hcall : UnhinderedCalls call) (n : NodeId) (s : AttributeSet) :
    Passes c (addInherited call n s) := by
  refine .arena_bind ?_
  split
  · exact .pure trivial
  · split
    · exact .pure trivial
    · exact (hcall.effectiveAttributes c _).bind fun _ _ _ _ => .pure trivial

theorem passes_dropNative (n : NodeId) (written : Bool) (s : AttributeSet) :
    Passes c (dropNative n written s) := by
  refine .arena_bind ?_
  split
  · dsimp only
    split
    · exact (Proceeds.error ..).bind fun _ _ _ _ => .pure trivial
    · exact .pure trivial
  · exact .pure trivial

/-- What is remembered is no part of the arena, and nothing is locked on the way but lists and
variables. -/
theorem passes_effectiveAttributes (hcall : UnhinderedCalls call) (n : NodeId) :
    Passes c (effectiveAttributes call n) := by
  have hremember : ∀ d s, Passes d (remember n s) := fun d s => .modify (.refl ·)
  refine .get_bind ?_
  split
  · exact .pure trivial
  · refine (hremember c _).bind fun _ d _ _ => ?_
    split
    · exact .pure trivial
    · refine (passes_addAllListed hcall n _).bind fun listed d _ _ => ?_
      refine (passes_addInherited hcall n listed).bind fun s d _ _ => ?_
      refine (passes_dropNative n _ s).bind fun s d _ _ => ?_
      exact (hremember d s).bind fun _ _ _ _ => .pure trivial

theorem passes_hasAttribute (hcall : UnhinderedCalls call) (n : NodeId) (t : Attribute) :
    Passes c (hasAttribute call n t) :=
  (hcall.effectiveAttributes c n).bind fun _ _ _ _ => .pure trivial

/-! ## Classes -/

/-- What a function constructs is a class. -/
theorem unhindered_isConstructor (hcall : UnhinderedCalls call) (f : NodeId) :
    Unhindered c (isConstructor call f) fun o d => ∀ x, o = some x →
      d.arena.kind x = .class_ := by
  refine .arena_bind ?_
  extract_lets around none_ class_
  have haround : ∀ x, around = some x → c.arena.kind x = .class_ := fun x hx =>
    of_decide_eq_true (Option.filter_eq_some_iff.1 hx).2
  have hclass : Unhindered c (class_ ()) fun o d => ∀ x, o = some x →
      d.arena.kind x = .class_ := by
    dsimp only [class_, none_]
    clear_value around
    cases around with
    | none =>
      refine (passes_hasAttribute hcall f _).bind fun b d _ _ => ?_
      split
      · exact (Proceeds.error ..).bind fun _ _ _ _ => .pure nofun
      · exact .pure nofun
    | some x =>
      have hx := haround x rfl
      dsimp only
      split
      · exact .pure fun y hy => by cases hy; exact hx
      · refine (passes_hasAttribute hcall f _).bind fun b d hd _ => ?_
        split
        · exact .pure fun y hy => by cases hy; exact hd.kind hx (by decide)
        · exact .pure nofun
  split
  · exact .internal_bind
  · exact hclass

/-- A name is marked, which is never locked, and linked to a class. -/
theorem passes_linkType (hcall : UnhinderedCalls call) (ty : NodeId) :
    Passes c (linkType call ty) := by
  refine .arena_bind ?_
  dsimp only
  split
  · exact .pure trivial
  · next hk =>
    have hname : (c.arena.kind ty).isClass = false := by
      simp only [Bool.or_eq_true, Bool.and_eq_true, ne_eq, decide_eq_true_eq, not_or, not_and,
        not_not] at hk
      by_cases hid : c.arena.kind ty = .identifier
      · rw [hid]; rfl
      · rw [hk.2 hid]; rfl
    refine Unhindered.flag_bind fun b => ?_
    split
    · exact .pure trivial
    · refine (Unhindered.setFlag (Kind.isHeld_of_accepts_name (.inl rfl) hname)).bind
        fun _ d _ _ => ?_
      refine (hcall.resolveName d ty ty {}).bind fun o e _ _ => ?_
      cases o with
      | none => exact .error ..
      | some object =>
        refine .arena_bind ?_
        split
        · next hclass =>
          exact Unhindered.write fun he => he.setInst (Kind.isMember_of_isClass hclass)
        · exact .error ..

/-- What a name of a type is linked to is a class, which may be locked. -/
theorem unhindered_linkedClass (hcall : UnhinderedCalls call) (ty : NodeId) :
    Unhindered c (linkedClass call ty) fun o d => c.arena.TypeName ty → ∀ x, o = some x →
      (d.arena.kind x).isMember = true := by
  refine .of_start fun hc => (passes_linkType hcall ty).bind fun _ d hd _ => ?_
  refine .arena_bind (.pure fun hty x hx => ?_)
  exact hd.orderly.tidy.linked ty x ((hd.sprouts.typeName_iff hc.tidy.consistent).2 hty)
    (Option.filter_eq_some_iff.1 hx).1

/-- Each super class is linked first, and its name is never locked. -/
theorem passes_anyDerivedFrom (hcall : UnhinderedCalls call) (base : NodeId) (names : List NodeId) :
    Passes c (anyDerivedFrom call base names) := by
  induction names generalizing c with
  | nil => exact .pure trivial
  | cons name names ih =>
    refine (unhindered_linkedClass hcall name).bind fun o d _ _ => ?_
    cases o with
    | none => exact ih
    | some x =>
      refine (hcall.isDerivedFrom d x base).bind fun b e _ _ => ?_
      split
      · exact .pure trivial
      · exact ih

theorem passes_isDerivedFrom (hcall : UnhinderedCalls call) (derived base : NodeId) :
    Passes c (isDerivedFrom call derived base) := by
  rw [isDerivedFrom]
  split
  · exact .pure trivial
  · exact .arena_bind (passes_anyDerivedFrom hcall base _)

theorem passes_isMemberDerivedFrom (hcall : UnhinderedCalls call) (derived member : NodeId) :
    Passes c (isMemberDerivedFrom call derived member) := by
  refine .arena_bind ?_
  dsimp only
  split
  · exact (hcall.isDerivedFrom ..).bind fun _ _ _ _ => .pure trivial
  · exact .pure trivial

/-! ## Types of functions -/

/-- The node is locked while the type is looked for. -/
theorem passes_resolveInternalType (hcall : UnhinderedCalls call) {n : NodeId}
    (hn : (c.arena.kind n).isMember = true) (name : String) :
    Passes c (resolveInternalType call n name) := by
  refine (Unhindered.createReplacement (.inl rfl)).bind fun m d hd hm => ?_
  refine (Unhindered.setText (by rw [hm]; rfl)).bind fun _ e he _ => ?_
  have hheld := Kind.isHeld_of_isMember (he.isMember (hd.isMember hn))
  refine (Unhindered.withLock hheld (fun d _ => hcall.resolveName d n m {}) fun _ _ _ _ => id).bind
    fun o _ _ _ => ?_
  cases o with
  | none => exact (Proceeds.fatal ..).bind fun _ _ _ _ => .throw rfl
  | some found => exact .pure trivial

end Search

namespace Arena

theorem below_of_mem_preorderFrom {a : Arena} {fuel : Nat} {n m : NodeId}
    (h : m ∈ a.preorderFrom fuel n) : a.Below n m := by
  induction fuel generalizing n with
  | zero => cases h
  | succ fuel ih =>
    rw [preorderFrom, List.mem_cons, List.mem_flatMap] at h
    rcases h with rfl | ⟨x, hx, hm⟩
    · exact .refl
    · exact .head hx (ih hm)

end Arena

/-- Marking what stands below a node as naming types is refused only where a function stands
there. -/
theorem Edit.ensures_markType {a : Arena} (ha : a.Orderly) {e : NodeId}
    (h : ∀ m, a.Below e m → a.kind m ≠ .function) :
    Ensures (· = a) (Edit.setAttributeTree e .type true) (fun _ b => a.LeadsTo b)
      fun refusal _ => refusal.isLock = false := by
  refine Ensures.get_bind fun s hs => ?_
  subst hs
  refine (Ensures.foldlM (S := fun _ b => s.LeadsTo b) fun _ m hm => ?_).mono
    (fun b hb => by subst hb; exact .refl ha) (fun _ _ hb => hb) fun _ _ he => he
  refine (Edit.ensures_checked.mono (fun _ hb => hb) (fun x b hb => ?_) fun refusal b hb => ?_).bind
    fun _ => Ensures.pure fun _ hb => hb
  · obtain ⟨d, hd, hset⟩ := hb
    exact hd.trans (hd.orderly.setAttribute hset)
  · obtain ⟨hb, hset⟩ := hb
    by_contra hlock
    obtain ⟨haccepts, hheld⟩ := hb.orderly.isHeld_of_setAttribute hset (by simpa using hlock)
    rw [Kind.isHeld_of_accepts_type ?_ haccepts] at hheld
    · cases hheld
    · exact fun hk => h m (Arena.below_of_mem_preorderFrom hm)
        (hb.sprouts.kind_eq (by decide) (by decide) hk)

namespace Search

variable {call : Call} {c d : Context}

/-- The names in the type are marked under a lock on the function, so there may be no function among
them. -/
theorem passes_resolveDeclaredType (hcall : UnhinderedCalls call) {e : NodeId}
    (he : ∀ m, c.arena.Below e m → c.arena.kind m ≠ .function) :
    Passes c (resolveDeclaredType call e) := by
  have hmark : Passes c (edit (Edit.setAttributeTree e .type true)) := by
    refine .of_exec (fun _ d hc hr => ?_) fun stop d hc hr => ?_
    · rw [exec_edit] at hr
      split at hr
      · next hmark =>
        cases hr
        exact ⟨(Edit.ensures_markType hc he).of_ok rfl hmark, trivial⟩
      · cases hr
    · rw [exec_edit] at hr
      split at hr
      · cases hr
      · next hrefused =>
        cases hr
        exact (Edit.ensures_markType hc he).of_error rfl hrefused
  refine hmark.bind fun _ d _ _ => .arena_bind ?_
  dsimp only
  split
  · exact hcall.resolveName d e e {}
  · exact .pure trivial

/-- What is declared as the type of a function stands below a type. -/
theorem not_function_of_declaredType {a : Arena} (ha : a.Tidy) {f e m : NodeId}
    (h : declaredType a f = some e) (hm : a.Below e m) : a.kind m ≠ .function := by
  obtain ⟨t, -, ht⟩ := List.exists_of_findSome?_eq_some h
  split at ht
  · next hk =>
    split at ht
    · next e' hchildren =>
      obtain rfl := Option.some.inj ht
      refine ha.types t m hk (.head ?_ hm)
      rw [hchildren]
      exact List.mem_singleton_self _
    · cases ht
  · cases ht

/-- **The type of a function is found past the locks.** -/
theorem passes_defineFunctionType (hcall : UnhinderedCalls call) {f : NodeId}
    (hf : c.arena.kind f = .function) : Passes c (defineFunctionType call f) := by
  have hset : ∀ d ty, Passes d (do write fun a => a.setLink f .typeNode (some ty); return true :
      Search Bool) := fun d ty =>
    (Unhindered.write fun hd => hd.setType _).bind fun _ _ _ _ => .pure trivial
  refine .arena_bind ?_
  split
  · exact .pure trivial
  · dsimp only
    split
    · exact Unhindered.flag
    · refine Unhindered.withLock (by rw [hf]; rfl) (fun d hd => .arena_bind ?_) fun _ _ _ _ => id
      have hf' := hd.kind hf (by decide)
      split
      · refine (unhindered_isConstructor hcall f).bind fun o e he _ => ?_
        split
        · exact (Unhindered.createReplacement (.inr rfl)).bind fun ty e _ _ => hset e ty
        · have hk : (e.arena.kind f).isMember = true := he.isMember (by rw [hf']; rfl)
          exact (passes_resolveInternalType hcall hk _).bind fun ty e _ _ => hset e ty
      · next e he =>
        refine (passes_resolveDeclaredType hcall fun m hm =>
          not_function_of_declaredType hd.orderly.tidy he hm).bind fun o d _ _ => ?_
        cases o with
        | none => exact .pure trivial
        | some ty => exact hset d ty

/-- A function is taken as itself. -/
theorem unhindered_checkFunction (hcall : UnhinderedCalls call) {f : NodeId}
    (hf : c.arena.kind f = .function) (name : String) (mode : SearchMode) :
    Unhindered c (checkFunction call f name none mode) fun o _ => ∀ x, o = some x → x = f := by
  refine (passes_hasAttribute hcall f _).bind fun b d hd _ => ?_
  split
  · exact .pure nofun
  · refine Unhindered.flag_bind fun getter => Unhindered.flag_bind fun setter => ?_
    have hf' : d.arena.kind f = .function := hd.kind hf (by decide)
    extract_lets expected
    clear_value expected
    refine .arena_bind ?_
    split
    · exact .pure nofun
    · have htyped : ∀ d, d.arena.kind f = .function → Unhindered d (do
          let _ ← defineFunctionType call f
          return some f : Search (Option NodeId)) fun o _ => ∀ x, o = some x → x = f :=
        fun d hd => (passes_defineFunctionType hcall hd).bind fun _ _ _ _ =>
          .pure fun x hx => (Option.some.inj hx).symm
      dsimp only [Option.isNone_none]
      rw [if_pos rfl]
      split
      · refine (unhindered_isConstructor hcall f).bind fun o e he _ => ?_
        split
        · exact (Proceeds.nameOf f).bind fun _ _ _ _ =>
            (Proceeds.error ..).bind fun _ _ _ _ => .pure nofun
        · exact htyped e (he.kind hf' (by decide))
      · exact htyped d hf'

end Search

end SymbolTree
