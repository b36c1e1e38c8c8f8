import SymbolTree.Proofs.Search.Unhindered.Type

/-!
# Members and declarations pass the locks

Members of classes and declarations in a list of directives are looked for without being refused
because of a lock.  What they write to are names, which are never locked; and what they find, unless
it is a parameter, is of a kind that may be locked in the next step.

## Main statements

* `Search.unhindered_findMember` — a member is found among what may be locked.
* `Search.unhindered_checkName` — so is a declaration, unless it is a parameter.
-/

set_option autoImplicit false
namespace SymbolTree.Search

variable {call : Call} {c d : Context} {id field : NodeId} {mode : SearchMode}

/-! ## Visibility -/

theorem passes_protectedRejection (hcall : UnhinderedCalls call) (id n : NodeId) :
    Passes c (protectedRejection call id n) := by
  refine (passes_isMemberDerivedFrom hcall id n).bind fun r d _ _ => ?_
  obtain ⟨derived, owner⟩ := r
  dsimp only
  split
  · exact .pure trivial
  · refine .arena_bind ?_
    split
    · exact .pure trivial
    · exact .pure trivial

/-- Who may see a declaration is worked out from what is noted, and derivation. -/
theorem passes_rejection (hcall : UnhinderedCalls call) (id n : NodeId) :
    Passes c (rejection call id n) := by
  refine (passes_hasAttribute hcall n _).bind fun b c₁ _ _ => ?_
  extract_lets none_ internal_ protected_
  have hinternal : ∀ d, Passes d (internal_ ()) := by
    intro d
    refine (passes_hasAttribute hcall n _).bind fun b e _ _ => ?_
    split
    · refine .arena_bind ?_
      split
      · exact .pure trivial
      · exact .pure trivial
    · exact .pure trivial
  have hprotected : ∀ d, Passes d (protected_ ()) := by
    intro d
    refine (passes_hasAttribute hcall n _).bind fun b e _ _ => ?_
    split
    · refine (passes_protectedRejection hcall id n).bind fun o f _ _ => ?_
      cases o with
      | some r => exact .pure trivial
      | none => exact hinternal f
    · exact hinternal e
  split
  · refine .arena_bind ?_
    split
    · exact .pure trivial
    · exact hprotected c₁
  · exact hprotected c₁

/-! ## Members -/

/-- Trying items until the search is over keeps what every try keeps. -/
theorem unhindered_scan {α : Type} {step : α → Tally → Search (Bool × Tally)}
    {J : Bool × Tally → Context → Prop} (xs : List α)
    (h : ∀ x ∈ xs, ∀ d t, c.arena.LeadsTo d.arena → J (false, t) d → Unhindered d (step x t) J)
    {t : Tally} (ht : J (false, t) c) : Unhindered c (scan step xs t) J := by
  induction xs generalizing c t with
  | nil => exact .pure ht
  | cons x xs ih =>
    refine .of_start fun hc => ?_
    refine (h x List.mem_cons_self c t (.refl hc) ht).bind fun r d hd hr => ?_
    obtain ⟨ended, t⟩ := r
    cases ended with
    | true => exact .pure hr
    | false =>
      exact ih (fun y hy e t he ht => h y (List.mem_cons_of_mem x hy) e t (hd.trans he) ht) hr

/-- The names of super classes are never locked, so their links may be set. -/
theorem unhindered_findInSupers (hcall : UnhinderedCalls call) (link : NodeId)
    (hfield : (c.arena.kind field).isClass = false) (names : List NodeId)
    (hnames : ∀ name ∈ names, c.arena.TypeName name) (count : Nat) {t : Tally}
    (ht : t.Declared c) :
    Unhindered c (findInSupers call link field none mode names count t) fun r d =>
      r.2.Declared d := by
  induction names generalizing c count t with
  | nil => exact .pure ht
  | cons name names ih =>
    refine .of_start fun hc => ?_
    have hrest : ∀ e : Context, c.arena.LeadsTo e.arena → ∀ name ∈ names, e.arena.TypeName name :=
      fun e he n hn => (he.sprouts.typeName_iff hc.tidy.consistent).2
        (hnames n (List.mem_cons_of_mem name hn))
    refine (unhindered_linkedClass hcall name).bind fun o d hd ho => ?_
    cases o with
    | none =>
      refine (Proceeds.warning ..).bind fun _ e he _ => ?_
      have hce := hd.trans he
      exact ih (hce.not_isClass hfield) (hrest e hce) _ (ht.leadsTo hce)
    | some x =>
      have hx := ho (hnames name List.mem_cons_self) x rfl
      refine (hcall.findMember d x field t mode hx (hd.not_isClass hfield) (ht.leadsTo hd)).bind
        fun r e he hr => ?_
      have hce := hd.trans he
      exact ih (hce.not_isClass hfield) (hrest e hce) _ hr

/-- A class that is locked for the search may have been locked before. -/
theorem unhindered_findInExtends (hcall : UnhinderedCalls call) {link : NodeId}
    (hlink : (c.arena.kind link).isMember = true) (hfield : (c.arena.kind field).isClass = false)
    {t : Tally} (ht : t.Declared c) :
    Unhindered c (findInExtends call link field t none mode) fun r d => r.2.Declared d := by
  refine Unhindered.withLock (Kind.isHeld_of_isMember hlink) (fun c₁ h₁ => .arena_bind ?_)
    fun _ _ _ he h => h.leadsTo he
  refine (unhindered_findInSupers hcall link (h₁.not_isClass hfield) _
    (fun name hname => .inl ⟨link, hname⟩) 0 (ht.leadsTo h₁)).bind fun r d _ hr => ?_
  obtain ⟨count, t⟩ := r
  dsimp only
  split
  · exact .pure hr
  · split
    · exact (Proceeds.nameOf field).bind fun _ _ he _ => (Proceeds.error ..).bind
        fun _ _ hf _ => .pure (Tally.Declared.leadsTo hr (he.trans hf))
    · exact .pure hr

theorem unhindered_findInBody (hcall : UnhinderedCalls call) {link : NodeId}
    (hlink : (c.arena.kind link).isMember = true) (hfield : (c.arena.kind field).isClass = false)
    {t : Tally} (ht : t.Declared c) :
    Unhindered c (findInBody call link field t none mode) fun r d => r.2.Declared d := by
  refine Unhindered.withLock (Kind.isHeld_of_isMember hlink) (fun c₁ h₁ => .arena_bind ?_)
    fun _ _ _ he h => h.leadsTo he
  refine unhindered_scan _ (fun list hlist d t hd ht => ?_) (ht.leadsTo h₁)
  have hk : c₁.arena.kind list = .directiveList := of_decide_eq_true (List.mem_filter.1 hlist).2
  exact hcall.findInList d list field t mode (hd.kind hk (by decide))
    ((h₁.trans hd).not_isClass hfield) ht

/-- **A member of a class is found past the locks**, the classes that it inherits from included. -/
theorem unhindered_findMember (hcall : UnhinderedCalls call) {link : NodeId}
    (hlink : (c.arena.kind link).isMember = true) (hfield : (c.arena.kind field).isClass = false)
    {t : Tally} (ht : t.Declared c) :
    Unhindered c (findMember call link field t none mode) fun r d => r.2.Declared d := by
  refine (unhindered_findInBody hcall hlink hfield ht).bind fun r d hd hr => ?_
  obtain ⟨found, t⟩ := r
  dsimp only
  split
  · exact .pure hr
  · exact unhindered_findInExtends hcall (hd.isMember hlink) (hd.not_isClass hfield) hr

/-- The name that a link is set on is not locked, whatever else is. -/
theorem passes_linkField {field found : NodeId} (h : (c.arena.kind found).isMember = true) :
    Passes c (linkField field found) := by
  refine .arena_bind ?_
  split
  · exact Unhindered.write fun hc => hc.setInst h
  · split
    · exact .internal
    · exact .pure trivial

/-- What was found is linked to the name at the end. -/
theorem passes_findField (hcall : UnhinderedCalls call) {link : NodeId}
    (hlink : (c.arena.kind link).isMember = true) (hfield : (c.arena.kind field).isClass = false)
    (funcs : Nat) : Passes c (findField call link field funcs none mode) := by
  refine .withFreshRejections (fun h₁ => ?_) fun _ _ _ _ _ => id
  refine (hcall.findMember _ link field { funcs } mode (h₁.isMember hlink)
    (h₁.not_isClass hfield) nofun).bind fun r d _ hr => ?_
  obtain ⟨found, t⟩ := r
  have hdeclared : t.Declared d := hr
  dsimp only
  split
  · exact (Proceeds.reportRejections field).bind fun _ _ _ _ => .pure trivial
  · split
    · cases hfound : t.found with
      | none => exact .pure trivial
      | some n =>
        exact (passes_linkField (hdeclared n hfound)).bind fun _ _ _ _ => .pure trivial
    · exact .pure trivial

theorem passes_selectMember (found : Option NodeId × Nat) :
    Passes c (selectMember call found none) := by
  rw [selectMember, if_pos (by simp)]
  exact .pure trivial

/-- The class of an object may be locked. -/
theorem unhindered_classOfObject (hcall : UnhinderedCalls call) (object : NodeId) :
    Unhindered c (classOfObject call object) fun o d => ∀ x, o = some x →
      (d.arena.kind x).isMember = true := by
  have htyped : ∀ ty, (c.arena.kind object = .variable_ ∨ c.arena.kind object = .param) →
      ty ∈ c.arena.children object → Unhindered c (linkedClass call ty) fun o d =>
        ∀ x, o = some x → (d.arena.kind x).isMember = true := fun ty hk hty =>
    (unhindered_linkedClass hcall ty).mono fun o d _ h => h (.inr ⟨object, hk, hty⟩)
  refine .arena_bind ?_
  split
  · next hk =>
    split
    · next ty hty => exact htyped ty (.inl hk) (List.mem_of_find?_eq_some hty)
    · exact (Proceeds.warning ..).bind fun _ _ _ _ => .pure nofun
  · next hk =>
    split
    · next ty hty => exact htyped ty (.inr hk) (List.mem_of_find?_eq_some hty)
    · exact (Proceeds.warning ..).bind fun _ _ _ _ => .pure nofun
  · next hk => exact .pure fun x hx => by cases hx; rw [hk]; rfl
  · next hk => exact .pure fun x hx => by cases hx; rw [hk]; rfl
  · exact (Proceeds.error ..).bind fun _ _ _ _ => .pure nofun

/-- A field of an object is resolved past the locks. -/
theorem passes_resolveField (hcall : UnhinderedCalls call) (object field : NodeId) :
    Passes c (resolveField call object field none mode) := by
  refine (unhindered_classOfObject hcall object).bind fun o d _ ho => ?_
  cases o with
  | none => exact .pure trivial
  | some link =>
    refine .arena_bind ?_
    split
    · next hname =>
      exact (passes_findField hcall (ho link rfl) (Kind.not_isClass_of_isName hname) 0).bind
        fun found _ _ _ => passes_selectMember found
    · exact .pure trivial

/-! ## Declarations -/

/-- What a node declares may be found in a body, unless the node is a parameter. -/
def Candidate.Declared (n : NodeId) : Candidate → Context → Prop
  | .none, _ => True
  | .open_ m, c => (c.arena.kind m).isMember = true ∨ m = n ∧ c.arena.kind n = .param
  | .guarded m, c => (c.arena.kind m).isMember = true

theorem unhindered_candidateClass {n : NodeId} (hn : (c.arena.kind n).isMember = true)
    (hid : (c.arena.kind id).isClass = false) :
    Unhindered c (do
      if (c.arena.typeNode n).isNone then
        write fun a => a.setLink n .typeNode (some n)
      change fun a => a.setFlag id .identifierTyped true
      return Candidate.guarded n) fun o d => o.Declared n d := by
  have hflag : ∀ d, c.arena.LeadsTo d.arena → Unhindered d (do
      change fun a => a.setFlag id .identifierTyped true
      return Candidate.guarded n) fun o d => o.Declared n d := fun d hd =>
    (Unhindered.setFlag (Kind.isHeld_of_accepts_name (.inl rfl) (hd.not_isClass hid))).bind
      fun _ e he _ => .pure (he.isMember (hd.isMember hn))
  refine .of_start fun hc => ?_
  dsimp only
  split
  · exact (Unhindered.write fun hc => hc.setType _).bind fun _ d hd _ => hflag d hd
  · exact hflag c (.refl hc)

theorem unhindered_candidate (hcall : UnhinderedCalls call) (n : NodeId)
    (hid : (c.arena.kind id).isClass = false) :
    Unhindered c (candidate call n id none mode) fun o d => o.Declared n d := by
  refine .of_start fun hc => .arena_bind ?_
  dsimp only
  split
  · refine .pure ?_
    cases hv : findVariable c.arena n (c.arena.name id) with
    | none => trivial
    | some v =>
      have hk := List.find?_some hv
      simp only [Bool.and_eq_true, decide_eq_true_eq] at hk
      change (c.arena.kind v).isMember = true
      rw [hk.1]
      rfl
  · next hk =>
    split
    · refine (Unhindered.setFlag fun _ => by rw [hk]; rfl).bind fun _ d hd _ => .pure ?_
      exact .inr ⟨rfl, hd.kind hk (by decide)⟩
    · exact .pure trivial
  · next hk =>
    refine (unhindered_isConstructor hcall n).bind fun o d hd ho => ?_
    cases o with
    | some x =>
      refine .arena_bind (.pure ?_)
      split
      · change (d.arena.kind x).isMember = true
        rw [ho x rfl]
        rfl
      · trivial
    | none =>
      have hk' := hd.kind hk (by decide)
      refine (unhindered_checkFunction hcall hk' _ mode).bind fun o e he ho => .pure ?_
      cases o with
      | none => trivial
      | some x =>
        change (e.arena.kind x).isMember = true
        rw [ho x rfl, he.kind hk' (by decide)]
        rfl
  · next hk =>
    split
    · exact unhindered_candidateClass (by rw [hk]; rfl) hid
    · exact .pure trivial
  · next hk =>
    split
    · exact unhindered_candidateClass (by rw [hk]; rfl) hid
    · exact .pure trivial
  · next hk =>
    -- the values of an enumeration would be marked here although they may be locked
    exact absurd hk (hc.tidy.noEnum n)
  · next hk =>
    refine .pure ?_
    split
    · exact .inl (by rw [hk]; rfl)
    · trivial
  · next hk =>
    -- and so would the package that is imported
    exact absurd hk (hc.tidy.noImport n)
  · exact .pure trivial

/-- A declaration at some place may be found in a body, unless a parameter stands there. -/
theorem unhindered_checkName (hcall : UnhinderedCalls call) (list : NodeId) (index : Nat)
    (hid : (c.arena.kind id).isClass = false) :
    Unhindered c (checkName call list index id none mode) fun o d => ∀ m, o = some m →
      (d.arena.kind m).isMember = true ∨
        m ∈ c.arena.children list ∧ d.arena.kind m = .param := by
  refine .arena_bind ?_
  split
  · exact .internal
  · next n hn =>
    refine (unhindered_candidate hcall n hid).bind fun o d _ ho => ?_
    cases o with
    | none => exact .pure nofun
    | open_ m =>
      refine .pure fun x hx => ?_
      cases hx
      rcases ho with hm | ⟨rfl, hm⟩
      · exact .inl hm
      · exact .inr ⟨List.mem_of_getElem? hn, hm⟩
    | guarded m =>
      refine (passes_rejection hcall id m).bind fun o e he _ => ?_
      cases o with
      | some r => exact (Proceeds.reject r).bind fun _ _ _ _ => .pure nofun
      | none =>
        refine .arena_bind ?_
        rw [if_neg (by simp)]
        refine .pure fun x hx => ?_
        cases hx
        exact .inl (he.isMember ho)

/-- A child that declares the name ends the search. -/
theorem unhindered_tryChild (hcall : UnhinderedCalls call) (list : NodeId) (index : Nat)
    (hid : (c.arena.kind id).isClass = false) (t : Tally) :
    Unhindered c (tryChild call list id none mode index t) fun r d =>
      r = (false, t) ∨ ∃ m, r = (true, { t with found := some m }) ∧
        ((d.arena.kind m).isMember = true ∨
          m ∈ c.arena.children list ∧ d.arena.kind m = .param) := by
  refine (unhindered_checkName hcall list index hid).bind fun o d hd ho => ?_
  cases o with
  | none => exact .pure (.inl rfl)
  | some n => exact .arena_bind (.pure (.inr ⟨n, rfl, ho n rfl⟩))

theorem unhindered_tryBodyChild (hcall : UnhinderedCalls call) {list : NodeId}
    (hlist : c.arena.kind list = .directiveList) (index : Nat)
    (hfield : (c.arena.kind field).isClass = false) {t : Tally} (ht : t.Declared c) :
    Unhindered c (tryBodyChild call list field none mode index t) fun r d => r.2.Declared d := by
  refine .of_start fun hc => .ask_bind (fun e he => ?_) fun m _ => .arena_bind ?_
  · rw [Arena.child] at he
    split at he <;> cases he
    rfl
  · split
    · next hm =>
      refine (hcall.findInList c m field t mode hm hfield ht).bind fun r e _ hr => ?_
      obtain ⟨found, t⟩ := r
      dsimp only
      split
      · exact .arena_bind (.pure hr)
      · exact .pure hr
    · exact .pure ht
    · refine (unhindered_tryChild hcall list index hfield t).mono fun r d hd hr => ?_
      rcases hr with rfl | ⟨m, rfl, hm⟩
      · exact ht.leadsTo hd
      · intro x hx
        cases hx
        refine hm.resolve_right fun h => hc.tidy.bodies list m hlist h.1 ?_
        exact hd.sprouts.kind_eq (by decide) (by decide) h.2

/-- The lists of a class are gone through under locks of their own. -/
theorem unhindered_findInList (hcall : UnhinderedCalls call) {list : NodeId}
    (hlist : c.arena.kind list = .directiveList) (hfield : (c.arena.kind field).isClass = false)
    {t : Tally} (ht : t.Declared c) :
    Unhindered c (findInList call list field t none mode) fun r d => r.2.Declared d := by
  refine Unhindered.withLock (by rw [hlist]; rfl) (fun c₁ h₁ => .arena_bind ?_)
    fun _ _ _ he h => h.leadsTo he
  refine unhindered_scan _ (fun index _ d t hd ht => ?_) (ht.leadsTo h₁)
  have hcd := h₁.trans hd
  exact unhindered_tryBodyChild hcall (hcd.kind hlist (by decide)) index (hcd.not_isClass hfield) ht

end SymbolTree.Search
