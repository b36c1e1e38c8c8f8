import SymbolTree.Proofs.Arena.Deed
import SymbolTree.Proofs.Search.Climbing
import SymbolTree.Proofs.Search.Reports.Quiet

/-!
# One report for one search

A search for a name rejects candidates on its way and goes on.  What it rejected is reported only
when it has found nothing in the end, in one message.

There are two places where a search for the same name is started with a report of its own: in a
`with`, for the members of the object, and in an import that implements its package, for the members
of the package.  Such a search may report its rejected candidates although the search around it goes
on and finds something (`Search.reports_name_found_outside`).  Away from these places one search
means one report at most.

## Main statements

* `Search.hushed_answer` — what is looked up on the way reports nothing about the name.
* `Search.reports_resolveName` — one report at most, and none if the name is found.
-/

set_option autoImplicit false
namespace SymbolTree

namespace Arena

/-- A node lies above another one. -/
def Above (a : Arena) (n w : NodeId) : Prop :=
  Relation.TransGen (fun m p => a.parent m = some p) n w

/-- The place from which the scopes around a node are climbed.  The object of a `with` is looked for
outside of it. -/
def walkStart (a : Arena) (n : NodeId) : NodeId :=
  match a.parent n with
  | some p => if a.kind p = .with_ then p else n
  | none => n

end Arena

/-- The list of what a module declares for all programs. -/
def Context.shared (c : Context) (import_ : Context → Option NodeId) : Option NodeId :=
  (import_ c).bind fun program => (c.arena.children program).head?

namespace Search

variable {call : Call} {c : Context} {x : String} {k : Nat} {mode : SearchMode}

/-! ## Members -/

theorem quiet_scan {α : Type} {step : α → Tally → Search (Bool × Tally)} (xs : List α) (t : Tally)
    (h : ∀ y t, Quiet c x k (step y t)) : Quiet c x k (scan step xs t) := by
  induction xs generalizing t with
  | nil => exact .pure
  | cons y ys ih =>
    refine .bind (h y t) fun r => ?_
    obtain ⟨ended, t⟩ := r
    dsimp only
    split
    · exact .pure
    · exact ih t

theorem quiet_findInSupers (hcall : Hushed x call) (hc : c.Distinct x) {link : NodeId}
    (field : NodeId) (names : List NodeId) (hnames : ∀ name ∈ names, name ∈ c.arena.superNames link)
    (count : Nat) (t : Tally) :
    Quiet c x k (findInSupers call link field none mode names count t) := by
  induction names generalizing count t with
  | nil => exact .pure
  | cons name names ih =>
    have hrest := ih fun name hname => hnames name (List.mem_cons_of_mem _ hname)
    refine .bind (quiet_linkedSuper hcall hc (hnames name List.mem_cons_self)) fun o => ?_
    cases o with
    | none => exact .bind (.warning (by decide) _ _) fun _ => hrest _ _
    | some s => exact .bind (hcall.findMember c k s field t mode hc) fun _ => hrest _ _

/-- A name that several classes have is reported as ambiguous, which is another report. -/
theorem quiet_findInExtends (hcall : Hushed x call) (hc : c.Distinct x) (link field : NodeId)
    (t : Tally) : Quiet c x k (findInExtends call link field t none mode) := by
  refine .withLock (.arena_bind fun d hd => ?_)
  rw [hd.tree.superNames hc.consistent]
  refine .bind (quiet_findInSupers hcall hc field _ (fun _ => id) 0 t) fun r => ?_
  obtain ⟨count, t⟩ := r
  dsimp only
  split
  · exact .pure
  · split
    · exact .nameOf_bind fun _ _ => .bind (.error (by decide) _ _) fun _ => .pure
    · exact .pure

theorem quiet_findMember (hcall : Hushed x call) (hc : c.Distinct x) (link field : NodeId)
    (t : Tally) : Quiet c x k (findMember call link field t none mode) := by
  have hbody : Quiet c x k (findInBody call link field t none mode) :=
    .withLock (.arena_bind fun _ _ => quiet_scan _ t fun list t =>
      hcall.findInList c k list field t mode hc)
  refine .bind hbody fun r => ?_
  obtain ⟨found, t⟩ := r
  dsimp only
  split
  · exact .pure
  · exact quiet_findInExtends hcall hc link field t

theorem quiet_linkField (field found : NodeId) : Quiet c x k (linkField field found) := by
  refine .arena_bind fun d hd => ?_
  split
  · next hnone => exact .setLink (hd.link_none hnone) _
  · split
    · exact .internal
    · exact .pure

/-- The candidates for a member are reported under the name of the member. -/
theorem quiet_findField (hcall : Hushed x call) (hc : c.Distinct x) {field : NodeId}
    (hlt : field.index < c.arena.size) (hfield : c.arena.name field ≠ x) (link : NodeId)
    (funcs : Nat) : Quiet c x k (findField call link field funcs none mode) := by
  refine .withFreshRejections (.bind (hcall.findMember c k link field _ mode hc) fun r => ?_)
  obtain ⟨found, t⟩ := r
  dsimp only
  split
  · refine .bind (.reportRejections fun d hd => ?_) fun _ => .pure
    rw [hd.tree.name hlt]
    exact hfield
  · split
    · split
      · exact .bind (quiet_linkField field _) fun _ => .pure
      · exact .pure
    · exact .pure

theorem quiet_selectMember (found : Option NodeId × Nat) :
    Quiet c x k (selectMember call found none) := by
  rw [selectMember, if_pos (by simp)]
  exact .pure

theorem quiet_classOfObject (hcall : Hushed x call) (hc : c.Distinct x) (object : NodeId) :
    Quiet c x k (classOfObject call object) := by
  have htyped : ∀ ty, c.arena.IsTypeOf ty object → Quiet c x k (linkedClass call ty) :=
    fun ty hty => quiet_linkedClass hcall hc
      (hc.consistent.child_lt object ty (List.mem_of_find?_eq_some hty.2))
      fun h => hc.consults ty (.typed hty h)
  refine .arena_bind fun d hd => ?_
  split
  · next hk =>
    split
    · next ty hty => exact htyped ty (hd.tree.isTypeOf hc.consistent ⟨.inl hk, hty⟩)
    · exact .bind (.warning (by decide) _ _) fun _ => .pure
  · next hk =>
    split
    · next ty hty => exact htyped ty (hd.tree.isTypeOf hc.consistent ⟨.inr hk, hty⟩)
    · exact .bind (.warning (by decide) _ _) fun _ => .pure
  · exact .pure
  · exact .pure
  · exact .bind (.error (by decide) _ _) fun _ => .pure

theorem quiet_resolveField (hcall : Hushed x call) (hc : c.Distinct x) {field : NodeId}
    (hlt : field.index < c.arena.size) (hfield : c.arena.name field ≠ x) (object : NodeId) :
    Quiet c x k (resolveField call object field none mode) := by
  refine .bind (quiet_classOfObject hcall hc object) fun o => ?_
  cases o with
  | none => exact .pure
  | some link =>
    refine .arena_bind fun _ _ => ?_
    split
    · exact .bind (quiet_findField hcall hc hlt hfield link 0) quiet_selectMember
    · exact .pure

/-! ## Declarations -/

theorem quiet_protectedRejection (hcall : Hushed x call) (hc : c.Distinct x)
    (id declaration : NodeId) : Quiet c x k (protectedRejection call id declaration) := by
  refine .bind (quiet_isMemberDerivedFrom hcall hc id declaration) fun r => ?_
  obtain ⟨derived, owner⟩ := r
  dsimp only
  split
  · exact .pure
  · refine .arena_bind fun _ _ => ?_
    split
    · exact .pure
    · exact .pure

theorem quiet_rejection (hcall : Hushed x call) (hc : c.Distinct x) (id declaration : NodeId) :
    Quiet c x k (rejection call id declaration) := by
  refine .bind (quiet_hasAttribute hcall hc declaration _) fun b => ?_
  extract_lets none_ internal_ protected_
  have hinternal : ∀ u, Quiet c x k (internal_ u) := by
    intro u
    refine .bind (quiet_hasAttribute hcall hc declaration _) fun b => ?_
    split
    · refine .arena_bind fun _ _ => ?_
      split
      · exact .pure
      · exact .pure
    · exact .pure
  have hprotected : ∀ u, Quiet c x k (protected_ u) := by
    intro u
    refine .bind (quiet_hasAttribute hcall hc declaration _) fun b => ?_
    split
    · refine .bind (quiet_protectedRejection hcall hc id declaration) fun o => ?_
      split
      · exact .pure
      · exact hinternal ()
    · exact hinternal ()
  split
  · refine .arena_bind fun _ _ => ?_
    split
    · exact .pure
    · exact hprotected ()
  · exact hprotected ()

theorem quiet_checkEnum (n : NodeId) (name : String) : Quiet c x k (checkEnum n name) := by
  refine .arena_bind fun _ _ => ?_
  split
  · exact .bind (.setFlag n (by decide)) fun _ => .pure
  · split
    · exact .bind (.setFlag _ (by decide)) fun _ => .pure
    · exact .pure

/-- An import that does not implement its package declares nothing. -/
theorem quiet_checkImport (hc : c.Distinct x) {n : NodeId} (hn : c.arena.kind n = .import_)
    (name : String) : Quiet c x k (checkImport call n name none mode) := by
  refine .ask_bind fun b d hd hflag => ?_
  obtain ⟨_, -, hvalue⟩ := bind_eq_ok_iff.1 hflag
  have hb : b = false := by
    by_contra hset
    rw [Bool.not_eq_false] at hset
    have hnone := hc.imports n hn
    rw [hd.tree.implements_ n ((Except.ok.inj hvalue).trans hset)] at hnone
    cases hnone
  rw [hb]
  exact .pure

theorem quiet_candidate (hcall : Hushed x call) (hc : c.Distinct x) (n id : NodeId) :
    Quiet c x k (candidate call n id none mode) := by
  refine .arena_bind fun d hd => ?_
  have hflag : Quiet c x k (do
      change fun a => a.setFlag id .identifierTyped true
      return Candidate.guarded n) := .bind (.setFlag id (by decide)) fun _ => .pure
  have hclass : Quiet c x k (do
      if (d.arena.typeNode n).isNone then
        write fun a => a.setLink n .typeNode (some n)
      change fun a => a.setFlag id .identifierTyped true
      return Candidate.guarded n) := by
    dsimp only
    split
    · next htype =>
      exact .bind (.setLink (hd.link_none (Option.isNone_iff_eq_none.1 htype)) _) fun _ => hflag
    · exact hflag
  dsimp only
  split
  · exact .pure
  · split
    · exact .bind (.setFlag n (by decide)) fun _ => .pure
    · exact .pure
  · refine .bind (quiet_isConstructor hcall hc n) fun o => ?_
    cases o with
    | some s => exact .arena_bind fun _ _ => .pure
    | none => exact .bind (quiet_checkFunction hcall hc n _ mode) fun _ => .pure
  · split
    · exact hclass
    · exact .pure
  · split
    · exact hclass
    · exact .pure
  · exact quiet_checkEnum n _
  · exact .pure
  · next hk =>
    refine .bind (quiet_checkImport hc (hd.tree.kind_eq (by decide) (by decide) hk) _) fun o => ?_
    cases o with
    | some m => exact .pure
    | none => exact .pure
  · exact .pure

/-- A candidate that is rejected is not reported, as long as the search goes on. -/
theorem quiet_checkName (hcall : Hushed x call) (hc : c.Distinct x) (list : NodeId) (index : Nat)
    (id : NodeId) : Quiet c x k (checkName call list index id none mode) := by
  refine .arena_bind fun _ _ => ?_
  split
  · exact .internal
  · refine .bind (quiet_candidate hcall hc _ id) fun o => ?_
    cases o with
    | none => exact .pure
    | open_ m => exact .pure
    | guarded m =>
      refine .bind (quiet_rejection hcall hc id m) fun o => ?_
      cases o with
      | some r => exact .bind (.reject r) fun _ => .pure
      | none =>
        refine .arena_bind fun _ _ => ?_
        rw [if_neg (by simp)]
        exact .pure

theorem quiet_tryChild (hcall : Hushed x call) (hc : c.Distinct x) (list id : NodeId)
    (index : Nat) (t : Tally) : Quiet c x k (tryChild call list id none mode index t) := by
  refine .bind (quiet_checkName hcall hc list index id) fun o => ?_
  cases o with
  | none => exact .pure
  | some n => exact .arena_bind fun _ _ => .pure

theorem quiet_findInList (hcall : Hushed x call) (hc : c.Distinct x) (list field : NodeId)
    (t : Tally) : Quiet c x k (findInList call list field t none mode) := by
  refine .withLock (.arena_bind fun _ _ => quiet_scan _ t fun index t => ?_)
  refine .ask_bind fun m _ _ _ => .arena_bind fun _ _ => ?_
  split
  · refine .bind (hcall.findInList c k m field t mode hc) fun r => ?_
    obtain ⟨found, t⟩ := r
    dsimp only
    split
    · exact .arena_bind fun _ _ => .pure
    · exact .pure
  · exact .pure
  · exact quiet_tryChild hcall hc list field index t

/-! ## Scopes -/

variable {id : NodeId}

theorem quiet_askChildren (hcall : Hushed x call) (hc : c.Distinct x) (list : NodeId)
    (places : List Nat) (t : Tally) :
    Quiet c x k (askChildren call ⟨id, none, mode⟩ list places t) :=
  .bind (quiet_scan places t fun index t => quiet_tryChild hcall hc list id index t)
    fun _ => .pure

theorem quiet_inDirectives (hcall : Hushed x call) (hc : c.Distinct x) (list : NodeId)
    (offset : Nat) (t : Tally) :
    Quiet c x k (inDirectives call ⟨id, none, mode⟩ list offset t) := by
  refine .arena_bind fun _ _ => ?_
  dsimp only
  split
  · exact .bind .internal fun _ => quiet_askChildren hcall hc list _ t
  · exact quiet_askChildren hcall hc list _ t

/-- The members of an object are looked for with a report of their own. -/
theorem quiet_inWith (hcall : Hushed x call) (hc : c.Distinct x) (hlt : id.index < c.arena.size)
    (hid : c.arena.name id ≠ x) (list : NodeId) (t : Tally) :
    Quiet c x k (inWith call ⟨id, none, mode⟩ list t) := by
  refine .arena_bind fun _ _ => ?_
  split
  · split
    · exact .pure
    · refine .bind (quiet_resolveField hcall hc hlt hid _) fun o => ?_
      cases o with
      | none => exact .pure
      | some found =>
        refine .bind (.setFlag id (by decide)) fun _ => ?_
        dsimp only
        split
        · exact .bind .internal fun _ => .pure
        · exact .pure
  · exact .pure

theorem quiet_inFunction (hcall : Hushed x call) (hc : c.Distinct x) (list : NodeId)
    (t : Tally) : Quiet c x k (inFunction call ⟨id, none, mode⟩ list t) := by
  refine .ask_bind fun b _ _ _ => ?_
  split
  · exact .pure
  · refine .arena_bind fun _ _ => ?_
    split
    · exact .pure
    · exact .withLock (.arena_bind fun _ _ => quiet_askChildren hcall hc _ _ t)

theorem quiet_inCatch (hcall : Hushed x call) (hc : c.Distinct x) (list : NodeId) (t : Tally) :
    Quiet c x k (inCatch call ⟨id, none, mode⟩ list t) := by
  refine .arena_bind fun _ _ => ?_
  split
  · exact .pure
  · split
    · exact .pure
    · exact quiet_askChildren hcall hc _ _ t

theorem quiet_inEnum (list : NodeId) (name : String) (t : Tally) :
    Quiet c x k (inEnum list name t) := by
  refine .arena_bind fun _ _ => ?_
  split
  · exact .pure
  · exact .bind (.setFlag _ (by decide)) fun _ => .pure

theorem quiet_inClass (hcall : Hushed x call) (hc : c.Distinct x) (list : NodeId) (t : Tally) :
    Quiet c x k (inClass call ⟨id, none, mode⟩ list t) := by
  refine .bind (quiet_findInExtends hcall hc list id t) fun r => ?_
  obtain ⟨found, t⟩ := r
  dsimp only
  split
  · exact .arena_bind fun _ _ => .pure
  · exact .pure

/-- No scope but a `with` reports anything. -/
theorem quiet_inScope (hcall : Hushed x call) (hc : c.Distinct x) (hlt : id.index < c.arena.size)
    {list : NodeId} (hlist : c.arena.kind list = .with_ → c.arena.name id ≠ x) (offset : Nat)
    (t : Tally) : Quiet c x k (inScope call ⟨id, none, mode⟩ list offset t) := by
  refine .arena_bind fun d hd => ?_
  dsimp only
  split
  · exact .bind (.setFlag list (by decide)) fun _ => .pure
  · refine .withLock ?_
    split
    · exact quiet_inDirectives hcall hc list offset t
    · exact quiet_askChildren hcall hc list _ t
    · next hk =>
      exact quiet_inWith hcall hc hlt (hlist (hd.tree.kind_eq (by decide) (by decide) hk)) list t
    · exact quiet_inFunction hcall hc list t
    · exact quiet_askChildren hcall hc list _ t
    · exact quiet_inCatch hcall hc list t
    · exact quiet_inEnum list _ t
    · exact quiet_inClass hcall hc list t
    · exact quiet_inClass hcall hc list t
    · exact .internal

/-! ### The walk through the scopes -/

section

-- how the walk ends is left open: it may end with a report
variable {J : Option NodeId → Context → Prop}

theorem tracked_walkImports (hcall : Hushed x call) (hc : c.Distinct x)
    (hlt : id.index < c.arena.size) (hJ : ∀ o d, Tracked c x k d → J o d)
    (hend : ∀ t, Yields (Tracked c x k) (conclude call ⟨id, none, mode⟩ t) J)
    (imports : List (Context → Option NodeId))
    (himports : ∀ i ∈ imports, ∀ d, Tracked c x k d → i d = i c)
    (hlists : ∀ i ∈ imports, ∀ list, c.shared i = some list → c.arena.kind list = .with_ →
      c.arena.name id ≠ x) (t : Tally) :
    Yields (Tracked c x k) (walkImports call ⟨id, none, mode⟩ imports t) J := by
  induction imports generalizing t with
  | nil => exact hend t
  | cons i imports ih =>
    have hrest := ih (fun i hi => himports i (List.mem_cons_of_mem _ hi))
      fun i hi => hlists i (List.mem_cons_of_mem _ hi)
    refine Yields.get_bind fun d hd => ?_
    have hshared : ((i d).bind fun program => (d.arena.children program).head?) = c.shared i := by
      rw [himports i List.mem_cons_self d hd, funext hd.tree.children]
      rfl
    rw [hshared]
    split
    · exact (hrest t).start hd
    · next list hlist =>
      refine ((quiet_inScope hcall hc hlt (hlists i List.mem_cons_self list hlist) 0 t).start
        hd).bind fun s => ?_
      cases s with
      | ended answer => exact Yields.pure (hJ answer)
      | next t => exact hrest t

theorem tracked_walkScopes (hcall : Hushed x call) (hc : c.Distinct x)
    (hlt : id.index < c.arena.size) (hJ : ∀ o d, Tracked c x k d → J o d)
    (hend : ∀ t, Yields (Tracked c x k) (conclude call ⟨id, none, mode⟩ t) J)
    (himports : ∀ i ∈ [Context.globalImport, Context.systemImport, Context.nativeImport],
      ∀ list, c.shared i = some list → c.arena.kind list = .with_ → c.arena.name id ≠ x)
    (fuel : Nat) (n : NodeId)
    (hscopes : ∀ w, c.arena.Above n w → c.arena.kind w = .with_ → c.arena.name id ≠ x)
    (t : Tally) : Yields (Tracked c x k) (walkScopes call ⟨id, none, mode⟩ fuel n t) J := by
  induction fuel generalizing n t with
  | zero => exact Yields.throw
  | succ fuel ih =>
    refine Yields.arena_bind fun d hd => ?_
    split
    · exact Yields.fail
    · next list offset hscope =>
      have habove : c.arena.Above n list := by
        have h : d.arena.Above n list := below_of_enclosingScope hscope
        rwa [Arena.Above, funext hd.tree.parent] at h
      split
      · refine (tracked_walkImports hcall hc hlt hJ hend _ ?_ himports t).start hd
        intro i hi e he
        simp only [List.mem_cons, List.not_mem_nil, or_false] at hi
        rcases hi with rfl | rfl | rfl
        · exact he.globalImport
        · exact he.systemImport
        · exact he.nativeImport
      · refine ((quiet_inScope hcall hc hlt (hscopes list habove) offset t).start hd).bind
          fun s => ?_
        cases s with
        | ended answer => exact Yields.pure (hJ answer)
        | next t => exact ih list (fun w hw => hscopes w (habove.trans hw)) t

end

/-! ## Names that are spelt otherwise -/

theorem quiet_conclude (hlt : id.index < c.arena.size) (hid : c.arena.name id ≠ x) (t : Tally) :
    Quiet c x k (conclude call ⟨id, none, mode⟩ t) := by
  unfold conclude
  extract_lets go
  have hgo : ∀ best, Quiet c x k (go best) := by
    intro best
    cases best with
    | none =>
      refine .bind (.reportRejections fun d hd => ?_) fun _ => .pure
      rw [hd.tree.name hlt]
      exact hid
    | some n => exact .pure
  split
  · exact .bind .internal hgo
  · exact .bind .pure hgo

theorem quiet_resolveMember (hcall : Hushed x call) (hc : c.Distinct x) {member : NodeId}
    (hk : c.arena.kind member = .member) (hm : c.arena.Apart x member) (list : NodeId) :
    Quiet c x k (resolveMember call list member none mode) := by
  cases hm with
  | name hname => exact absurd hk hname
  | member _ hobject hfield =>
    refine .arena_bind fun d hd => ?_
    split
    · next object field hchildren =>
      rw [hd.tree.children] at hchildren
      have hlt : ∀ p ∈ [object, field], p.index < c.arena.size := fun p hp =>
        hc.consistent.child_lt member p (hchildren ▸ hp)
      have hfield := hfield object field hchildren
      refine .bind (hcall.resolveName c k list object mode hc (hlt object (by simp))
        (hobject object field hchildren)) fun o => ?_
      cases o with
      | none => exact .pure
      | some scope =>
        refine .arena_bind fun _ _ => ?_
        split
        · exact .bind (quiet_findField hcall hc (hlt field (by simp)) hfield scope 0)
            quiet_selectMember
        · split
          · exact .pure
          · exact .bind (.setFlag _ (by decide)) fun _ => .pure
        · exact quiet_resolveField hcall hc (hlt field (by simp)) hfield scope
    · exact .internal

/-- A name that is spelt otherwise is looked up without a report. -/
theorem quiet_resolveName (hcall : Hushed x call) (hc : c.Distinct x)
    (hlt : id.index < c.arena.size) (hid : c.arena.Apart x id) (list : NodeId) :
    Quiet c x k (resolveName call list id none mode) := by
  refine .withFreshRejections (.arena_bind fun d hd => ?_)
  rw [hd.tree.kind id hlt]
  split
  · next hk => exact quiet_resolveMember hcall hc hk hid list
  · next hk =>
    have hname : c.arena.name id ≠ x := by
      cases hid with
      | name _ hx => exact hx
      | member hk' => exact absurd hk' hk
    split
    · exact .internal
    · split
      · exact .pure
      · exact tracked_walkScopes hcall hc hlt (fun _ _ h => h) (quiet_conclude hlt hname)
          (fun _ _ _ _ _ => hname) _ _ (fun _ _ _ => hname) {}

/-- However deep they nest, requests for other names report nothing about the name. -/
theorem hushed_answer (x : String) (fuel : Nat) : Hushed x (answer fuel) := by
  induction fuel with
  | zero =>
    exact ⟨fun _ _ _ _ _ _ _ _ => .throw, fun _ _ _ _ => .throw, fun _ _ _ _ _ _ _ => .throw,
      fun _ _ _ _ _ => .throw, fun _ _ _ _ _ _ _ => .throw, fun _ _ _ _ _ _ _ => .throw⟩
  | succ fuel ih =>
    exact {
      resolveName := fun c k list id mode hc hlt hid => quiet_resolveName ih hc hlt hid list
      effectiveAttributes := fun c k n hc => quiet_effectiveAttributes ih hc n
      addListed := fun c k n e s hc he => quiet_addListed ih hc n he s
      isDerivedFrom := fun c k derived base hc => quiet_isDerivedFrom ih hc derived base
      findMember := fun c k link field t mode hc => quiet_findMember ih hc link field t
      findInList := fun c k list field t mode hc => quiet_findInList ih hc list field t }

/-! ## The name itself -/

/-- There were `k` reports before, and there is one more at most, and none if something was
found. -/
def Reported (x : String) (k : Nat) (o : Option NodeId) (d : Context) : Prop :=
  (o.isSome = true → d.reports x = k) ∧ d.reports x ≤ k + 1

theorem Tracked.reported {d : Context} (h : Tracked c x k d) (o : Option NodeId) :
    Reported x k o d :=
  ⟨fun _ => h.reports, h.reports ▸ Nat.le_succ _⟩

theorem tracked_reportRejections (n : NodeId) :
    Yields (Tracked c x k) (reportRejections n) fun _ d => d.reports x ≤ k + 1 := by
  refine Yields.get_bind fun d hd => Yields.bind (Q := fun _ e => e.reports x = k)
    (Yields.modify fun e he => he ▸ hd.reports) fun _ => ?_
  dsimp only
  split
  · exact Yields.pure fun e he => he ▸ Nat.le_succ _
  · refine (Yields.nameOf n).bind fun _ => Yields.modify fun e he => ?_
    exact Nat.le_trans Diagnostics.reports_emit_le (Nat.succ_le_succ (Nat.le_of_eq he.1))

/-- Only at the end of a search that found nothing there is a report. -/
theorem tracked_conclude (t : Tally) :
    Yields (Tracked c x k) (conclude call ⟨id, none, mode⟩ t) (Reported x k) := by
  unfold conclude
  extract_lets go
  split
  · exact Yields.bind (Q := fun _ _ => False) Yields.internal fun _ _ h => h.elim
  · refine (tracked_reportRejections id).bind fun _ => Yields.pure fun d hd => ⟨nofun, hd⟩

/-- **A name is reported once at most, and not at all if it is found.**  The candidates for a name
that were rejected on the way are reported when the search has failed, in one message.

This holds of a name that is spelt otherwise than the names that are looked up on the way, and where
no search with a report of its own is started for it: an import that implements its package is
nowhere, and no scope around the place is a `with`. -/
theorem reports_resolveName {d : Context} {list id : NodeId} {o : Option NodeId}
    (hdistinct : c.Distinct (c.arena.name id))
    (hmember : c.arena.kind id = .member → c.arena.Apart (c.arena.name id) id)
    (hscopes : ∀ w, c.arena.Above (c.arena.walkStart list) w → c.arena.kind w ≠ .with_)
    (hshared : ∀ i ∈ [Context.globalImport, Context.systemImport, Context.nativeImport],
      ∀ w, c.shared i = some w → c.arena.kind w ≠ .with_)
    (hr : (run (resolveName · list id none mode)).exec c = (.ok o, d)) :
    (o.isSome = true → d.reports (c.arena.name id) = c.reports (c.arena.name id)) ∧
      d.reports (c.arena.name id) ≤ c.reports (c.arena.name id) + 1 := by
  have hcall := hushed_answer (c.arena.name id) (fuel c)
  have hstart := Tracked.start (x := c.arena.name id) hdistinct.consistent
  have hlt : c.arena.kind id ≠ .unknown → id.index < c.arena.size := Arena.lt_size_of_kind_ne
  rw [exec_run] at hr
  by_cases hk : c.arena.kind id = .member
  · exact ((quiet_resolveName hcall hdistinct (hlt (by rw [hk]; decide)) (hmember hk)
      list).of_ok hstart hr).reported o
  · have hwalk : Yields (· = c) (resolveName (answer (fuel c)) list id none mode)
        (Reported (c.arena.name id) (c.reports (c.arena.name id))) := by
      refine Yields.withFreshRejections (P := (· = { c with rejections := Rejections.none }))
        (Q := Reported (c.arena.name id) (c.reports (c.arena.name id)))
        (Yields.arena_bind fun e he => ?_) (fun e he => by rw [he]) fun _ _ _ h => h
      subst he
      dsimp only
      rw [if_neg hk]
      split
      · exact Yields.internal
      · next hname =>
        have hid : id.index < c.arena.size := hlt fun hunknown => hname (by rw [hunknown]; rfl)
        split
        · exact Yields.pure fun e he => he ▸ (hstart.rejections _).reported _
        · exact (tracked_walkScopes hcall hdistinct hid (fun o _ h => h.reported o)
            tracked_conclude (fun i hi w hw hwith => absurd hwith (hshared i hi w hw)) _ _
            (fun w hw hwith => absurd hwith (hscopes w hw)) {}).start (hstart.rejections _)
    exact hwalk.of_ok rfl hr

/-! ### A candidate that is rejected -/

/-- The requests that make a program with a class `C` whose fields `x` and `y` are private.  Both
are used in a class that inherits from `C`, `x` is used in a `with` for it, and there is another
variable `x`. -/
def rejectedHistory : List Command :=
  [.create .program {}, .create .directiveList {},
   .create .class_ {}, .create .directiveList {}, .create .var {}, .create .variable_ {},
   .create .variable_ {},
   .create .class_ {}, .create .extends_ {}, .create .identifier {}, .create .directiveList {},
   .create .identifier {}, .create .identifier {},
   .create .with_ {}, .create .identifier {}, .create .directiveList {}, .create .identifier {},
   .create .var {}, .create .variable_ {},
   .setText ⟨2⟩ "C", .setText ⟨5⟩ "x", .setText ⟨6⟩ "y", .setText ⟨7⟩ "D", .setText ⟨9⟩ "C",
   .setText ⟨11⟩ "x", .setText ⟨12⟩ "y", .setText ⟨14⟩ "o", .setText ⟨16⟩ "x", .setText ⟨18⟩ "x",
   .setAttribute ⟨5⟩ .private_ true, .setAttribute ⟨6⟩ .private_ true,
   .appendChild ⟨0⟩ ⟨1⟩,
   .appendChild ⟨1⟩ ⟨2⟩, .appendChild ⟨2⟩ ⟨3⟩, .appendChild ⟨3⟩ ⟨4⟩, .appendChild ⟨4⟩ ⟨5⟩,
   .appendChild ⟨4⟩ ⟨6⟩,
   .appendChild ⟨1⟩ ⟨7⟩, .appendChild ⟨7⟩ ⟨8⟩, .appendChild ⟨8⟩ ⟨9⟩, .appendChild ⟨7⟩ ⟨10⟩,
   .appendChild ⟨10⟩ ⟨11⟩, .appendChild ⟨10⟩ ⟨12⟩,
   .appendChild ⟨1⟩ ⟨13⟩, .appendChild ⟨13⟩ ⟨14⟩, .appendChild ⟨13⟩ ⟨15⟩, .appendChild ⟨15⟩ ⟨16⟩,
   .appendChild ⟨1⟩ ⟨17⟩, .appendChild ⟨17⟩ ⟨18⟩,
   .setLink ⟨14⟩ .inst (some ⟨2⟩)]

/-- The context of that program. -/
def rejectedContext : Context := { arena := after rejectedHistory, parser := fun _ => .rejected }

theorem consistent_rejectedContext : rejectedContext.arena.Consistent :=
  .of_history rejectedHistory (by rw [rejectedContext])

/-- The only name that is looked up on the way is that of the class `C`. -/
theorem distinct_rejectedContext {x : String} (hx : x ≠ "C") (hobject : x ≠ "Object") :
    rejectedContext.Distinct x := by
  have hnode := Arena.forall_node (a := rejectedContext.arena)
    (P := fun d => d.kind ∉ [Kind.import_, .type] ∧ d.attributeNode = none)
    (by decide +kernel) (by decide)
  have hlists : ∀ n, ¬ rejectedContext.Lists n := by
    rintro n ⟨d, -, hn⟩
    rw [Arena.attributeEntries, Arena.attributeNode, (hnode d).2] at hn
    cases hn
  have hall : ∀ i < rejectedContext.arena.size,
      (∀ n ∈ rejectedContext.arena.superNames ⟨i⟩, n = ⟨9⟩) ∧
      ((rejectedContext.arena.kind ⟨i⟩ = .variable_ ∨ rejectedContext.arena.kind ⟨i⟩ = .param) →
        rejectedContext.arena.children ⟨i⟩ = []) := by
    decide +kernel
  refine ⟨consistent_rejectedContext, fun n hn => absurd hn ?_, hobject, fun n hn => ?_⟩
  · rintro hk
    exact (hnode n).1 (by rw [show (rejectedContext.arena.node n).kind = _ from hk]; simp)
  · cases hn with
    | @super s h hn =>
      obtain ⟨clause, hclause, -⟩ := List.mem_flatMap.1 h
      rw [(hall s.index (Arena.lt_size_of_mem_children hclause)).1 n h]
      exact .name (by decide +kernel) fun hname => hx (hname.symm.trans (by decide +kernel))
    | @typed v h hn =>
      have hmem := List.mem_of_find?_eq_some h.2
      rw [(hall v.index (Arena.lt_size_of_mem_children hmem)).2 h.1] at hmem
      cases hmem
    | @declared f h hf =>
      obtain ⟨ty, -, hty⟩ := List.exists_of_findSome?_eq_some h
      split at hty
      · next hk =>
        exact absurd (by rw [show (rejectedContext.arena.node ty).kind = _ from hk]; simp)
          (hnode ty).1
      · cases hty
    | listed h hn =>
      rcases h with h | ⟨⟨e, he, -⟩, -⟩
      · exact absurd h (hlists n)
      · exact absurd he (hlists e)

/-- Around the class `D` there are only the program and its list. -/
theorem above_rejectedContext {n w : NodeId} (hn : n = ⟨11⟩ ∨ n = ⟨12⟩)
    (h : rejectedContext.arena.Above n w) : rejectedContext.arena.kind w ≠ .with_ := by
  have hplaces : ∀ m ∈ [(⟨11⟩ : NodeId), ⟨12⟩, ⟨10⟩, ⟨7⟩, ⟨1⟩, ⟨0⟩],
      rejectedContext.arena.kind m ≠ .with_ ∧ ∀ p ∈ rejectedContext.arena.parent m,
        p ∈ [(⟨11⟩ : NodeId), ⟨12⟩, ⟨10⟩, ⟨7⟩, ⟨1⟩, ⟨0⟩] := by
    decide +kernel
  have hmem : w ∈ [(⟨11⟩ : NodeId), ⟨12⟩, ⟨10⟩, ⟨7⟩, ⟨1⟩, ⟨0⟩] := by
    induction h with
    | single hp => exact (hplaces n (by rcases hn with rfl | rfl <;> simp)).2 _ hp
    | tail _ hp ih => exact (hplaces _ ih).2 _ hp
  exact (hplaces w hmem).1

/-- In a class that inherits from `C` the other variable `x` is found and nothing is reported, and
`y` is reported once. -/
theorem reports_resolveName_inherited :
    (∃ d, (run (resolveName · ⟨11⟩ ⟨11⟩ none {})).exec rejectedContext = (.ok (some ⟨18⟩), d) ∧
      d.reports "x" = 0) ∧
    ∃ d, (run (resolveName · ⟨12⟩ ⟨12⟩ none {})).exec rejectedContext = (.ok none, d) ∧
      d.reports "y" = 1 := by
  have hnames : (rejectedContext.arena.name ⟨11⟩ = "x" ∧
      rejectedContext.arena.kind ⟨11⟩ ≠ .member ∧ rejectedContext.arena.walkStart ⟨11⟩ = ⟨11⟩) ∧
      rejectedContext.arena.name ⟨12⟩ = "y" ∧ rejectedContext.arena.kind ⟨12⟩ ≠ .member ∧
      rejectedContext.arena.walkStart ⟨12⟩ = ⟨12⟩ := by
    decide +kernel
  obtain ⟨⟨hx, hkx, hsx⟩, hy, hky, hsy⟩ := hnames
  have hrunx : (run (resolveName · ⟨11⟩ ⟨11⟩ none {})).exec rejectedContext =
      (.ok (some ⟨18⟩), _) := exec_of_toOption (by decide +kernel)
  have hruny : (run (resolveName · ⟨12⟩ ⟨12⟩ none {})).exec rejectedContext =
      (.ok none, _) := exec_of_toOption (by decide +kernel)
  have hshared : ∀ i ∈ [Context.globalImport, Context.systemImport, Context.nativeImport],
      ∀ w, rejectedContext.shared i = some w → rejectedContext.arena.kind w ≠ .with_ := by
    intro i hi w hw
    simp only [List.mem_cons, List.not_mem_nil, or_false] at hi
    rcases hi with rfl | rfl | rfl <;> cases hw
  have hdx : rejectedContext.Distinct (rejectedContext.arena.name ⟨11⟩) := by
    rw [hx]
    exact distinct_rejectedContext (by decide) (by decide)
  have hdy : rejectedContext.Distinct (rejectedContext.arena.name ⟨12⟩) := by
    rw [hy]
    exact distinct_rejectedContext (by decide) (by decide)
  have hfound := reports_resolveName hdx (fun hk => absurd hk hkx)
    (fun w hw => above_rejectedContext (.inl rfl) (hsx ▸ hw)) hshared hrunx
  have hmissed := reports_resolveName hdy (fun hk => absurd hk hky)
    (fun w hw => above_rejectedContext (.inr rfl) (hsy ▸ hw)) hshared hruny
  rw [hx] at hfound
  rw [hy] at hmissed
  refine ⟨⟨_, hrunx, hfound.1 rfl⟩, _, hruny, Nat.le_antisymm hmissed.2 ?_⟩
  decide +kernel

/-- In a `with` for the class `C` the other variable `x` is found too, and the rejected field is
reported. -/
theorem reports_name_found_outside : ¬ ∀ (c : Context) (list id found : NodeId)
    (mode : SearchMode) (d : Context), c.Distinct (c.arena.name id) →
    (run (resolveName · list id none mode)).exec c = (.ok (some found), d) →
    d.reports (c.arena.name id) = c.reports (c.arena.name id) := by
  intro h
  have hname : rejectedContext.arena.name ⟨16⟩ = "x" := by decide +kernel
  have hrun : (run (resolveName · ⟨16⟩ ⟨16⟩ none {})).exec rejectedContext =
      (.ok (some ⟨18⟩), _) := exec_of_toOption (by decide +kernel)
  have hnone := h rejectedContext ⟨16⟩ ⟨16⟩ ⟨18⟩ {} _
    (by rw [hname]; exact distinct_rejectedContext (by decide) (by decide)) hrun
  rw [hname] at hnone
  exact absurd hnone (by decide +kernel)

end Search

end SymbolTree
