import SymbolTree.Proofs.Search.Nearby
import SymbolTree.Proofs.Search.Visible.Type

/-!
# Members and declarations in a search without arguments

What is found in a list of directives, in a class with those that it inherits from or in an imported
package may be seen from the name that was asked for (`Search.Found`).

An import asks for a name of its own that stands nowhere.  Such a name sees neither private nor
protected nor internal declarations, so that what it finds may be seen from everywhere
(`Search.Found.of_nowhere`).

## Main statements

* `Search.retaining_checkName` — the declaration of a name at some place may be seen from the name.
* `Search.retaining_findMember`, `Search.retaining_checkImport` — so may members and imported
  declarations.
-/

set_option autoImplicit false
namespace SymbolTree

/-- What was found so far may still be seen later on. -/
theorem Tally.Holds.retains {t : Tally} {c d : Context} {field : NodeId} (h : t.Holds c field)
    (hd : Search.Retains c d) : t.Holds d field :=
  fun n hn => hd.found (h n hn)

namespace Search

variable {call : Call} {c d : Context} {id field : NodeId}

/-! ## Members -/

/-- What one step keeps of what was found is kept by all of them. -/
theorem retaining_scan {α : Type} {P : Tally → Context → Prop}
    {step : α → Tally → Search (Bool × Tally)}
    (h : ∀ x d t, P t d → Retaining d (step x t) fun r e => P r.2 e) (xs : List α) {t : Tally}
    (ht : P t c) : Retaining c (scan step xs t) fun r d => P r.2 d := by
  induction xs generalizing c t with
  | nil => exact .pure ht
  | cons x xs ih =>
    refine (h x c t ht).bind fun r d _ hr => ?_
    obtain ⟨ended, t⟩ := r
    dsimp only
    split
    · exact .pure hr
    · exact ih hr

/-- Each super class is asked in turn, and what one of them gave is still seen when the next one is
asked. -/
theorem retaining_findInSupers (hcall : VisibleCalls call) (link : NodeId) (mode : SearchMode)
    (names : List NodeId) (count : Nat) {t : Tally} (ht : t.Holds c field) :
    Retaining c (findInSupers call link field none mode names count t) fun r d =>
      r.2.Holds d field := by
  induction names generalizing c count t with
  | nil => exact .pure ht
  | cons name names ih =>
    refine (retaining_linkedClass hcall name).bind fun o d hd _ => ?_
    cases o with
    | none => exact (Proceeds.warning ..).bind fun _ e he _ => ih _ ((ht.retains hd).retains he)
    | some x =>
      exact (hcall.findMember d x field t mode (ht.retains hd)).bind fun r e _ hr => ih _ hr

theorem retaining_findInExtends (hcall : VisibleCalls call) (link : NodeId) (mode : SearchMode)
    {t : Tally}
    (ht : t.Holds c field) :
    Retaining c (findInExtends call link field t none mode) fun r d => r.2.Holds d field := by
  refine .of_start fun hc => .withLock (.lock · _) (fun _ => .arena_bind ?_)
    fun _ _ _ he _ h => h.retains he
  refine (retaining_findInSupers hcall link mode _ 0 (ht.retains (.lock hc link))).bind
    fun r d _ hr => ?_
  obtain ⟨count, t⟩ := r
  dsimp only
  split
  · exact .pure hr
  · split
    · exact (Proceeds.nameOf field).bind fun _ _ he _ => (Proceeds.error ..).bind fun _ _ hf _ =>
        .pure (((show t.Holds d field from hr).retains he).retains hf)
    · exact .pure hr

theorem retaining_findInBody (hcall : VisibleCalls call) (link : NodeId) (mode : SearchMode)
    {t : Tally}
    (ht : t.Holds c field) :
    Retaining c (findInBody call link field t none mode) fun r d => r.2.Holds d field :=
  .of_start fun hc => .withLock (.lock · _)
    (fun _ => .arena_bind (retaining_scan (P := fun t d => t.Holds d field)
    (fun list d t ht => hcall.findInList d list field t mode ht) _ (ht.retains (.lock hc link))))
    fun _ _ _ he _ h => h.retains he

/-- The class itself first, then what it inherits from. -/
theorem retaining_findMember (hcall : VisibleCalls call) (link : NodeId) (mode : SearchMode)
    {t : Tally}
    (ht : t.Holds c field) :
    Retaining c (findMember call link field t none mode) fun r d => r.2.Holds d field := by
  refine (retaining_findInBody hcall link mode ht).bind fun r d _ hr => ?_
  obtain ⟨found, t⟩ := r
  dsimp only
  split
  · exact .pure hr
  · exact retaining_findInExtends hcall link mode hr

/-- The answer of a search, if there is one, may be seen. -/
def Shown (id : NodeId) (o : Option NodeId) (c : Context) : Prop := ∀ n, o = some n → Found c id n

theorem shown_none : Shown id none c := nofun

theorem Found.shown {n : NodeId} (h : Found c id n) : Shown id (some n) c :=
  fun m hm => by cases hm; exact h

/-- What is shown stays shown. -/
theorem Shown.retains {o : Option NodeId} (h : Shown id o c) (hd : Retains c d) : Shown id o d :=
  fun n hn => hd.found (h n hn)

theorem retaining_linkField (field found : NodeId) :
    Retaining c (linkField field found) fun _ _ => True := by
  refine Retaining.of_follows (follows_linkField field found) fun d => ?_
  rw [linkField, exec_arena_bind]
  cases d.arena.inst field with
  | none => rfl
  | some other =>
    dsimp only
    split <;> rfl

/-- The member of a class, if there is one, may be seen from the name of the field. -/
theorem retaining_findField (hcall : VisibleCalls call) (link field : NodeId) (funcs : Nat)
    (mode : SearchMode) :
    Retaining c (findField call link field funcs none mode) fun r d => Shown field r.1 d := by
  refine .withFreshRejections (fun _ => ?_) fun _ _ _ he _ h => h.retains he
  refine (hcall.findMember _ link field { funcs } mode nofun).bind fun r d _ hr => ?_
  obtain ⟨found, t⟩ := r
  have hshown : Shown field t.found d := hr
  dsimp only
  split
  · exact (Proceeds.reportRejections field).bind fun _ _ _ _ => .pure shown_none
  · split
    · cases hfound : t.found with
      | none => exact .pure shown_none
      | some n =>
        rw [hfound] at hshown
        exact (retaining_linkField field n).bind fun _ _ he _ => .pure (hshown.retains he)
    · exact .pure hshown

theorem retaining_selectMember (found : Option NodeId × Nat) (h : Shown id found.1 c) :
    Retaining c (selectMember call found none) fun o d => Shown id o d := by
  rw [selectMember]
  rw [if_pos (by simp)]
  exact .pure h

theorem retaining_classOfObject (hcall : VisibleCalls call) (object : NodeId) :
    Retaining c (classOfObject call object) fun _ _ => True := by
  refine .arena_bind ?_
  split
  iterate 2
    split
    · exact (retaining_linkedClass hcall _).mono fun _ _ _ _ => trivial
    · exact (Proceeds.warning ..).bind fun _ _ _ _ => .pure trivial
  · exact .pure trivial
  · exact .pure trivial
  · exact (Proceeds.error ..).bind fun _ _ _ _ => .pure trivial

/-- And so may the member of an object. -/
theorem retaining_resolveField (hcall : VisibleCalls call) (object field : NodeId)
    (mode : SearchMode) :
    Retaining c (resolveField call object field none mode) fun o d => Shown field o d := by
  refine (retaining_classOfObject hcall object).bind fun o d _ _ => ?_
  cases o with
  | none => exact .pure shown_none
  | some link =>
    refine .arena_bind ?_
    split
    · exact (retaining_findField hcall link field 0 mode).bind fun found e _ h =>
        retaining_selectMember found h
    · exact .pure shown_none

/-! ## Imports -/

/-- A name that stands nowhere sees nothing private, protected or internal, so what it sees is seen
by every name. -/
theorem Found.of_nowhere {n : NodeId} (h : Found c id n) (hk : c.arena.kind id = .identifier)
    (hp : c.arena.parent id = none) (id' : NodeId) : Found c id' n := by
  have hancestors : c.arena.ancestors id = [] := by
    rw [Arena.ancestors]
    cases c.arena.size with
    | zero => rfl
    | succ k => rw [Arena.ancestorsFrom, hp]
  have hpackage : c.arena.findAncestor id [.package] = none := by
    rw [Arena.findAncestor, hancestors]
    rfl
  have hclass : c.arena.classOfMember id = none := by
    rw [Arena.classOfMember, hancestors, List.find?_cons, hk]
    rfl
  refine ⟨h.lt_size, fun hg => ?_⟩
  obtain ⟨s, hs, hpermits⟩ := h.seen hg
  refine ⟨s, hs, fun hp => ?_, fun hp => ?_, fun hp => ?_⟩
  · obtain ⟨o, -, ⟨-, ho⟩ | ⟨-, ho⟩⟩ := hpermits.ofPrivate hp
    · rw [hclass] at ho; cases ho
    · rw [hpackage] at ho; cases ho
  · obtain ⟨o, x, -, -, hx, -⟩ := hpermits.ofProtected hp
    rw [hclass] at hx; cases hx
  · obtain ⟨p, hp⟩ := hpermits.ofInternal hp
    rw [hpackage] at hp; cases hp

/-- What an import grants was checked: its attributes are known, it is not private, and internal
only if the import stands in a package. -/
def Admitted (c : Context) (import_ n : NodeId) : Prop :=
  ∃ s, c.attributeCache.lookup n = some s ∧ s.contains .private_ = false ∧
    (s.contains .internal = true → c.arena.SeesInternal import_)

/-- What an import admits, it admits later on. -/
theorem Retains.admitted {import_ n : NodeId} (h : Retains c d) (ha : Admitted c import_ n) :
    Admitted d import_ n := by
  obtain ⟨s, hs, hprivate, hinternal⟩ := ha
  exact ⟨s, h.lookup n s hs, hprivate, fun hi => h.seesInternal (hinternal hi)⟩

/-- The answer of an import, if there is one, may be seen and was checked. -/
def Granted (id import_ : NodeId) (o : Option NodeId) (c : Context) : Prop :=
  ∀ n, o = some n → Found c id n ∧ Admitted c import_ n

theorem granted_none {import_ : NodeId} : Granted id import_ none c := nofun

/-- The name that is created for an import stands nowhere, and the member it found has passed the
two checks of the import itself. -/
theorem retaining_importMember (hcall : VisibleCalls call) (id import_ package : NodeId)
    (name : String)
    (mode : SearchMode) :
    Retaining c (importMember call import_ package name none mode) (Granted id import_) := by
  refine retaining_createName fun new c₁ _ hk hp => .of_start fun hc => ?_
  have hlt : new.index < c₁.arena.size := Arena.lt_size_of_kind_ne (by rw [hk]; decide)
  refine (retaining_findField hcall package new 0 mode).bind fun found c₂ h₂ hfound => ?_
  refine (retaining_selectMember found hfound).bind fun o c₃ h₃ ho => ?_
  cases o with
  | none => exact .pure granted_none
  | some member =>
    have hall : Found c₃ id member := by
      refine (ho member rfl).of_nowhere ?_ ?_ id
      · rw [(h₂.trans h₃).grows.kind hlt, hk]
      · rw [(h₂.trans h₃).grows.parent hlt, hp]
    have hmark : ∀ d, Retains c₃ d → Admitted d import_ member → Retaining d (do
        markReferenced package
        return some member : Search (Option NodeId)) (Granted id import_) := fun d hd ha =>
      (retaining_markReferenced package).bind fun _ _ he _ => .pure fun n hn => by
        cases hn
        exact ⟨he.found (hd.found hall), he.admitted ha⟩
    refine (retaining_hasAttribute hcall hall.lt_size _).bind fun private_ c₄ h₄ hprivate => ?_
    obtain ⟨s, hs, rfl⟩ := hprivate
    split
    · exact .pure granted_none
    · next hprivate =>
      rw [Bool.not_eq_true] at hprivate
      have hlt₄ := h₄.lt hall.lt_size
      refine (retaining_hasAttribute hcall hlt₄ _).bind fun internal c₅ h₅ hinternal => ?_
      have hs₅ := h₅.lookup member s hs
      obtain ⟨s', hs', rfl⟩ := hinternal
      obtain rfl : s = s' := Option.some.inj (hs₅.symm.trans hs')
      dsimp only
      split
      · refine .arena_bind ?_
        split
        · exact .pure granted_none
        · next hpackage =>
          refine hmark c₅ (h₄.trans h₅) ⟨s, hs₅, hprivate, fun _ => ?_⟩
          exact Option.ne_none_iff_exists'.1 (by simpa using hpackage)
      · next hinternal =>
        exact hmark c₅ (h₄.trans h₅) ⟨s, hs₅, hprivate, fun hi => absurd hi hinternal⟩

theorem retaining_findPackageItem (hcall : VisibleCalls call) (id program import_ : NodeId)
    (name : String)
    (mode : SearchMode) :
    Retaining c (findPackageItem call program import_ name none mode) (Granted id import_) := by
  refine (Proceeds.nameOf import_).bind fun packageName d _ _ => .arena_bind ?_
  split
  · dsimp only
    split
    · exact (Proceeds.error ..).bind fun _ _ _ _ => .fail_bind trivial
    · exact .pure granted_none
  · split
    · exact .pure granted_none
    · exact (retaining_registerLabels _ _).bind fun _ _ _ _ =>
        retaining_importMember hcall id import_ _ name mode

/-- Whichever program an import leads to, what it yields is granted. -/
theorem retaining_checkImport (hcall : VisibleCalls call) (id import_ : NodeId) (name : String)
    (mode : SearchMode) :
    Retaining c (checkImport call import_ name none mode) (Granted id import_) := by
  refine .ask_bind (fun _ _ => trivial) fun b _ => ?_
  split
  · exact .pure granted_none
  · refine .get_bind ?_
    extract_lets go
    have hgo : ∀ own e, Granted id import_ own e → Retaining e (go own) (Granted id import_) := by
      intro own e hown
      cases own with
      | some found => exact .pure hown
      | none =>
        refine (retaining_findExternalPackage import_ name).bind fun o _ _ _ => ?_
        cases o with
        | none => exact .pure granted_none
        | some program => exact retaining_findPackageItem hcall id program import_ name _
    split
    · exact (retaining_findPackageItem hcall id _ import_ name mode).bind fun own e _ h =>
        hgo own e h
    · exact hgo none c granted_none

/-! ## Declarations -/

/-- A declaration that is not guarded is seen by every name. -/
theorem Found.of_not_guarded {n : NodeId} (hn : n.index < c.arena.size)
    (h : ¬ c.arena.Guarded n) : Found c id n :=
  ⟨hn, fun hg => absurd hg h⟩

/-- A node of another kind may be seen by everyone. -/
theorem Found.of_kind {n : NodeId} (hn : n.index < c.arena.size)
    (hk : c.arena.kind n ∉ [Kind.function, .class_, .interface, .variable_]) : Found c id n := by
  refine .of_not_guarded hn fun hg => hk ?_
  rw [Arena.Guarded, Kind.isClass] at hg
  simp only [Bool.or_eq_true, decide_eq_true_eq] at hg
  simp only [List.mem_cons, List.not_mem_nil, or_false]
  tauto

/-- The values of an enumeration may be seen by everyone. -/
theorem Found.of_enum (hc : c.arena.Consistent) {list v : NodeId} {name : String}
    (hk : c.arena.kind list = .enum) (hv : findVariable c.arena list name = some v) :
    Found c id v := by
  obtain ⟨hmem, hvar⟩ := of_findVariable hv
  refine .of_not_guarded (hc.child_lt list v hmem) ?_
  rintro (h | h | ⟨-, p, hp, hkp⟩)
  · rw [hvar] at h; cases h
  · rw [hvar] at h; cases h
  · rw [(hc.mem_children list v).1 hmem] at hp
    cases hp
    rw [hk] at hkp
    cases hkp

/-- What a node declares is there and, unless it remains to be checked, may be seen. -/
def Candidate.Fair (id : NodeId) : Candidate → Context → Prop
  | .none, _ => True
  | .open_ n, c => Found c id n
  | .guarded n, c => n.index < c.arena.size

theorem Candidate.fair_ofOption {o : Option NodeId} (h : ∀ n, o = some n → n.index < c.arena.size) :
    (Candidate.ofOption o).Fair id c := by
  cases o with
  | none => trivial
  | some n => exact h n rfl

theorem retaining_checkEnum {n : NodeId} (hk : c.arena.kind n = .enum) (name : String) :
    Retaining c (checkEnum n name) fun o d => o.Fair id d := by
  refine .of_start fun hc => .arena_bind ?_
  split
  · have hn : Found c id n := .of_kind (Arena.lt_size_of_kind_ne (by rw [hk]; decide))
      (by rw [hk]; decide)
    exact (Retaining.setFlag n _).bind fun _ _ hd _ => .pure (hd.found hn)
  · split
    · next v hv =>
      have hfound : Found c id v := .of_enum hc.consistent hk hv
      exact (Retaining.setFlag v _).bind fun _ _ hd _ => .pure (hd.found hfound)
    · exact .pure trivial

/-- A class is linked to itself when it is first found, which hides nothing. -/
theorem retaining_candidateClass {n : NodeId} (hn : n.index < c.arena.size) :
    Retaining c (do
      if (c.arena.typeNode n).isNone then
        write fun a => a.setLink n .typeNode (some n)
      change fun a => a.setFlag id .identifierTyped true
      return Candidate.guarded n) fun o d => o.Fair id d := by
  have hflag : ∀ d, Retains c d → Retaining d (do
      change fun a => a.setFlag id .identifierTyped true
      return Candidate.guarded n) fun o d => o.Fair id d := fun d hd =>
    (Retaining.setFlag id _).bind fun _ _ he _ => .pure (he.lt (hd.lt hn))
  refine .of_start fun hc => ?_
  dsimp only
  split
  · exact (Proceeds.modify (Retains.setType · n _)).bind
      fun _ d hd _ => hflag d hd
  · exact hflag c (.refl hc)

/-- One case for each kind of declaration: what it offers is open to every name or has still to be
checked. -/
theorem retaining_candidate (hcall : VisibleCalls call) {n : NodeId} (hn : n.index < c.arena.size)
    (id : NodeId) (mode : SearchMode) :
    Retaining c (candidate call n id none mode) fun o d => o.Fair id d := by
  refine .of_start fun hc => .arena_bind ?_
  dsimp only
  split
  · refine .pure (Candidate.fair_ofOption fun v hv => ?_)
    exact hc.consistent.child_lt n v (List.mem_of_find?_eq_some hv)
  · next hk =>
    split
    · have hfound : Found c id n := .of_kind hn (by rw [hk]; decide)
      exact (Retaining.setFlag n _).bind fun _ _ hd _ => .pure (hd.found hfound)
    · exact .pure trivial
  · refine (retaining_isConstructor hcall hn).bind fun o d hd ho => ?_
    cases o with
    | some x =>
      refine .arena_bind (.pure ?_)
      split
      · exact ho x rfl
      · trivial
    | none =>
      refine (retaining_checkFunction hcall (hd.lt hn) _ mode).bind fun o e he ho => ?_
      exact .pure (Candidate.fair_ofOption fun x hx => ho x hx ▸ he.lt (hd.lt hn))
  · split
    · exact retaining_candidateClass hn
    · exact .pure trivial
  · split
    · exact retaining_candidateClass hn
    · exact .pure trivial
  · next hk => exact retaining_checkEnum hk _
  · next hk =>
    refine .pure ?_
    split
    · exact Found.of_kind hn (by rw [hk]; decide)
    · trivial
  · refine (retaining_checkImport hcall id n _ mode).bind fun o d _ ho => ?_
    cases o with
    | none => exact .pure trivial
    | some m => exact .pure (ho m rfl).1
  · exact .pure trivial

/-- **What a place declares under a name may be seen from the name**, as the check of its visibility
stands between. -/
theorem retaining_checkName (hcall : VisibleCalls call) (list : NodeId) (index : Nat) (id : NodeId)
    (mode : SearchMode) :
    Retaining c (checkName call list index id none mode) fun o d => Shown id o d := by
  refine .of_start fun hc => .arena_bind ?_
  split
  · exact .internal
  · next n hn =>
    have hlt : n.index < c.arena.size :=
      hc.consistent.child_lt list n (List.mem_of_getElem? hn)
    refine (retaining_candidate hcall hlt id mode).bind fun o d _ ho => ?_
    cases o with
    | none => exact .pure shown_none
    | open_ m => exact .pure (Found.shown ho)
    | guarded m =>
      refine (retaining_rejection hcall id ho).bind fun o e he hseen => ?_
      cases o with
      | some r => exact (Proceeds.reject r).bind fun _ _ _ _ => .pure shown_none
      | none =>
        refine .arena_bind ?_
        rw [if_neg (by simp)]
        exact .pure (Found.shown ⟨he.lt ho, fun _ => hseen rfl⟩)

theorem retaining_tryChild (hcall : VisibleCalls call) (list id : NodeId) (mode : SearchMode)
    (index : Nat)
    {t : Tally} (ht : t.Holds c id) :
    Retaining c (tryChild call list id none mode index t) fun r d => r.2.Holds d id := by
  refine (retaining_checkName hcall list index id mode).bind fun o d hd ho => ?_
  cases o with
  | none => exact .pure (ht.retains hd)
  | some n => exact .arena_bind (.pure ho)

/-- A list inside a body is asked by a request, all other children directly. -/
theorem retaining_tryBodyChild (hcall : VisibleCalls call) (list : NodeId) (mode : SearchMode)
    (index : Nat)
    {t : Tally} (ht : t.Holds c field) :
    Retaining c (tryBodyChild call list field none mode index t) fun r d => r.2.Holds d field := by
  refine .ask_bind (fun _ _ => trivial) fun m _ => .arena_bind ?_
  split
  · refine (hcall.findInList c m field t mode ht).bind fun r e _ hr => ?_
    obtain ⟨found, t⟩ := r
    dsimp only
    split
    · exact .arena_bind (.pure hr)
    · exact .pure hr
  · exact .pure ht
  · exact retaining_tryChild hcall list field mode index ht

theorem retaining_findInList (hcall : VisibleCalls call) (list : NodeId) (mode : SearchMode)
    {t : Tally}
    (ht : t.Holds c field) :
    Retaining c (findInList call list field t none mode) fun r d => r.2.Holds d field :=
  .of_start fun hc => .withLock (.lock · _)
    (fun _ => .arena_bind (retaining_scan (P := fun t d => t.Holds d field)
      (fun index _ _ ht => retaining_tryBodyChild hcall list mode index ht) _
      (ht.retains (.lock hc list))))
    fun _ _ _ he _ h => h.retains he

end Search

end SymbolTree
