import SymbolTree.Proofs.Arena.Deed
import SymbolTree.Proofs.Search.Bounds.Match
import SymbolTree.Proofs.Search.Climbing

/-!
# Names stay in bounds

The lists of directives, the parameters and the scopes are gone through by place.  Whoever does so
holds a lock on the list, or asks for its first child at once.  The place from which the way came
into a scope is in range when the scope is locked, since nothing comes in between
(`Search.inBounds_inScope`).

## Main statements

* `Search.inBoundsCalls_answer` — whatever answers requests with a bounded number of calls inside
  each other stays in bounds.
* `Search.resolve_inBounds` — names and fields are never stopped because of a place that is out of
  range.
-/

set_option autoImplicit false
namespace SymbolTree.Search

variable {T : Arena → Prop} {call : Call} {params : Option NodeId}

/-! ## Members -/

/-- What holds at the beginning of a scan holds at each of its steps. -/
theorem inBounds_scan {α : Type} {step : α → Tally → Search (Bool × Tally)}
    (hT : ∀ b d : Arena, T b → b.Steady d → T d) {xs : List α}
    (h : ∀ x ∈ xs, ∀ t, InBounds T (step x t)) (t : Tally) : InBounds T (scan step xs t) := by
  induction xs generalizing t with
  | nil => exact .pure
  | cons x xs ih =>
    refine .bind_keep hT (h x List.mem_cons_self t) fun r => ?_
    obtain ⟨ended, t⟩ := r
    dsimp only
    split
    · exact .pure
    · exact ih (fun y hy => h y (List.mem_cons_of_mem x hy)) t

theorem inBounds_findInExtends (hcall : InBoundsCalls call) (link field : NodeId) (t : Tally)
    (mode : SearchMode) :
    InBounds (fun _ => True) (findInExtends call link field t params mode) :=
  modular_findInExtends hcall.typed.linkType hcall.answeredAll.findMember modular_inBounds link
    field t mode

theorem inBounds_findField (hcall : InBoundsCalls call) (link field : NodeId) (mode : SearchMode) :
    InBounds (fun _ => True) (findField call link field 0 params mode) :=
  modular_findField modular_inBounds hcall.answeredAll.findMember hcall.typed.linkField link field 0
    mode

theorem inBounds_resolveField (hcall : InBoundsCalls call) (object field : NodeId)
    (mode : SearchMode) :
    InBounds (fun _ => True) (resolveField call object field params mode) :=
  modular_resolveField (inBounds_selectBestFunction hcall params) (inBounds_findField hcall)
    modular_inBounds hcall.typed.linkType object field mode

/-! ## Modules and packages -/

/-- To build a module leads on steadily, whatever the module is. -/
theorem inBounds_buildModule (filename : String) (o : Outline) :
    InBounds (fun _ => True) (buildModule filename o) :=
  ⟨fun _ hc _ => Arena.Steady.build hc o (Position.ofFile filename)⟩

theorem inBounds_findModule (filename : String) :
    InBounds (fun _ => True) (findModule filename) :=
  modular_findModule modular_inBounds inBounds_buildModule filename

theorem inBounds_markReferenced (p : NodeId) :
    InBounds (fun _ => True) (markReferenced p) := by
  refine .bind (.flag p _) fun b => ?_
  split
  · exact .pure
  · exact .bind (.setFlag p _) fun _ => .modify fun _ => rfl

theorem inBounds_checkImport (hcall : InBoundsCalls call) (import_ : NodeId) (name : String)
    (mode : SearchMode) : InBounds (fun _ => True) (checkImport call import_ name params mode) :=
  modular_checkImport
    (modular_importMember (inBounds_selectBestFunction hcall params) (inBounds_findField hcall)
      modular_inBounds hcall.answered inBounds_markReferenced)
    modular_inBounds inBounds_findModule import_ name mode

/-! ## Declarations -/

theorem inBounds_candidate (hcall : InBoundsCalls call) (n id : NodeId) (mode : SearchMode) :
    InBounds (fun _ => True) (candidate call n id params mode) :=
  modular_candidate modular_inBounds hcall.answered hcall.typed .setLink
    (inBounds_checkImport hcall) n id mode

/-- There has to be a child at the place that is asked for. -/
theorem inBounds_checkName (hcall : InBoundsCalls call) (list : NodeId) (index : Nat) (id : NodeId)
    (mode : SearchMode) :
    InBounds (fun a => index < (a.children list).length)
      (checkName call list index id params mode) := by
  refine .arena_bind_at fun a _ hlt => .of_imp (S := fun _ => True) ?_ fun _ _ => trivial
  rw [List.getElem?_eq_getElem hlt]
  refine .bind (inBounds_candidate hcall _ id mode) fun o => ?_
  cases o with
  | none => exact .pure
  | open_ m => exact .pure
  | guarded m =>
    refine .bind (modular_rejection modular_inBounds hcall.answered id m) fun o => ?_
    split
    · exact .bind (.reject _) fun _ => .pure
    · refine .arena_bind fun a => ?_
      split
      · refine .bind (inBounds_checkFunctionWithParams hcall _ _) fun b => ?_
        split
        · exact .bind (.reject _) fun _ => .pure
        · exact .pure
      · exact .pure

theorem inBounds_tryChild (hcall : InBoundsCalls call) (list id : NodeId) (mode : SearchMode)
    (index : Nat) (t : Tally) :
    InBounds (fun a => index < (a.children list).length)
      (tryChild call list id params mode index t) := by
  refine .bind (inBounds_checkName hcall list index id mode) fun o => ?_
  cases o with
  | none => exact .pure
  | some n => exact .arena_bind fun _ => .pure

/-- The place is below the number of children that the lock on the list pins. -/
theorem inBounds_tryBodyChild (hcall : InBoundsCalls call) (list field : NodeId) (mode : SearchMode)
    {index k : Nat} (hk : index < k) (t : Tally) :
    InBounds (·.Pins list k) (tryBodyChild call list field params mode index t) := by
  refine .bind_keep (fun _ _ hb hd => hd.pins hb) (.ask fun b hb => ?_) fun c =>
    .arena_bind fun a => ?_
  · rw [Arena.child, List.getElem?_eq_getElem (hb.lt hk)]
    exact .ok
  · split
    · refine .bind (hcall.inBounds (.findInList c field t params mode)) fun r => ?_
      obtain ⟨found, t⟩ := r
      dsimp only
      split
      · exact .arena_bind fun _ => .pure
      · exact .pure
    · exact .pure
    · exact (inBounds_tryChild hcall list field mode index t).of_imp fun _ hb => hb.lt hk

/-- A list is locked while its children are asked. -/
theorem inBounds_findInList (hcall : InBoundsCalls call) (list field : NodeId) (t : Tally)
    (mode : SearchMode) : InBounds T (findInList call list field t params mode) := by
  refine .withLock_of (S := fun b => b.Pins list (b.children list).length) ?_ fun b hb _ =>
    Arena.pins_lock hb list
  refine .arena_bind_at fun a _ ha => .of_imp
    (S := (·.Pins list (a.children list).length)) ?_ fun b hb => hb ▸ ha
  exact inBounds_scan (fun _ _ hb hd => hd.pins hb)
    (fun index hi t => inBounds_tryBodyChild hcall list field mode (List.mem_range.1 hi) t) t

/-! ## Scopes -/

variable {q : Query}

/-- The places are below the number of children that the lock on the list pins. -/
theorem inBounds_askChildren (hcall : InBoundsCalls call) (list : NodeId) {places : List Nat}
    {k : Nat}
    (hk : ∀ i ∈ places, i < k) (t : Tally) :
    InBounds (·.Pins list k) (askChildren call q list places t) :=
  .bind (inBounds_scan (fun _ _ hb hd => hd.pins hb)
    (fun index hi t => (inBounds_tryChild hcall list q.id q.mode index t).of_imp
      fun _ hb => hb.lt (hk index hi)) t) fun _ => .pure

/-- The place from which the way came into a scope is one of its places, or the first one. -/
def Enters (list : NodeId) (offset : Nat) (a : Arena) : Prop :=
  offset < (a.children list).length ∨ offset = 0

/-- Entered at a child, a list has more children than come before it. -/
theorem inBounds_inDirectives (hcall : InBoundsCalls call) (list : NodeId) (offset : Nat)
    (t : Tally) :
    InBounds (fun b => b.Pins list (b.children list).length ∧ Enters list offset b)
      (inDirectives call q list offset t) := by
  refine .arena_bind_at fun a _ ha => .of_imp
    (S := (·.Pins list (a.children list).length)) ?_ fun b hb => hb ▸ ha.1
  have henters : offset < (a.children list).length ∨ offset = 0 := ha.2
  extract_lets size later
  rw [if_neg (by simp only [Bool.and_eq_true, decide_eq_true_eq]; omega)]
  refine inBounds_askChildren hcall list (fun i hi => ?_) t
  simp only [later, size, List.mem_append, List.mem_reverse, List.mem_range, List.mem_map] at hi
  rcases hi with hi | ⟨j, hj, rfl⟩
  · omega
  · omega

/-- The parameters are counted after they were locked. -/
theorem inBounds_inFunction (hcall : InBoundsCalls call) (list : NodeId) (t : Tally) :
    InBounds T (inFunction call q list t) := by
  refine .bind (.ask fun _ _ => .hasAttribute) fun b => ?_
  split
  · exact .pure
  · refine .arena_bind fun a => ?_
    split
    · exact .pure
    · next parameters _ =>
      refine .withLock_of (S := fun b => b.Pins parameters (b.children parameters).length) ?_
        fun b hb _ => Arena.pins_lock hb parameters
      refine .arena_bind_at fun a _ ha => .of_imp
        (S := (·.Pins parameters (a.children parameters).length)) ?_ fun b hb => hb ▸ ha
      exact inBounds_askChildren hcall parameters (fun i hi => List.mem_range.1 hi) t

/-- The parameters of a `catch` are not locked, but only the first one is asked for. -/
theorem inBounds_inCatch (hcall : InBoundsCalls call) (list : NodeId) (t : Tally) :
    InBounds T (inCatch call q list t) := by
  refine .arena_bind_at fun a _ _ => ?_
  split
  · exact .pure
  · next parameters _ =>
    split
    · exact .pure
    · next hne =>
      have hlt : 0 < (a.children parameters).length := by
        simpa [List.isEmpty_iff, List.length_pos_iff] using hne
      have hchild : InBounds (· = a) (tryChild call parameters q.id q.params q.mode 0 t) :=
        (inBounds_tryChild hcall parameters q.id q.mode 0 t).of_imp fun b hb => hb ▸ hlt
      refine .bind (.bind hchild fun r => ?_) fun _ => .pure
      obtain ⟨ended, t⟩ := r
      dsimp only
      split
      · exact .pure
      · exact .pure

/-- A scope is locked right after the way into it was found. -/
theorem inBounds_inScope (hcall : InBoundsCalls call) (list : NodeId) (offset : Nat) (t : Tally) :
    InBounds (Enters list offset) (inScope call q list offset t) := by
  refine .arena_bind_at fun a ha henters => ?_
  dsimp only
  split
  · exact .bind (.setFlag list _) fun _ => .pure
  · have hpins : (a.lock list).Pins list (a.children list).length := Arena.pins_lock ha list
    refine .withLock_of (S := (· = a.lock list)) ?_ fun b _ hb => hb ▸ rfl
    split
    · refine (inBounds_inDirectives hcall list offset t).of_imp fun b hb => ?_
      rw [hb]
      exact ⟨hpins, henters⟩
    · refine .of_imp (S := (·.Pins list (a.children list).length)) ?_ fun b hb => hb ▸ hpins
      refine inBounds_askChildren hcall list (fun i hi => ?_) t
      exact Nat.lt_of_lt_of_le (List.mem_range.1 hi) (Nat.min_le_right ..)
    · exact (modular_inWith modular_inBounds (inBounds_resolveField hcall) list t).anywhere
    · exact inBounds_inFunction hcall list t
    · refine .of_imp (S := (·.Pins list (a.children list).length)) ?_ fun b hb => hb ▸ hpins
      refine inBounds_askChildren hcall list (fun i hi => ?_) t
      have hi : i < offset := List.mem_range.1 (List.mem_reverse.1 hi)
      rcases henters with hlt | rfl
      · exact Nat.lt_trans hi hlt
      · exact absurd hi (Nat.not_lt_zero i)
    · exact inBounds_inCatch hcall list t
    · exact (modular_inEnum modular_inBounds list _ t).anywhere
    · exact (modular_inClass modular_inBounds (inBounds_findInExtends hcall) list t).anywhere
    · exact (modular_inClass modular_inBounds (inBounds_findInExtends hcall) list t).anywhere
    · exact .throw rfl

theorem inBounds_walkImports (hcall : InBoundsCalls call) (imports : List (Context → Option NodeId))
    (t : Tally) : InBounds T (walkImports call q imports t) :=
  (modular_walkImports (inBounds_selectBestFunction hcall q.params) modular_inBounds
    (fun list t => (inBounds_inScope hcall list 0 t).of_imp fun _ _ => .inr rfl) imports t).anywhere

/-- To leave the program is no place that is out of range. -/
theorem LeadsOut.not_isMisplaced {e : CompileError} (h : LeadsOut e) :
    (Stop.failed e).isMisplaced = false := by
  rcases h with ⟨r, rfl⟩ | rfl <;> rfl

/-- The place from which the way came is that of a child, as nothing comes between the climb and the
lock. -/
theorem inBounds_walkScopes (hcall : InBoundsCalls call) (fuel : Nat) (n : NodeId) (t : Tally) :
    InBounds T (walkScopes call q fuel n t) := by
  induction fuel generalizing T n t with
  | zero => exact .throw rfl
  | succ fuel ih =>
    refine .arena_bind_at fun a _ _ => ?_
    split
    · next e he => exact .throw (leadsOut_of_enclosingScope he).not_isMisplaced
    · next list offset hscope =>
      split
      · exact inBounds_walkImports hcall _ t
      · have hscoped := (inBounds_inScope (q := q) hcall list offset t).of_imp (T := (· = a))
          fun b hb => .inl (hb ▸ lt_length_of_enclosingScope hscope)
        refine .bind hscoped fun s => ?_
        cases s with
        | ended answer => exact .pure
        | next t => exact ih _ t

/-! ## Names -/

theorem inBounds_resolveName (hcall : InBoundsCalls call) (list id : NodeId) (mode : SearchMode) :
    InBounds (fun _ => True) (resolveName call list id params mode) :=
  modular_resolveName (inBounds_selectBestFunction hcall params) (inBounds_findField hcall)
    hcall.typed.linkType modular_inBounds hcall.answered
    fun fuel n => inBounds_walkScopes hcall (q := ⟨id, params, mode⟩) fuel n {}

/-! ## All searches -/

/-- One case for each kind of request. -/
theorem inBoundsCalls_step (hcall : InBoundsCalls call) : InBoundsCalls (step call) := by
  refine ⟨faithful_step hcall.faithful, fun r => .anywhere ?_⟩
  have L : Modular fun _ => InBounds fun _ => True := modular_inBounds
  cases r with
  | resolveName list id params mode => exact inBounds_resolveName hcall list id mode
  | effectiveAttributes n =>
    exact modular_effectiveAttributes L hcall.answered fun s => .modify fun _ => rfl
  | addListed n entry attrs => exact modular_addListed L hcall.answered n entry attrs
  | isDerivedFrom derived base =>
    exact modular_isDerivedFrom hcall.typed.linkType L hcall.answered derived base
  | classDepth c type depth =>
    exact modular_classDepth hcall.typed.linkType L
      (fun c type depth => hcall.inBounds (.classDepth c type depth)) c type depth
  | findMember link field t params mode =>
    exact modular_findMember L hcall.answeredAll hcall.typed.linkType link field t mode
  | findInList list field t params mode => exact inBounds_findInList hcall list field t mode

/-- **Every request stays in bounds**, however many calls inside each other are allowed. -/
theorem inBoundsCalls_answer (fuel : Nat) : InBoundsCalls (answer fuel) := by
  induction fuel with
  | zero => exact ⟨faithful_answer 0, fun _ => .throw rfl⟩
  | succ fuel ih => exact inBoundsCalls_step ih

/-- A search that is run on its own stays in bounds. -/
theorem inBounds_run {α : Type} {s : Call → Search α}
    (h : ∀ call, InBoundsCalls call → InBounds T (s call)) : InBounds T (run s) :=
  .get_bind fun c => h _ (inBoundsCalls_answer (fuel c))

/-- **Names and fields are never stopped because of a place**: not by a list that has changed while
it was gone through, and not by a table that is too small. -/
theorem resolve_inBounds (c : Context) (hc : c.arena.Consistent) (params : Option NodeId)
    (mode : SearchMode) :
    (∀ list id e, ((run (resolveName · list id params mode)).exec c).1 = .error e →
      e.isMisplaced = false) ∧
    ∀ object field e, ((run (resolveField · object field params mode)).exec c).1 = .error e →
      e.isMisplaced = false := by
  constructor
  · intro list id e he
    exact (inBounds_run (T := fun _ => True) fun _ hcall =>
      inBounds_resolveName hcall list id mode).not_isMisplaced hc trivial he
  · intro object field e he
    exact (inBounds_run (T := fun _ => True) fun _ hcall =>
      inBounds_resolveField hcall object field mode).not_isMisplaced hc trivial he

/-- The requests that make a class `C` with a class `D` in it, and a name `D` that is linked to
`C`. -/
def relinkedHistory : List Command :=
  [.create .program {}, .create .directiveList {}, .create .class_ {}, .create .directiveList {},
   .create .class_ {}, .create .identifier {},
   .setText ⟨2⟩ "C", .setText ⟨4⟩ "D", .setText ⟨5⟩ "D",
   .appendChild ⟨0⟩ ⟨1⟩, .appendChild ⟨1⟩ ⟨2⟩, .appendChild ⟨2⟩ ⟨3⟩, .appendChild ⟨3⟩ ⟨4⟩,
   .appendChild ⟨1⟩ ⟨5⟩, .setLink ⟨5⟩ .inst (some ⟨2⟩)]

/-- The context of that class. -/
def relinkedContext : Context := { arena := after relinkedHistory, parser := fun _ => .rejected }

/-- A class is no name, and the member `D` of `C` is not what the name `D` was linked to. -/
theorem resolve_inBounds_relinked :
    relinkedContext.arena.Consistent ∧
    (∃ e, ((run (resolveName · ⟨5⟩ ⟨2⟩ none {})).exec relinkedContext).1 = .error e ∧
      e.isMisplaced = false) ∧
    ∃ e, ((run (resolveField · ⟨2⟩ ⟨5⟩ none {})).exec relinkedContext).1 = .error e ∧
      e.isMisplaced = false := by
  have hc : relinkedContext.arena.Consistent :=
    after_invariant Arena.consistent_empty Command.keeps_consistent relinkedHistory
  have hname : ((run (resolveName · ⟨5⟩ ⟨2⟩ none {})).exec relinkedContext).1
      = .error (.failed (.internal .notAName)) := by decide +kernel
  have hfield : ((run (resolveField · ⟨2⟩ ⟨5⟩ none {})).exec relinkedContext).1
      = .error (.failed (.internal .relinked)) := by decide +kernel
  have h := resolve_inBounds relinkedContext hc none {}
  exact ⟨hc, ⟨_, hname, h.1 _ _ _ hname⟩, _, hfield, h.2 _ _ _ hfield⟩

end SymbolTree.Search
