import SymbolTree.Proofs.Arena.Deed
import SymbolTree.Proofs.Search.Inherited.Body
import SymbolTree.Proofs.Search.Inherited.Derived

/-!
# Inherited fields

In a plain hierarchy a search for a field is sure to answer.  Whether it finds something is what the
hierarchy says (`Arena.Offers`), but what it finds is the field that it met last (`Arena.Meets`),
which may be one of a class in which the name was ambiguous.

## Main statements

* `Search.answers_findMember` — one class, and those from which it inherits.
* `Search.findField_inherited` — the whole search for a field.
-/

set_option autoImplicit false
namespace SymbolTree

namespace Search

variable {c d : Context} {link field s list n v : NodeId} {fuel : Nat} {t : Tally}
  {mode : SearchMode}

/-- Nothing has happened since `c` but that locks were taken, messages given and attributes of the
fields of the hierarchy worked out. -/
abbrev Browsed (c : Context) (link : NodeId) : Context → Prop := Settled (c.AboveField link) c []

/-! ## One field -/

/-- A field is rejected nowhere. -/
theorem answers_rejection (h : c.PlainHierarchy link) (hs : c.arena.DerivedFrom link s)
    (hv : c.arena.FieldOf s v) (hfuel : c.arena.size + 1 < fuel) (hd : Browsed c link d) :
    Answers d (rejection (answer fuel) field v) fun r e => Browsed c link e ∧ r = none := by
  obtain ⟨attrs, hattrs⟩ := h.forest.exists_effective h.consistent v
  obtain ⟨hprivate, hprotected, hinternal⟩ := h.public_ s v attrs hs hv hattrs
  have hlength := h.forest.length_ancestors_le h.consistent v
  have hclosed : ∀ m p, c.AboveField link m → c.arena.InheritsFrom m p → c.AboveField link p := by
    rintro m p ⟨s, v, hs, hv, hvm⟩ hmp
    exact ⟨s, v, hs, hv, hvm.tail hmp⟩
  have hhas : ∀ {x : Attribute} {d : Context}, x ≠ .type → attrs.contains x = false →
      Browsed c link d → Answers d (hasAttribute (answer fuel) v x) fun b e =>
        Browsed c link e ∧ b = false := by
    intro x d hx hfalse hd
    rw [← hfalse]
    exact answers_hasAttribute h.forest h.consistent hclosed h.legible ⟨s, v, hs, hv, .refl⟩
      (by omega) hd hx hattrs
  refine (hhas (by decide) hprivate hd).bind fun b d hd => ?_
  rw [hd.2]
  refine (hhas (by decide) hprotected hd.1).bind fun b d hd => ?_
  rw [hd.2]
  refine (hhas (by decide) hinternal hd.1).bind fun b d hd => ?_
  rw [hd.2]
  exact Answers.pure ⟨hd.1, rfl⟩

/-- In a body nothing but a `var` has a field. -/
theorem answers_candidate (h : c.PlainHierarchy link) (hs : c.arena.DerivedFrom link s)
    (hn : n ∈ c.arena.body s) (hd : Browsed c link d) :
    Answers d (candidate (answer fuel) n field none mode) fun x e =>
      Browsed c link e ∧ x = .ofOption (c.arena.fieldIn? (c.arena.name field) n) := by
  have hplain := h.plain s hs n hn
  have halike := hd.same.alike
  have hfind : findVariable d.arena = findVariable c.arena := by
    funext m name
    rw [findVariable, findVariable, halike.children, halike.kind, halike.textIs]
  refine Answers.arena_bind ?_
  rw [halike.name, halike.kind, hfind]
  dsimp only
  split
  · next hk =>
    rw [Arena.fieldIn?, if_pos hk]
    exact Answers.pure ⟨hd, rfl⟩
  · next hk => rw [hk] at hplain; cases hplain
  · next hk => rw [hk] at hplain; cases hplain
  · next hk => rw [hk] at hplain; cases hplain
  · next hk => rw [hk] at hplain; cases hplain
  · next hk => rw [hk] at hplain; cases hplain
  · next hk => rw [hk] at hplain; cases hplain
  · next hk => rw [hk] at hplain; cases hplain
  · next hk _ _ _ _ _ _ _ =>
    rw [Arena.fieldIn?, if_neg hk]
    exact Answers.pure ⟨hd, rfl⟩

/-- A field that stands in a `var` is found there. -/
theorem fieldOf_of_fieldIn? {name : String} (hn : n ∈ c.arena.body s)
    (hv : c.arena.fieldIn? name n = some v) : c.arena.FieldOf s v := by
  rw [Arena.fieldIn?] at hv
  split at hv
  · next hk =>
    have hfound := List.find?_some hv
    rw [Bool.and_eq_true, decide_eq_true_eq] at hfound
    exact ⟨n, hn, hk, List.mem_of_find?_eq_some hv, hfound.1⟩
  · cases hv

/-- What stands in a body is asked for the field. -/
theorem answers_tryChild (h : c.PlainHierarchy link) (hs : c.arena.DerivedFrom link s)
    (hn : n ∈ c.arena.body s) (hfuel : c.arena.size + 1 < fuel) {i : Nat}
    (hi : (c.arena.children list)[i]? = some n) (hd : Browsed c link d) :
    Answers d (tryChild (answer fuel) list field none mode i t) fun x e =>
      Browsed c link e ∧ x = t.take (c.arena.fieldIn? (c.arena.name field) n) := by
  have hname : Answers d (checkName (answer fuel) list i field none mode) fun x e =>
      Browsed c link e ∧ x = c.arena.fieldIn? (c.arena.name field) n := by
    refine Answers.arena_bind ?_
    rw [hd.same.alike.children, hi]
    refine (answers_candidate h hs hn hd).bind fun x d hd => ?_
    rw [hd.2]
    cases hv : c.arena.fieldIn? (c.arena.name field) n with
    | none => exact Answers.pure ⟨hd.1, rfl⟩
    | some v =>
      refine (answers_rejection h hs (fieldOf_of_fieldIn? hn hv) hfuel hd.1).bind fun r d hd => ?_
      rw [hd.2]
      refine Answers.arena_bind ?_
      rw [Option.isSome_none, Bool.and_false, if_neg Bool.false_ne_true]
      exact Answers.pure ⟨hd.1, rfl⟩
  refine hname.bind fun x d hd => ?_
  rw [hd.2]
  cases c.arena.fieldIn? (c.arena.name field) n with
  | none => exact Answers.pure ⟨hd.1, rfl⟩
  | some v => exact Answers.arena_bind (Answers.pure ⟨hd.1, rfl⟩)

/-- The body of a class is searched for a field that it declares. -/
theorem answers_findOwn (h : c.PlainHierarchy link) (hs : c.arena.DerivedFrom link s)
    (hfuel : 2 * c.arena.size + 2 < fuel) (hd : Browsed c link d) :
    Answers d (findInBody (answer fuel) s field t none mode) fun x e =>
      Browsed c link e ∧ x = t.take (c.arena.field? (c.arena.name field) s) := by
  have hsteady : Steady c (fun _ => True) (Browsed c link) :=
    ⟨fun d n _ hd => congrFun hd.same.alike.kind n,
      fun d n _ hd => congrFun hd.same.alike.children n, fun _ _ => trivial,
      fun d n _ hd => hd.lock n, fun d n _ hd => hd.drop _⟩
  refine answers_findInBody (c.arena.size + 1) hsteady trivial h.forest h.consistent
    (fun n hn => ?_) (by omega) hd
  refine ⟨fun hk => ?_, fun fuel list i d hfuel hi hd => answers_tryChild h hs hn hfuel hi hd⟩
  rw [Arena.fieldIn?, hk, if_neg (by decide)]

/-! ## The classes that it names -/

theorem latest_cons {α : Type} (x : Option α) (l : List (Option α)) :
    latest (x :: l) = (latest l).or x := by
  rw [latest, latest]
  cases x with
  | none => simp
  | some x =>
    rw [List.filterMap_cons_some (f := id) (b := x) rfl, List.getLast?_cons]
    cases (l.filterMap id).getLast? with
    | none => rfl
    | some y => rfl

/-- The classes that the names stand for are searched one after the other.  Those that offer the
field are counted, and what was met last is handed on. -/
theorem answers_findInSupers {call : Call} {names : List NodeId}
    (offer met : NodeId → Option NodeId)
    (hinst : ∀ name ∈ names, (c.arena.inst name).isSome = true)
    (hcall : ∀ y ∈ names.filterMap c.arena.inst, ∀ t d, Browsed c link d → t.funcs = 0 →
      Answers d (call (.findMember y field t none mode)) fun x e => Browsed c link e ∧
        x = ((offer y).isSome, { t with found := (met y).or t.found }))
    {count : Nat} (ht : t.funcs = 0) (hd : Browsed c link d) :
    Answers d (findInSupers call s field none mode names count t) fun x e => Browsed c link e ∧
      x = (count + (((names.filterMap c.arena.inst).map offer).filterMap id).length,
        { t with found := (latest ((names.filterMap c.arena.inst).map met)).or t.found }) := by
  induction names generalizing count t d with
  | nil => exact Answers.pure ⟨hd, rfl⟩
  | cons name names ih =>
    obtain ⟨y, hy⟩ := Option.isSome_iff_exists.1 (hinst name List.mem_cons_self)
    have hnames : (name :: names).filterMap c.arena.inst = y :: names.filterMap c.arena.inst :=
      List.filterMap_cons_some hy
    rw [hnames] at hcall
    rw [hnames, List.map_cons, List.map_cons, latest_cons, Option.or_assoc]
    have hname : d.arena.inst name = some y := by rw [hd.same.inst, hy]
    refine (answers_linkedClass_tried call (.inl (by rw [hname]; rfl))).bind fun x e he => ?_
    rw [he.1, he.2, hname]
    refine (hcall y List.mem_cons_self t d hd ht).bind fun x d hd => ?_
    rw [hd.2]
    have hcount : (if (offer y).isSome then count + 1 else count) +
        (((names.filterMap c.arena.inst).map offer).filterMap id).length =
        count + ((offer y :: (names.filterMap c.arena.inst).map offer).filterMap id).length := by
      cases offer y with
      | none => rfl
      | some v =>
        rw [Option.isSome_some, if_pos rfl, List.filterMap_cons_some (f := id) (b := v) rfl,
          List.length_cons]
        omega
    rw [← hcount]
    exact ih (fun m hm => hinst m (List.mem_cons_of_mem name hm))
      (fun m hm => hcall m (List.mem_cons_of_mem y hm)) ht hd.1

/-- A class has what exactly one of the classes that it names has. -/
theorem answers_findInExtends {call : Call} (offer met : NodeId → Option NodeId)
    (hinst : ∀ name ∈ c.arena.superNames s, (c.arena.inst name).isSome = true)
    (hcall : ∀ y ∈ c.arena.superClasses s, ∀ t d, Browsed c link d → t.funcs = 0 →
      Answers d (call (.findMember y field t none mode)) fun x e => Browsed c link e ∧
        x = ((offer y).isSome, { t with found := (met y).or t.found }))
    (ht : t.funcs = 0) (hd : Browsed c link d) :
    Answers d (findInExtends call s field t none mode) fun x e => Browsed c link e ∧
      x = ((sole ((c.arena.superClasses s).map offer)).isSome,
        { t with found := (latest ((c.arena.superClasses s).map met)).or t.found }) := by
  have hlock := hd.lock s
  refine Answers.withLock (φ := fun x e => Browsed c link e ∧
    x = ((sole ((c.arena.superClasses s).map offer)).isSome,
      { t with found := (latest ((c.arena.superClasses s).map met)).or t.found })) ?_
    fun x e he => ⟨he.1.drop _, he.2⟩
  refine Answers.arena_bind ?_
  rw [hlock.same.alike.superNames]
  refine (answers_findInSupers offer met hinst hcall ht hlock).bind fun x d hd => ?_
  rw [hd.2, isSome_sole, Nat.zero_add]
  dsimp only
  rw [ht]
  by_cases hone : (((c.arena.superClasses s).map offer).filterMap id).length = 1
  · rw [Arena.superClasses] at hone
    rw [Arena.superClasses, hone, if_pos (by simp)]
    exact Answers.pure ⟨hd.1, by simp⟩
  · rw [decide_eq_false hone]
    rw [Arena.superClasses] at hone ⊢
    rw [decide_eq_false hone, if_neg (by simp)]
    split
    · refine Answers.nameOf_bind ?_
      exact (answers_error (P := Browsed c link) (fun ds => hd.1.message ds) _ _ _).bind
        fun _ _ he => Answers.pure ⟨he, rfl⟩
    · exact Answers.pure ⟨hd.1, rfl⟩

/-! ## A class and those from which it inherits -/

/-- **One class.**  In a plain hierarchy the search of a class is sure to answer.  It finds
something if the class has the field, and hands on the field that it met last. -/
theorem answers_findMember (field : NodeId) (mode : SearchMode) (h : c.PlainHierarchy link)
    (hs : c.arena.DerivedFrom link s) :
    ∃ r l, c.arena.Offers (c.arena.name field) s r ∧ c.arena.Meets (c.arena.name field) s l ∧
      ∀ fuel t d, c.arena.height s + 2 * c.arena.size + 3 < fuel → t.funcs = 0 →
        Browsed c link d → Answers d (answer fuel (.findMember s field t none mode)) fun x e =>
          Browsed c link e ∧ x = (r.isSome, { t with found := l.or t.found }) := by
  induction hheight : c.arena.height s using Nat.strong_induction_on generalizing s with
  | _ height ih =>
    subst hheight
    have hname : ∀ y ∈ c.arena.superClasses s, c.arena.height y < c.arena.height s ∧
        c.arena.DerivedFrom link y := by
      intro y hy
      have hy := Arena.mem_superClasses.1 hy
      have hderived := hs.tail hy
      exact ⟨Arena.height_lt hy (h.acyclic y hderived), hderived⟩
    have hbody : ∀ {fuel t d}, c.arena.height s + 2 * c.arena.size + 3 < fuel + 1 →
        Browsed c link d → Answers d (findInBody (answer fuel) s field t none mode) fun x e =>
          Browsed c link e ∧ x = t.take (c.arena.field? (c.arena.name field) s) :=
      fun hfuel hd => answers_findOwn h hs (by omega) hd
    cases hfield : c.arena.field? (c.arena.name field) s with
    | some v =>
      refine ⟨some v, some v, .own hfield, .own hfield, fun fuel t d hfuel ht hd => ?_⟩
      obtain ⟨fuel, rfl⟩ : ∃ m, fuel = m + 1 := Nat.exists_eq_succ_of_ne_zero (by omega)
      refine (hbody hfuel hd).bind fun x e he => ?_
      rw [he.2, hfield]
      exact Answers.pure ⟨he.1, rfl⟩
    | none =>
      have hsupers : ∀ y, ∃ r l, y ∈ c.arena.superClasses s →
          c.arena.Offers (c.arena.name field) y r ∧ c.arena.Meets (c.arena.name field) y l ∧
            ∀ fuel t d, c.arena.height y + 2 * c.arena.size + 3 < fuel → t.funcs = 0 →
              Browsed c link d → Answers d (answer fuel (.findMember y field t none mode))
                fun x e => Browsed c link e ∧ x = (r.isSome, { t with found := l.or t.found }) := by
        intro y
        by_cases hy : y ∈ c.arena.superClasses s
        · obtain ⟨r, l, hrl⟩ := ih _ (hname y hy).1 (hname y hy).2 rfl
          exact ⟨r, l, fun _ => hrl⟩
        · exact ⟨none, none, fun hmem => absurd hmem hy⟩
      choose offer met hsupers using hsupers
      refine ⟨_, _, .inherited hfield offer fun y hy => (hsupers y hy).1,
        .inherited hfield met fun y hy => (hsupers y hy).2.1, fun fuel t d hfuel ht hd => ?_⟩
      obtain ⟨fuel, rfl⟩ : ∃ m, fuel = m + 1 := Nat.exists_eq_succ_of_ne_zero (by omega)
      refine (hbody hfuel hd).bind fun x e he => ?_
      have hextends : Answers e (findInExtends (answer fuel) s field t none mode) fun x e =>
          Browsed c link e ∧ x = ((sole ((c.arena.superClasses s).map offer)).isSome,
            { t with found := (latest ((c.arena.superClasses s).map met)).or t.found }) := by
        refine answers_findInExtends offer met (h.linked s hs) (fun y hy t d hd ht => ?_) ht he.1
        have hlt := (hname y hy).1
        exact (hsupers y hy).2.2 fuel t d (by omega) ht hd
      rw [he.2, hfield]
      dsimp only [Tally.take]
      rw [if_neg (by simp [ht])]
      exact hextends

/-! ## The whole search -/

/-- A report about rejected candidates stops nothing. -/
theorem answers_reportRejections (n : NodeId) : Answers d (reportRejections n) fun _ _ => True := by
  refine Answers.get_bind ?_
  refine Answers.bind (Answers.modify (φ := fun _ _ => True) trivial) fun _ e _ => ?_
  split
  · exact Answers.pure trivial
  · exact Answers.nameOf_bind (answers_error (fun _ => trivial) _ _ _)

/-- A search for a field reports what it has found, and nothing if it has not found any. -/
theorem answers_findField (mode : SearchMode) (h : c.PlainHierarchy link)
    (hinst : c.arena.inst field = none) :
    ∃ r l, c.arena.Offers (c.arena.name field) link r ∧
      c.arena.Meets (c.arena.name field) link l ∧
      Answers c (findField (answer (Search.fuel c)) link field 0 none mode) fun x _ =>
        x = (if r.isSome then l else none, 0) := by
  obtain ⟨r, l, hoffers, hmeets, hmember⟩ := answers_findMember field mode h .refl
  refine ⟨r, l, hoffers, hmeets, ?_⟩
  have hfuel : c.arena.height link + 2 * c.arena.size + 3 < Search.fuel c := by
    have hheight := c.arena.height_le_size link
    rw [Search.fuel]
    omega
  have hstart : Browsed c link { c with rejections := Rejections.none } :=
    ⟨⟨rfl, rfl⟩, fun n attrs hn _ hattrs => h.remembered n attrs hn hattrs,
      fun n attrs hattrs => .inr (by rw [hattrs]; rfl)⟩
  refine Answers.withFreshRejections (φ := fun x _ => x = (if r.isSome then l else none, 0)) ?_
    fun _ _ _ hx => hx
  refine (hmember (Search.fuel c) { funcs := 0 } _ hfuel rfl hstart).bind fun x d hd => ?_
  rw [hd.2]
  cases r with
  | none => exact (answers_reportRejections field).bind fun _ _ _ => Answers.pure rfl
  | some v =>
    cases l with
    | none => exact Answers.pure rfl
    | some w =>
      have hlink : Answers d (linkField field w) fun _ _ => True := by
        refine Answers.arena_bind ?_
        rw [hd.1.same.inst, hinst]
        exact Answers.modify trivial
      exact hlink.bind fun _ _ _ => Answers.pure rfl

/-- **An inherited field.**  In a plain hierarchy the search for a field that the class does not
declare itself is sure to answer.  It finds a field if and only if exactly one of the names after
`extends` and `implements` stands for a class that has it; and what it finds is the field that it
met last, whether that class has it or another one, in which it is ambiguous. -/
theorem findField_inherited (c : Context) (link field : NodeId) (mode : SearchMode)
    (h : c.PlainHierarchy link) (hinst : c.arena.inst field = none)
    (hown : c.arena.field? (c.arena.name field) link = none) :
    ∃ x, ((run (findField · link field 0 none mode)).exec c).1 = .ok (x, 0) ∧ ∀ d, x = some d ↔
      (∃ before s after m, c.arena.superClasses link = before ++ s :: after ∧
        c.arena.Offers (c.arena.name field) s (some m) ∧
        ∀ y ∈ before ++ after, c.arena.Offers (c.arena.name field) y none) ∧
      c.arena.Meets (c.arena.name field) link (some d) := by
  obtain ⟨r, l, hoffers, hmeets, x, d, hr, rfl⟩ := answers_findField mode h hinst
  refine ⟨_, congrArg Prod.fst hr, fun v => ?_⟩
  constructor
  · intro hx
    cases r with
    | none => cases hx
    | some m =>
      obtain ⟨before, s, after, hl, hs, hnone⟩ := (hoffers.eq_some_iff hown).1 rfl
      obtain rfl : l = some v := hx
      exact ⟨⟨before, s, after, m, hl, hs, hnone⟩, hmeets⟩
  · rintro ⟨⟨before, s, after, m, hone⟩, hv⟩
    rw [(hoffers.eq_some_iff hown).2 ⟨before, s, after, hone⟩, hmeets.unique hv]
    rfl

/-! ### A name that is ambiguous in the last of two classes -/

/-- The classes `B`, `D` and `E` declare a variable `x` each; `C` implements `D` and `E`, and `A`
implements `B` and `C`.  There is also a detached name `x`. -/
def fieldHistory : List Command :=
  [.create .program {}, .create .directiveList {},
   .create .class_ {}, .create .directiveList {}, .create .var {}, .create .variable_ {},
   .create .class_ {}, .create .directiveList {}, .create .var {}, .create .variable_ {},
   .create .class_ {}, .create .directiveList {}, .create .var {}, .create .variable_ {},
   .create .class_ {}, .create .implements {}, .create .list {}, .create .identifier {},
   .create .identifier {},
   .create .class_ {}, .create .implements {}, .create .list {}, .create .identifier {},
   .create .identifier {}, .create .identifier {},
   .setText ⟨2⟩ "B", .setText ⟨5⟩ "x", .setText ⟨6⟩ "D", .setText ⟨9⟩ "x", .setText ⟨10⟩ "E",
   .setText ⟨13⟩ "x", .setText ⟨14⟩ "C", .setText ⟨17⟩ "D", .setText ⟨18⟩ "E", .setText ⟨19⟩ "A",
   .setText ⟨22⟩ "B", .setText ⟨23⟩ "C", .setText ⟨24⟩ "x",
   .appendChild ⟨0⟩ ⟨1⟩,
   .appendChild ⟨1⟩ ⟨2⟩, .appendChild ⟨2⟩ ⟨3⟩, .appendChild ⟨3⟩ ⟨4⟩, .appendChild ⟨4⟩ ⟨5⟩,
   .appendChild ⟨1⟩ ⟨6⟩, .appendChild ⟨6⟩ ⟨7⟩, .appendChild ⟨7⟩ ⟨8⟩, .appendChild ⟨8⟩ ⟨9⟩,
   .appendChild ⟨1⟩ ⟨10⟩, .appendChild ⟨10⟩ ⟨11⟩, .appendChild ⟨11⟩ ⟨12⟩, .appendChild ⟨12⟩ ⟨13⟩,
   .appendChild ⟨1⟩ ⟨14⟩, .appendChild ⟨14⟩ ⟨15⟩, .appendChild ⟨15⟩ ⟨16⟩, .appendChild ⟨16⟩ ⟨17⟩,
   .appendChild ⟨16⟩ ⟨18⟩,
   .appendChild ⟨1⟩ ⟨19⟩, .appendChild ⟨19⟩ ⟨20⟩, .appendChild ⟨20⟩ ⟨21⟩, .appendChild ⟨21⟩ ⟨22⟩,
   .appendChild ⟨21⟩ ⟨23⟩,
   .setLink ⟨17⟩ .inst (some ⟨6⟩), .setLink ⟨18⟩ .inst (some ⟨10⟩),
   .setLink ⟨22⟩ .inst (some ⟨2⟩), .setLink ⟨23⟩ .inst (some ⟨14⟩)]

/-- The context of that program. -/
def fieldContext : Context := { arena := after fieldHistory, parser := fun _ => .rejected }

theorem consistent_fieldContext : fieldContext.arena.Consistent :=
  .of_history fieldHistory (by rw [fieldContext])

/-- The name that is looked for, the classes that `A` and `C` name, the fields of all five, and what
the search answers.  A class names only classes that were created before it. -/
theorem fields_fieldContext :
    (fieldContext.arena.kind ⟨24⟩ = .identifier ∧ fieldContext.arena.inst ⟨24⟩ = none ∧
      fieldContext.arena.name ⟨24⟩ = "x") ∧
    (fieldContext.arena.superClasses ⟨19⟩ = [⟨2⟩, ⟨14⟩] ∧
      fieldContext.arena.superClasses ⟨14⟩ = [⟨6⟩, ⟨10⟩]) ∧
    fieldContext.arena.field? "x" ⟨2⟩ = some ⟨5⟩ ∧ fieldContext.arena.field? "x" ⟨6⟩ = some ⟨9⟩ ∧
    fieldContext.arena.field? "x" ⟨10⟩ = some ⟨13⟩ ∧ fieldContext.arena.field? "x" ⟨14⟩ = none ∧
    fieldContext.arena.field? "x" ⟨19⟩ = none ∧
    ((run (findField · ⟨19⟩ ⟨24⟩ 0 none {})).exec fieldContext).1.toOption = some (some ⟨13⟩, 0) ∧
    ∀ i < fieldContext.arena.size, ∀ name ∈ fieldContext.arena.superNames ⟨i⟩,
      ∀ y ∈ fieldContext.arena.inst name, fieldContext.arena.kind y = .class_ ∧ y.index < i := by
  decide +kernel

/-- A class names only classes that were created before it. -/
theorem namesSuper_fieldContext {x y : NodeId} (h : fieldContext.arena.NamesSuper x y) :
    fieldContext.arena.kind y = .class_ ∧ y.index < x.index := by
  obtain ⟨name, hname, hy⟩ := h
  obtain ⟨-, -, -, -, -, -, -, -, hall⟩ := fields_fieldContext
  exact hall x.index (Arena.lt_size_of_mem_superNames hname) name hname y hy

theorem plainHierarchy_fieldContext : fieldContext.PlainHierarchy ⟨19⟩ := by
  have hbare := Arena.forall_node (a := fieldContext.arena)
    (P := fun d => d.attributes = AttributeSet.empty ∧ d.attributeNode = none)
    (by decide +kernel) (by decide)
  have hunlisted : ∀ n, fieldContext.arena.attributeNode n = none := fun n => by
    rw [Arena.attributeNode, (hbare n).2]; rfl
  have hclass : ∀ s, fieldContext.arena.DerivedFrom ⟨19⟩ s →
      fieldContext.arena.kind s = .class_ := by
    intro s hs
    rcases Relation.ReflTransGen.cases_tail hs with rfl | ⟨x, -, hx⟩
    · decide +kernel
    · exact (namesSuper_fieldContext hx).1
  have hall : ∀ i < fieldContext.arena.size,
      (∀ p ∈ fieldContext.arena.parent ⟨i⟩, p.index < i) ∧
      (fieldContext.arena.kind ⟨i⟩ = .class_ →
        (∀ name ∈ fieldContext.arena.superNames ⟨i⟩,
          (fieldContext.arena.inst name).isSome = true) ∧
        ∀ n ∈ fieldContext.arena.body ⟨i⟩, (fieldContext.arena.kind n).isDeclaration = false) := by
    decide +kernel
  have hof : ∀ s, fieldContext.arena.DerivedFrom ⟨19⟩ s →
      (∀ name ∈ fieldContext.arena.superNames s, (fieldContext.arena.inst name).isSome = true) ∧
      ∀ n ∈ fieldContext.arena.body s, (fieldContext.arena.kind n).isDeclaration = false := by
    rintro ⟨i⟩ hs
    have hk := hclass _ hs
    have hlt : i < fieldContext.arena.size := by
      refine Arena.lt_size_of_kind_ne (n := ⟨i⟩) ?_
      rw [hk]
      decide
    exact (hall i hlt).2 hk
  refine ⟨consistent_fieldContext, Arena.forest_of_lt fun n p hp => ?_, fun s hs => (hof s hs).1,
    fun s _ => Arena.not_transGen_self (f := NodeId.index)
      (fun x y hxy => (namesSuper_fieldContext hxy).2) s,
    fun s hs => (hof s hs).2, fun n _ e he => ?_, fun s v attrs _ _ hattrs => ?_,
    fun n attrs _ hattrs => by cases hattrs⟩
  · obtain ⟨i⟩ := n
    exact (hall i (Arena.lt_size_of_parent hp)).1 p hp
  · rw [Arena.attributeEntries, hunlisted] at he
    cases he
  · rw [hattrs.eq_empty (fun m => (hbare m).1) hunlisted]
    exact ⟨rfl, rfl, rfl⟩

/-- In the class `C` the name is ambiguous, but the field of `E` is met there last. -/
theorem offers_fieldContext : fieldContext.arena.Offers "x" ⟨2⟩ (some ⟨5⟩) ∧
    fieldContext.arena.Offers "x" ⟨14⟩ none ∧
    fieldContext.arena.Meets "x" ⟨14⟩ (some ⟨13⟩) := by
  obtain ⟨-, ⟨-, hsupers⟩, hB, hD, hE, hC, -⟩ := fields_fieldContext
  let own : NodeId → Option NodeId := fun y => if y = ⟨6⟩ then some ⟨9⟩ else some ⟨13⟩
  have hown : ∀ y ∈ fieldContext.arena.superClasses ⟨14⟩,
      ∃ d, fieldContext.arena.field? "x" y = some d ∧ own y = some d := by
    rw [hsupers]
    intro y hy
    rcases List.mem_pair.1 hy with rfl | rfl
    · exact ⟨⟨9⟩, hD, rfl⟩
    · exact ⟨⟨13⟩, hE, rfl⟩
  have hoffers := Arena.Offers.inherited hC own fun y hy => by
    obtain ⟨d, hd, hy⟩ := hown y hy
    exact hy ▸ .own hd
  have hmeets := Arena.Meets.inherited hC own fun y hy => by
    obtain ⟨d, hd, hy⟩ := hown y hy
    exact hy ▸ .own hd
  rw [hsupers] at hoffers hmeets
  exact ⟨.own hB, hoffers, hmeets⟩

/-- The class `A` has the field of `B`, and the search answers with the one of `E`. -/
theorem findField_inherited_ambiguous : fieldContext.PlainHierarchy ⟨19⟩ ∧
    fieldContext.arena.Offers "x" ⟨2⟩ (some ⟨5⟩) ∧ fieldContext.arena.Offers "x" ⟨14⟩ none ∧
    ((run (findField · ⟨19⟩ ⟨24⟩ 0 none {})).exec fieldContext).1 = .ok (some ⟨13⟩, 0) := by
  obtain ⟨⟨-, hinst, hname⟩, ⟨hsupers, -⟩, hB, -, -, -, hA, -⟩ := fields_fieldContext
  obtain ⟨hoffers, hambiguous, hmeets⟩ := offers_fieldContext
  obtain ⟨x, hx, hiff⟩ := findField_inherited fieldContext ⟨19⟩ ⟨24⟩ {} plainHierarchy_fieldContext
    hinst (hname ▸ hA)
  rw [hname, hsupers] at hiff
  have hlast := Arena.Meets.inherited hA (fun y => if y = ⟨2⟩ then some ⟨5⟩ else some ⟨13⟩)
    fun y hy => by
      rw [hsupers] at hy
      rcases List.mem_pair.1 hy with rfl | rfl
      · exact .own hB
      · exact hmeets
  rw [hsupers] at hlast
  have hothers : ∀ y ∈ [] ++ [(⟨14⟩ : NodeId)], fieldContext.arena.Offers "x" y none := by
    intro y hy
    rw [List.mem_singleton.1 hy]
    exact hambiguous
  have hfound := (hiff ⟨13⟩).2 ⟨⟨[], ⟨2⟩, [⟨14⟩], ⟨5⟩, rfl, hoffers, hothers⟩, hlast⟩
  exact ⟨plainHierarchy_fieldContext, hoffers, hambiguous, hfound ▸ hx⟩

/-- The search for a field does not always answer with the one that the class has. -/
theorem findField_misses_offer : ¬ ∀ (c : Context) (link field d : NodeId) (mode : SearchMode),
    c.PlainHierarchy link → c.arena.kind field = .identifier → c.arena.inst field = none →
    c.arena.field? (c.arena.name field) link = none →
    ((∃ funcs, ((run (findField · link field 0 none mode)).exec c).1 = .ok (some d, funcs)) ↔
      ∃ before s after, c.arena.superClasses link = before ++ s :: after ∧
        c.arena.Offers (c.arena.name field) s (some d) ∧
        ∀ y ∈ before ++ after, c.arena.Offers (c.arena.name field) y none) := by
  intro h
  obtain ⟨⟨hk, hinst, hname⟩, ⟨hsupers, -⟩, -, -, -, -, hA, hrun, -⟩ := fields_fieldContext
  obtain ⟨hoffers, hambiguous, -⟩ := offers_fieldContext
  have hiff := h fieldContext ⟨19⟩ ⟨24⟩ ⟨5⟩ {} plainHierarchy_fieldContext hk hinst (hname ▸ hA)
  rw [hname, hsupers] at hiff
  have hothers : ∀ y ∈ [] ++ [(⟨14⟩ : NodeId)], fieldContext.arena.Offers "x" y none := by
    intro y hy
    rw [List.mem_singleton.1 hy]
    exact hambiguous
  obtain ⟨funcs, hfound⟩ := hiff.2 ⟨[], ⟨2⟩, [⟨14⟩], rfl, hoffers, hothers⟩
  rw [eq_ok_of_toOption hrun] at hfound
  exact absurd hfound (by simp)

end Search
end SymbolTree
