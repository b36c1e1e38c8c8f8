import SymbolTree.Proofs.Search.Inherited.Derived
import SymbolTree.Proofs.Search.Trace.Scope

/-!
# Arguments whose class inherits

An argument that has a type meets a parameter that has one if the types are the same, if one of them
is `Object`, or if the type of the argument is a class that inherits from the other one.  An
interface that inherits from another one is no such class, and meets only itself and `Object`.

`Object` is looked up in between, which may load modules and link names.  What is linked stays so,
hence a hierarchy in which every name is linked is the same afterwards
(`Arena.LinkedHierarchy.retained`).

## Main statement

* `Search.matchType_accepts_iff` — which arguments meet a parameter.
-/

set_option autoImplicit false
namespace SymbolTree

open Relation (ReflTransGen TransGen)

/-! ## A hierarchy while other things are added -/

namespace Arena

variable {a b : Arena} {s x y : NodeId} {k : Nat}

theorem DerivedFrom.lt_size (hs : s.index < a.size) (hx : a.DerivedFrom s x) :
    x.index < a.size := by
  rcases ReflTransGen.cases_tail hx with rfl | ⟨w, -, name, -, hinst⟩
  · exact hs
  · exact lt_size_of_live hinst

namespace LinkedHierarchy

variable (h : a.LinkedHierarchy s) (ha : a.Consistent) (hs : s.index < a.size)
  (hab : a.Frame none b)
include h ha hs hab

/-- The names in the clauses of a class stand for what they stood for. -/
theorem inst_superNames (hx : a.DerivedFrom s x) :
    b.superNames x = a.superNames x ∧ ∀ name ∈ a.superNames x, b.inst name = a.inst name := by
  refine ⟨(Grows.of_frame hab).superNames ha (hx.lt_size hs), fun name hname => ?_⟩
  obtain ⟨z, hz⟩ := Option.isSome_iff_exists.1 (h.linked x hx name hname)
  rw [hz]
  exact hab.link name .inst z (.inl rfl) hz Arena.not_disposable_none

theorem namesSuper_iff (hx : a.DerivedFrom s x) : b.NamesSuper x y ↔ a.NamesSuper x y := by
  obtain ⟨hnames, hinst⟩ := h.inst_superNames ha hs hab hx
  rw [NamesSuper, NamesSuper, hnames]
  exact exists_congr fun name => and_congr_right fun hname => by rw [hinst name hname]

theorem derivedFrom_iff : b.DerivedFrom s x ↔ a.DerivedFrom s x := by
  constructor
  · intro hx
    induction hx with
    | refl => exact .refl
    | tail _ hyz ih => exact ih.tail ((h.namesSuper_iff ha hs hab ih).1 hyz)
  · intro hx
    induction hx with
    | refl => exact .refl
    | tail hy hyz ih => exact ih.tail ((h.namesSuper_iff ha hs hab hy).2 hyz)

theorem transGen_iff : TransGen b.NamesSuper s x ↔ TransGen a.NamesSuper s x := by
  rw [TransGen.tail'_iff, TransGen.tail'_iff]
  constructor
  · rintro ⟨y, hy, hyx⟩
    have hy := (h.derivedFrom_iff ha hs hab).1 hy
    exact ⟨y, hy, (h.namesSuper_iff ha hs hab hy).1 hyx⟩
  · rintro ⟨y, hy, hyx⟩
    exact ⟨y, (h.derivedFrom_iff ha hs hab).2 hy, (h.namesSuper_iff ha hs hab hy).2 hyx⟩

/-- A hierarchy in which every name is linked stays so. -/
theorem retained : b.LinkedHierarchy s := by
  constructor
  · intro x hx name hname
    have hx := (h.derivedFrom_iff ha hs hab).1 hx
    obtain ⟨hnames, hinst⟩ := h.inst_superNames ha hs hab hx
    rw [hnames] at hname
    rw [hinst name hname]
    exact h.linked x hx name hname
  · intro x hx hxx
    have hx := (h.derivedFrom_iff ha hs hab).1 hx
    have hhierarchy : a.LinkedHierarchy x :=
      ⟨fun y hy => h.linked y (hx.trans hy), fun y hy => h.acyclic y (hx.trans hy)⟩
    exact h.acyclic x hx ((hhierarchy.transGen_iff ha (hx.lt_size hs) hab).1 hxx)

/-- There are no other ways up. -/
theorem ascent_of (hk : b.Ascent x s k) : a.Ascent x s k := by
  have hway : ∀ y k, b.Ascent x y k → a.DerivedFrom s y → a.Ascent x y k := by
    intro y k hk
    induction hk with
    | last hy => exact fun hs' => .last ((h.namesSuper_iff ha hs hab hs').1 hy)
    | step hy _ ih =>
      intro hs'
      have hy := (h.namesSuper_iff ha hs hab hs').1 hy
      exact .step hy (ih (hs'.tail hy))
  exact hway s k hk .refl

/-- No class is higher for the nodes that were added. -/
theorem height_le : b.height s ≤ a.size := by
  classical
  refine (Finset.card_le_card fun i hi => ?_).trans (Finset.card_range a.size).le
  rw [Finset.mem_filter] at hi
  have hi := ((h.transGen_iff ha hs hab).1 hi.2).to_reflTransGen
  exact Finset.mem_range.2 (DerivedFrom.lt_size hs hi)

end LinkedHierarchy

end Arena

namespace Search

variable {c : Context} {arg param ty tp1 tp2 object : NodeId}

/-! ## Arguments and parameters -/

/-- Looking up a class that every program needs leaves what was there in its place. -/
theorem answers_resolveInternalType {n : NodeId} {name : String} (hc : c.arena.Consistent)
    (h : ((run (resolveInternalType · n name)).exec c).1 = .ok object) :
    Answers c (resolveInternalType (answer (fuel c)) n name) fun x d =>
      x = object ∧ c.arena.Frame none d.arena := by
  have hfollows : Follows none (resolveInternalType (answer (fuel c)) n name) :=
    follows_resolveInternalType (faithful_answer _) n name
  exact ⟨object, _, Prod.ext h rfl, rfl, (hfollows.course c hc).frame hc⟩

/-- How well an argument with a type meets a node with a type is settled by the two types. -/
theorem answers_matchTypes (hc : c.arena.Consistent) (h : c.arena.LinkedHierarchy tp1)
    (hfits : c.arena.DepthFits tp1 tp2 2)
    (harg : c.arena.typeNode arg = some tp1) (hty : c.arena.typeNode ty = some tp2)
    (hobject : ((run (resolveInternalType · arg "Object")).exec c).1 = .ok object) :
    Answers c (matchTypes (answer (fuel c)) arg ty) fun n _ => n ≠ matchNotFound ↔
      tp1 = object ∨ tp2 = object ∨ tp1 = tp2 ∨
        c.arena.kind tp1 = .class_ ∧ TransGen c.arena.NamesSuper tp1 tp2 := by
  have hsize : tp1.index < c.arena.size := Arena.lt_size_of_live harg
  have htyped : Answers c (typeExpression (answer (fuel c)) arg) fun _ d => d = c := by
    refine Answers.arena_bind ?_
    rw [harg]
    exact Answers.pure rfl
  refine htyped.bind fun _ d hd => ?_
  rw [hd]
  refine Answers.arena_bind ?_
  rw [harg, hty]
  dsimp only
  split
  · next heq => exact Answers.pure (iff_of_true (by decide) (.inr (.inr (.inl heq))))
  · next hne =>
    refine (answers_resolveInternalType hc hobject).bind fun x d hd => ?_
    obtain ⟨rfl, hframe⟩ := hd
    split
    · next heq => exact Answers.pure (iff_of_true (by decide) (.inl heq))
    · next hleft =>
      split
      · next heq => exact Answers.pure (iff_of_true (by decide) (.inr (.inl heq)))
      · next hright =>
        refine Answers.arena_bind ?_
        rw [hframe.kind hsize, or_iff_right hleft, or_iff_right hright, or_iff_right hne]
        split
        · next hk => exact Answers.pure (iff_of_false (not_not_intro rfl) fun hand => hk hand.1)
        · next hk =>
          -- the walk starts where `Object` was looked up, in a hierarchy that is still the same
          rw [and_iff_right (not_not.1 hk)]
          have hheight := h.height_le hc hsize hframe
          obtain ⟨k, hk⟩ : ∃ k, fuel c = c.arena.size + k + 1 :=
            Nat.exists_eq_add_of_lt (by rw [fuel]; omega)
          rw [hk]
          have hfits : d.arena.DepthFits tp1 tp2 (matchHighestDepth + 1).toInt := fun x k hx hk =>
            hfits x k hx (h.ascent_of hc hsize hframe hk)
          refine (answers_classDepth (h.retained hc hsize hframe).hierarchy (by omega) (by decide)
            hfits (.refl d)).mono fun n e he => ?_
          obtain ⟨-, m, hm, hscore⟩ := he
          rw [ne_matchNotFound_iff, hscore, score_ne_zero_iff (by decide),
            Arena.ne_zero_iff_transGen hm, h.transGen_iff hc hsize hframe]

/-- A parameter with a type expects that type. -/
theorem answers_expectedOf {call : Call} (hk : c.arena.kind param = .param)
    (hout : (c.arena.node param).flags.contains .paramOut = false)
    (hchild : (c.arena.children param).head? = some ty) (hset : c.arena.kind ty ≠ .set)
    (hty : (c.arena.typeNode ty).isSome = true) :
    Answers c (expectedOf call arg param) fun x d => x = .typeOf ty ∧ d = c := by
  refine Answers.ask_bind (Arena.flag_of_accepts (by rw [hk]; rfl)) ?_
  rw [hout, if_neg Bool.false_ne_true]
  refine Answers.arena_bind ?_
  rw [hchild]
  dsimp only
  rw [if_neg hset, if_pos hty]
  exact Answers.pure ⟨rfl, rfl⟩

/-- **Which arguments meet a parameter.**  Where both have a type, in a hierarchy without circles in
which every name is linked, it is those whose type is that of the parameter, those with `Object` on
either side, and those whose type is a class that inherits from the type of the parameter.  The
depths of the classes, counted from two on, have to fit into 32 bits.  So they do as long as the nodes
are numbered in 32 bits (`Arena.Hierarchy.depthFits_of_ids`). -/
theorem matchType_accepts_iff (c : Context) (arg param ty tp1 tp2 object : NodeId)
    (hc : c.arena.Consistent) (h : c.arena.LinkedHierarchy tp1)
    (hfits : c.arena.DepthFits tp1 tp2 2)
    (hobject : ((run (resolveInternalType · arg "Object")).exec c).1 = .ok object)
    (hk : c.arena.kind param = .param)
    (hout : (c.arena.node param).flags.contains .paramOut = false)
    (hchild : (c.arena.children param).head? = some ty) (hset : c.arena.kind ty ≠ .set)
    (harg : c.arena.typeNode arg = some tp1) (hty : c.arena.typeNode ty = some tp2) :
    ∃ n b, ((run (matchType · arg param)).exec c).1 = .ok n ∧
      ((run (isDerivedFrom · tp1 tp2)).exec c).1 = .ok b ∧
      (n ≠ matchNotFound ↔ tp1 = object ∨ tp2 = object ∨ tp1 = tp2 ∨
        c.arena.kind tp1 = .class_ ∧ b = true) := by
  obtain ⟨b, d, hb, -, hderived⟩ := Answers.run (s := (isDerivedFrom · tp1 tp2))
    (answers_isDerivedFrom h.hierarchy (height_le_fuel c tp1))
  have hmatch : Answers c (run (matchType · arg param)) fun n _ => n ≠ matchNotFound ↔
      tp1 = object ∨ tp2 = object ∨ tp1 = tp2 ∨
        c.arena.kind tp1 = .class_ ∧ TransGen c.arena.NamesSuper tp1 tp2 := by
    refine Answers.run (Answers.arena_bind ?_)
    rw [if_pos hk]
    refine (answers_expectedOf hk hout hchild hset (by rw [hty]; rfl)).bind fun x d hd => ?_
    rw [hd.1, hd.2]
    exact answers_matchTypes hc h hfits harg hty hobject
  obtain ⟨n, e, hn, hiff⟩ := hmatch
  refine ⟨n, b, congrArg Prod.fst hn, congrArg Prod.fst hb, hiff.trans ?_⟩
  rw [hderived, h.hierarchy.transGen_iff]
  by_cases heq : tp1 = tp2
  · simp only [heq, true_or, or_true]
  · simp only [heq, ne_eq, not_false_eq_true, true_and]

/-! ### A class and an interface that inherit -/

/-- The class `D` extends `B`, and the interface `I` extends `J`.  The function `f` has parameters
of the types `B` and `J`, and is called with a `D` and an `I`.  Beside the program there is a module
that declares `Object`. -/
def argumentHistory : List Command :=
  [.create .program {}, .create .directiveList {}, .create .class_ {},
   .create .class_ {}, .create .extends_ {}, .create .identifier {}, .create .interface {},
   .create .interface {}, .create .extends_ {}, .create .identifier {},
   .create .function {}, .create .parameters {}, .create .param {}, .create .identifier {},
   .create .param {}, .create .identifier {},
   .create .call {}, .create .identifier {}, .create .list {}, .create .identifier {},
   .create .identifier {},
   .create .program {}, .create .directiveList {}, .create .class_ {},
   .setText ⟨2⟩ "B", .setText ⟨3⟩ "D", .setText ⟨5⟩ "B", .setText ⟨6⟩ "J", .setText ⟨7⟩ "I",
   .setText ⟨9⟩ "J", .setText ⟨10⟩ "f", .setText ⟨12⟩ "a", .setText ⟨13⟩ "B", .setText ⟨14⟩ "b",
   .setText ⟨15⟩ "J", .setText ⟨17⟩ "f", .setText ⟨19⟩ "d", .setText ⟨20⟩ "i",
   .setText ⟨23⟩ "Object",
   .appendChild ⟨0⟩ ⟨1⟩, .appendChild ⟨1⟩ ⟨2⟩,
   .appendChild ⟨1⟩ ⟨3⟩, .appendChild ⟨3⟩ ⟨4⟩, .appendChild ⟨4⟩ ⟨5⟩,
   .appendChild ⟨1⟩ ⟨6⟩, .appendChild ⟨1⟩ ⟨7⟩, .appendChild ⟨7⟩ ⟨8⟩, .appendChild ⟨8⟩ ⟨9⟩,
   .appendChild ⟨1⟩ ⟨10⟩, .appendChild ⟨10⟩ ⟨11⟩, .appendChild ⟨11⟩ ⟨12⟩, .appendChild ⟨12⟩ ⟨13⟩,
   .appendChild ⟨11⟩ ⟨14⟩, .appendChild ⟨14⟩ ⟨15⟩,
   .appendChild ⟨1⟩ ⟨16⟩, .appendChild ⟨16⟩ ⟨17⟩, .appendChild ⟨16⟩ ⟨18⟩, .appendChild ⟨18⟩ ⟨19⟩,
   .appendChild ⟨18⟩ ⟨20⟩,
   .appendChild ⟨21⟩ ⟨22⟩, .appendChild ⟨22⟩ ⟨23⟩,
   .setLink ⟨5⟩ .inst (some ⟨2⟩), .setLink ⟨9⟩ .inst (some ⟨6⟩),
   .setLink ⟨13⟩ .typeNode (some ⟨2⟩), .setLink ⟨15⟩ .typeNode (some ⟨6⟩),
   .setLink ⟨19⟩ .typeNode (some ⟨3⟩), .setLink ⟨20⟩ .typeNode (some ⟨7⟩)]

/-- The context of that program. -/
def argumentContext : Context :=
  { arena := after argumentHistory, parser := fun _ => .rejected, nativeImport := some ⟨21⟩ }

theorem consistent_argumentContext : argumentContext.arena.Consistent :=
  .of_history argumentHistory (by rw [argumentContext])

/-- Every name is linked to a class that was created before the one that names it.  The parameters
and the arguments have types.  The class `Object` is found from either argument, `D` inherits from
`B` and `I` from `J`; and yet the `I` does not meet the `J`. -/
theorem facts_argumentContext :
    (∀ i < argumentContext.arena.size, ∀ name ∈ argumentContext.arena.superNames ⟨i⟩,
      (argumentContext.arena.inst name).isSome = true ∧
        ∀ y ∈ argumentContext.arena.inst name, y.index < i) ∧
    (argumentContext.arena.kind ⟨12⟩ = .param ∧
      (argumentContext.arena.node ⟨12⟩).flags.contains .paramOut = false ∧
      (argumentContext.arena.children ⟨12⟩).head? = some ⟨13⟩ ∧
      argumentContext.arena.kind ⟨13⟩ ≠ .set ∧
      argumentContext.arena.typeNode ⟨19⟩ = some ⟨3⟩ ∧
      argumentContext.arena.typeNode ⟨13⟩ = some ⟨2⟩ ∧ argumentContext.arena.kind ⟨3⟩ = .class_) ∧
    (argumentContext.arena.kind ⟨14⟩ = .param ∧
      (argumentContext.arena.node ⟨14⟩).flags.contains .paramOut = false ∧
      (argumentContext.arena.children ⟨14⟩).head? = some ⟨15⟩ ∧
      argumentContext.arena.kind ⟨15⟩ ≠ .set ∧
      argumentContext.arena.typeNode ⟨20⟩ = some ⟨7⟩ ∧
      argumentContext.arena.typeNode ⟨15⟩ = some ⟨6⟩ ∧
      argumentContext.arena.kind ⟨7⟩ = .interface ∧ argumentContext.arena.kind ⟨6⟩ = .interface) ∧
    ((run (resolveInternalType · ⟨19⟩ "Object")).exec argumentContext).1.toOption = some ⟨23⟩ ∧
    ((run (resolveInternalType · ⟨20⟩ "Object")).exec argumentContext).1.toOption = some ⟨23⟩ ∧
    ((run (isDerivedFrom · ⟨3⟩ ⟨2⟩)).exec argumentContext).1.toOption = some true ∧
    ((run (isDerivedFrom · ⟨7⟩ ⟨6⟩)).exec argumentContext).1.toOption = some true ∧
    ((run (matchType · ⟨20⟩ ⟨14⟩)).exec argumentContext).1.toOption = some matchNotFound ∧
    argumentContext.arena.size = 24 := by
  decide +kernel

theorem linkedHierarchy_argumentContext (s : NodeId) :
    argumentContext.arena.LinkedHierarchy s :=
  Arena.linkedHierarchy_of_lt facts_argumentContext.1 s

theorem depthFits_argumentContext : argumentContext.arena.DepthFits ⟨3⟩ ⟨2⟩ 2 := by
  obtain ⟨-, -, -, -, -, -, -, -, hsize⟩ := facts_argumentContext
  exact (linkedHierarchy_argumentContext _).hierarchy.depthFits (hsize ▸ by decide)

/-- An argument of the class `D` meets a parameter of the class `B`. -/
theorem matchType_accepts_iff_class :
    argumentContext.arena.Consistent ∧ argumentContext.arena.LinkedHierarchy ⟨3⟩ ∧
    argumentContext.arena.DepthFits ⟨3⟩ ⟨2⟩ 2 ∧
    ((run (resolveInternalType · ⟨19⟩ "Object")).exec argumentContext).1 = .ok ⟨23⟩ ∧
    ∃ n, ((run (matchType · ⟨19⟩ ⟨12⟩)).exec argumentContext).1 = .ok n ∧ n ≠ matchNotFound := by
  obtain ⟨-, ⟨hk, hout, hchild, hset, harg, hty, hclass⟩, -, hobject, -, hderived, -⟩ :=
    facts_argumentContext
  have hobject := eq_ok_of_toOption hobject
  obtain ⟨n, b, hn, hb, hiff⟩ := matchType_accepts_iff argumentContext ⟨19⟩ ⟨12⟩ ⟨13⟩ ⟨3⟩ ⟨2⟩ ⟨23⟩
    consistent_argumentContext (linkedHierarchy_argumentContext _) depthFits_argumentContext hobject
    hk hout hchild hset harg hty
  have hb : b = true := Except.ok.inj (hb.symm.trans (eq_ok_of_toOption hderived))
  exact ⟨consistent_argumentContext, linkedHierarchy_argumentContext _, depthFits_argumentContext,
    hobject, n, hn, hiff.2 (.inr (.inr (.inr ⟨hclass, hb⟩)))⟩

/-- An interface that inherits from the type of a parameter does not meet it. -/
theorem matchType_rejects_interface :
    ¬ ∀ (c : Context) (arg param ty tp1 tp2 object : NodeId),
      c.arena.Consistent → c.arena.LinkedHierarchy tp1 →
      ((run (resolveInternalType · arg "Object")).exec c).1 = .ok object →
      c.arena.kind param = .param → (c.arena.node param).flags.contains .paramOut = false →
      (c.arena.children param).head? = some ty → c.arena.kind ty ≠ .set →
      c.arena.typeNode arg = some tp1 → c.arena.typeNode ty = some tp2 →
      (c.arena.kind tp1).isClass = true → (c.arena.kind tp2).isClass = true →
      ∃ n b, ((run (matchType · arg param)).exec c).1 = .ok n ∧
        ((run (isDerivedFrom · tp1 tp2)).exec c).1 = .ok b ∧
        (n ≠ matchNotFound ↔ tp1 = object ∨ tp2 = object ∨ b = true) := by
  intro h
  obtain ⟨-, -, ⟨hk, hout, hchild, hset, harg, hty, hI, hJ⟩, -, hobject, -, hderived, hmatch, -⟩ :=
    facts_argumentContext
  have hmatch := eq_ok_of_toOption hmatch
  obtain ⟨n, b, hn, hb, hiff⟩ := h argumentContext ⟨20⟩ ⟨14⟩ ⟨15⟩ ⟨7⟩ ⟨6⟩ ⟨23⟩
    consistent_argumentContext (linkedHierarchy_argumentContext _) (eq_ok_of_toOption hobject) hk
    hout hchild hset harg hty (by rw [hI]; rfl) (by rw [hJ]; rfl)
  have hb : b = true := Except.ok.inj (hb.symm.trans (eq_ok_of_toOption hderived))
  exact hiff.2 (.inr (.inr hb)) (Except.ok.inj (hn.symm.trans hmatch))

end Search

end SymbolTree
