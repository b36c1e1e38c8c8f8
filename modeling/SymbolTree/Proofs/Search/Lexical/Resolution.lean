import SymbolTree.Proofs.Arena.Deed
import SymbolTree.Proofs.Search.Climbing
import SymbolTree.Proofs.Search.Lexical.Declaration

/-!
# Names are resolved by lexical scoping

In a plain program a search for a name without arguments finds what `Context.Selects` selects: scope
by scope, each scope asks its children in the order of `Arena.shown`, and the first child that
declares the name ends the search.

## Main statement

* `Search.resolveName_selects` — what is found is what lexical scoping selects.
-/

set_option autoImplicit false
namespace SymbolTree

namespace Search

variable {c : Context} {root : NodeId}

/-! ## Scopes -/

/-- How the search in a scope ends, when `found` is what the scope declares. -/
def LeadsTo (c : Context) (root id : NodeId) (t : Tally) (found : Option NodeId) (r : Step)
    (d : Context) : Prop :=
  match found with
  | some m => r = .ended (some m) ∧ Met c root id m d
  | none => r = .next t ∧ Idle c root d

theorem yields_locked {id n : NodeId} {p : Search Step} {t : Tally} {found : Option NodeId}
    (h : Yields (Idle c root) p (LeadsTo c root id t found)) :
    Yields (Idle c root) (withLock n p) (LeadsTo c root id t found) := by
  refine h.withLock (fun d hd => hd.lock n) fun r d hd => ?_
  cases found with
  | some m => exact ⟨hd.1, hd.2.drop _⟩
  | none => exact ⟨hd.1, hd.2.drop _⟩

theorem yields_askChildren (h : c.PlainProgram root) (id : NodeId) (mode : SearchMode)
    (fuel : Nat) {list : NodeId} (t : Tally) (places : List Nat) (ns : List NodeId)
    (hplaces : places.map ((c.arena.children list)[·]?) = ns.map some)
    (hns : ∀ n ∈ ns, c.InPlain root n) :
    Yields (Idle c root) (askChildren (answer fuel) ⟨id, none, mode⟩ list places t)
      (LeadsTo c root id t (ns.findSome? (c.arena.declared (c.arena.name id)))) := by
  refine (yields_scan h id mode fuel t places ns hplaces hns).bind fun r =>
    Yields.pure fun d hd => ?_
  cases hfound : ns.findSome? (c.arena.declared (c.arena.name id)) with
  | some m =>
    rw [hfound] at hd
    exact ⟨by rw [hd.1]; rfl, hd.2⟩
  | none =>
    rw [hfound] at hd
    exact ⟨by rw [hd.1]; rfl, hd.2⟩

/-- The first places lead to the first items of a list. -/
theorem map_range_getElem? {α : Type} (l : List α) {k : Nat} (hk : k ≤ l.length) :
    (List.range k).map (l[·]?) = (l.take k).map some := by
  induction k with
  | zero => rfl
  | succ k ih =>
    rw [List.range_succ, List.map_append, ih (Nat.le_of_succ_le hk), List.take_add_one,
      List.map_append]
    simp [List.getElem?_eq_getElem hk]

/-- The other places lead to the other items. -/
theorem map_add_range_getElem? {α : Type} (l : List α) (k : Nat) :
    ((List.range (l.length - k)).map (k + ·)).map (l[·]?) = (l.drop k).map some := by
  have hdrop := map_range_getElem? (l.drop k) (k := l.length - k) (by simp)
  rw [List.take_of_length_le (by simp)] at hdrop
  rw [← hdrop, List.map_map]
  refine List.map_congr_left fun i _ => ?_
  simp [List.getElem?_drop]

/-- The place of an item divides a list into what stands before it and the rest. -/
theorem span_of_idxOf? {l : List NodeId} {n : NodeId} {i : Nat} (h : l.idxOf? n = some i) :
    i < l.length ∧ l.takeWhile (· ≠ n) = l.take i ∧ l.dropWhile (· ≠ n) = l.drop i := by
  induction l generalizing i with
  | nil => simp at h
  | cons m l ih =>
    rw [List.idxOf?_cons] at h
    by_cases hmn : m = n
    · subst hmn
      rw [beq_self_eq_true] at h
      cases h
      simp
    · have hne : (m == n) = false := by simpa using hmn
      rw [hne] at h
      obtain ⟨j, hj, rfl⟩ := Option.map_eq_some_iff.1 h
      obtain ⟨hlt, htake, hdrop⟩ := ih hj
      refine ⟨Nat.succ_lt_succ hlt, ?_, ?_⟩
      · rw [List.takeWhile_cons_of_pos (by simpa using hmn), htake, List.take_succ_cons]
      · rw [List.dropWhile_cons_of_pos (by simpa using hmn), hdrop, List.drop_succ_cons]

variable (id : NodeId) (mode : SearchMode) (fuel : Nat) (t : Tally)

/-- In a list of directives the search goes back from a place and then on from it. -/
theorem yields_inDirectives (h : c.PlainProgram root) {list : NodeId} {offset : Nat}
    (hoffset : offset ≤ (c.arena.children list).length)
    (hns : ∀ n ∈ c.arena.children list, c.InPlain root n) :
    Yields (Idle c root) (inDirectives (answer fuel) ⟨id, none, mode⟩ list offset t)
      (LeadsTo c root id t ((((c.arena.children list).take offset).reverse
        ++ (c.arena.children list).drop offset).findSome?
        (c.arena.declared (c.arena.name id)))) := by
  refine Yields.arena_bind fun d hd => ?_
  rw [hd.same.alike.children]
  have hall := (yields_askChildren h id mode fuel t
    ((List.range offset).reverse ++ (List.range ((c.arena.children list).length - offset)).map
      (offset + ·)) (((c.arena.children list).take offset).reverse
        ++ (c.arena.children list).drop offset) (by
      rw [List.map_append, List.map_append, List.map_reverse, List.map_reverse,
        map_range_getElem? _ hoffset, map_add_range_getElem?]) fun n hn => by
      rcases List.mem_append.1 hn with hn | hn
      · exact hns n (List.mem_of_mem_take (List.mem_reverse.1 hn))
      · exact hns n (List.mem_of_mem_drop hn)).start hd
  dsimp only
  split
  · exact Yields.bind (Q := fun _ _ => False) Yields.internal fun _ _ hf => hf.elim
  · exact hall

/-- The parameters of a function are asked from the first to the last, unless the name is that of a
type. -/
theorem yields_inFunction (h : c.PlainProgram root) {list : NodeId}
    (hid : (c.arena.node id).attributes.contains .type = false)
    (hns : ∀ p, c.arena.findFirstChild list .parameters = some p →
      ∀ n ∈ c.arena.children p, c.InPlain root n) :
    Yields (Idle c root) (inFunction (answer fuel) ⟨id, none, mode⟩ list t)
      (LeadsTo c root id t ((match c.arena.findFirstChild list .parameters with
        | some p => c.arena.children p
        | none => []).findSome? (c.arena.declared (c.arena.name id)))) := by
  refine Yields.bind (Q := fun b d => Idle c root d ∧ b = false) (Yields.ask fun d b hd hb => ?_)
    fun b => ?_
  · obtain ⟨_, -, hb⟩ := bind_eq_ok_iff.1 hb
    rw [← Except.ok.inj hb, (hd.same.alike id).attributes]
    exact ⟨hd, hid⟩
  · refine Ensures.at fun d hd => ?_
    rw [hd.2]
    refine Yields.arena_bind fun e he => ?_
    subst he
    rw [Arena.findFirstChild, hd.1.same.alike.children, hd.1.same.alike.kind,
      ← Arena.findFirstChild]
    cases hp : c.arena.findFirstChild list .parameters with
    | none => exact Yields.pure fun e' he' => ⟨rfl, he' ▸ hd.1⟩
    | some p =>
      refine (yields_locked (Yields.arena_bind fun e' he' => ?_)).start hd.1
      rw [he'.same.alike.children]
      refine (yields_askChildren h id mode fuel t _ _ ?_ (hns p hp)).start he'
      rw [map_range_getElem? _ (Nat.le_refl _), List.take_of_length_le (Nat.le_refl _)]

/-- The first thing that a handler declares is asked. -/
theorem yields_inCatch (h : c.PlainProgram root) {list : NodeId}
    (hns : ∀ p, (c.arena.children list).head? = some p →
      ∀ n ∈ c.arena.children p, c.InPlain root n) :
    Yields (Idle c root) (inCatch (answer fuel) ⟨id, none, mode⟩ list t)
      (LeadsTo c root id t ((match (c.arena.children list).head? with
        | some p => (c.arena.children p).take 1
        | none => []).findSome? (c.arena.declared (c.arena.name id)))) := by
  refine Yields.arena_bind fun d hd => ?_
  rw [hd.same.alike.children]
  cases hp : (c.arena.children list).head? with
  | none => exact Yields.pure fun e he => ⟨rfl, he ▸ hd⟩
  | some p =>
    dsimp only
    split
    · next hempty =>
      rw [List.isEmpty_iff.1 hempty]
      exact Yields.pure fun e he => ⟨rfl, he ▸ hd⟩
    · next hempty =>
      refine (yields_askChildren h id mode fuel t [0] _ ?_ fun n hn =>
        hns p hp n (List.mem_of_mem_take hn)).start hd
      cases hl : c.arena.children p with
      | nil => rw [hl] at hempty; exact absurd rfl hempty
      | cons n ns => rfl

/-- A scope is asked for what it shows. -/
theorem yields_inScope (h : c.PlainProgram root) {list place : NodeId} {offset : Nat}
    (hid : (c.arena.node id).attributes.contains .type = false) (hlist : c.arena.Within root list)
    (hoffset : (c.arena.children list).idxOf? place = some offset) :
    Yields (Idle c root) (inScope (answer fuel) ⟨id, none, mode⟩ list offset t)
      (LeadsTo c root id t
        ((c.arena.shown list place).findSome? (c.arena.declared (c.arena.name id)))) := by
  have hplain := (h.tree root (.inl rfl)).plain list hlist
  obtain ⟨hlt, htake, hdrop⟩ := span_of_idxOf? hoffset
  have hwithin : ∀ {m}, c.arena.Within root m → ∀ n ∈ c.arena.children m,
      c.arena.Within root n := fun hm n hn =>
    Arena.PlainTree.within_child h.consistent hm (h.classless _ hm) hn
  have hchild : ∀ {m}, c.arena.Within root m → ∀ n ∈ c.arena.children m, c.InPlain root n :=
    fun hm n hn => ⟨root, .inl rfl, hwithin hm n hn⟩
  refine Yields.arena_bind fun d hd => ?_
  dsimp only
  rw [hd.same.alike.kind, hd.same.alike.children, Arena.shown, htake, hdrop]
  rw [if_neg (by
    rw [Bool.and_eq_true, decide_eq_true_eq]
    rintro ⟨hk, -⟩
    rw [hk] at hplain
    cases hplain)]
  refine Yields.start (yields_locked ?_) hd
  split
  · next hk =>
    rw [hk]
    exact yields_inDirectives id mode fuel t h (Nat.le_of_lt hlt) (hchild hlist)
  · next hk =>
    rw [hk]
    refine yields_askChildren h id mode fuel t _ _ ?_ fun n hn =>
      hchild hlist n (List.mem_of_mem_take hn)
    rw [map_range_getElem? _ (Nat.min_le_right _ _), Nat.min_eq_left (Nat.zero_lt_of_lt hlt)]
  · next hk => rw [hk] at hplain; cases hplain
  · next hk =>
    rw [hk]
    exact yields_inFunction id mode fuel t h hid fun p hp =>
      hchild (hwithin hlist p (List.mem_of_find?_eq_some hp))
  · next hk =>
    rw [hk]
    refine yields_askChildren h id mode fuel t _ _ ?_ fun n hn =>
      hchild hlist n (List.mem_of_mem_take (List.mem_reverse.1 hn))
    rw [List.map_reverse, List.map_reverse, map_range_getElem? _ (Nat.le_of_lt hlt)]
  · next hk =>
    rw [hk]
    exact yields_inCatch id mode fuel t h fun p hp =>
      hchild (hwithin hlist p (List.mem_of_head? hp))
  · next hk => rw [hk] at hplain; cases hplain
  · next hk => exact absurd hk (h.classless list hlist)
  · next hk => rw [hk] at hplain; cases hplain
  · exact Yields.internal

/-- The first list of a module is asked from the beginning. -/
theorem yields_inScope_general (h : c.PlainProgram root) {r list : NodeId} (hr : c.Provides r)
    (hlist : (c.arena.children r).head? = some list) :
    Yields (Idle c root) (inScope (answer fuel) ⟨id, none, mode⟩ list 0 t)
      (LeadsTo c root id t
        ((c.arena.children list).findSome? (c.arena.declared (c.arena.name id)))) := by
  have hk := h.list r list hr hlist
  have hwithin : c.arena.Within r list := Arena.PlainTree.within_child h.consistent .refl
    (by rw [(h.tree r (.inr hr)).program]; decide) (List.mem_of_head? hlist)
  refine Yields.arena_bind fun d hd => ?_
  dsimp only
  rw [hd.same.alike.kind, hk, if_neg (by simp)]
  refine Yields.start (yields_locked ?_) hd
  exact yields_inDirectives id mode fuel t h (Nat.zero_le _) fun n hn =>
    ⟨r, .inr hr, Arena.PlainTree.within_child h.consistent hwithin (by rw [hk]; decide) hn⟩

/-! ## All scopes -/

/-- When no declaration is found and no functions were counted, there is no answer. -/
theorem yields_conclude (h : c.PlainProgram root) :
    Yields (Idle c root) (conclude (answer fuel) ⟨id, none, mode⟩ {})
      fun r d => r = none ∧ ∃ e, c.Marked e ∧ Idle e root d := by
  refine Yields.bind (Q := fun o d => o = none ∧ Idle c root d) (Yields.pure fun _ h => ⟨rfl, h⟩)
    fun o => Ensures.at fun d hd => ?_
  rw [hd.1]
  refine (?_ : Yields _ (reportRejections id >>= fun _ => pure none) _)
  have hreport : Yields (· = d) (reportRejections id) fun _ e =>
      ∃ c', c.Marked c' ∧ Idle c' root e := by
    refine Yields.get_bind fun d' hd' => ?_
    subst hd'
    have hidle : Idle { c with lastRejections := d'.rejections } root
        { d' with lastRejections := d'.rejections } := by
      refine ⟨⟨?_, hd.2.same.locks⟩, hd.2.agrees, hd.2.known⟩
      exact congrArg (fun e : Context => { e with lastRejections := d'.rejections }) hd.2.same.eq
    have hmarked : c.Marked { c with lastRejections := d'.rejections } :=
      ⟨rfl, h.consistent, fun _ => .refl _⟩
    refine Yields.bind (Q := fun _ => Idle { c with lastRejections := d'.rejections } root)
      (Yields.modify fun e he => he ▸ hidle) fun _ => ?_
    split
    · exact Yields.pure fun e he => ⟨_, hmarked, he⟩
    · refine Yields.bind (Yields.nameOf id) fun _ => ?_
      exact (yields_error (fun e ds he => ⟨he.1.message ds, he.2⟩) _ _ _).mono (fun _ h => h)
        fun _ _ he => ⟨_, hmarked, he.1⟩
  exact hreport.bind fun _ => Yields.pure fun e he => ⟨rfl, he⟩

/-- How the search of all scopes ends. -/
def Aftermath (c : Context) (root id : NodeId) (r : Option NodeId) (d : Context) : Prop :=
  match r with
  | some m => Met c root id m d
  | none => ∃ e, c.Marked e ∧ Idle e root d

/-- The modules that declare things for all programs are asked one after the other. -/
theorem yields_walkImports (h : c.PlainProgram root)
    (imports : List (Context → Option NodeId)) (himports : ∀ f ∈ imports, (∀ d, Idle c root d →
      f d = f c) ∧ ∀ r, f c = some r → c.Provides r) :
    Yields (Idle c root) (walkImports (answer fuel) ⟨id, none, mode⟩ imports {}) fun r d =>
      r = (imports.flatMap fun f => c.shownBy (f c)).findSome?
        (c.arena.declared (c.arena.name id)) ∧ Aftermath c root id r d := by
  induction imports with
  | nil =>
    refine (yields_conclude id mode fuel h).mono (fun _ h => h) fun r d hd => ?_
    rw [hd.1]
    exact ⟨rfl, hd.2⟩
  | cons f imports ih =>
    obtain ⟨hsame, hprovides⟩ := himports f List.mem_cons_self
    have hrest := ih fun g hg => himports g (List.mem_cons_of_mem f hg)
    refine Yields.get_bind fun d hd => ?_
    rw [hsame d hd, hd.same.alike.children, List.flatMap_cons, List.findSome?_append,
      Context.shownBy]
    cases hlist : (f c).bind fun program => (c.arena.children program).head? with
    | none => exact hrest.start hd
    | some list =>
      obtain ⟨r, hr, hhead⟩ := Option.bind_eq_some_iff.1 hlist
      refine ((yields_inScope_general id mode fuel {} h (hprovides r hr) hhead).start hd).bind_at
        fun s e he => ?_
      dsimp only
      unfold LeadsTo at he
      split at he
      · next m hm =>
        rw [he.1, hm]
        exact Yields.pure fun e' he' => ⟨rfl, he' ▸ he.2⟩
      · next hnone =>
        rw [he.1, hnone]
        exact hrest.start he.2

theorem climb_of_same {d : Context} (hd : Same c d) (fuel : Nat) (n : NodeId) :
    climb d.arena fuel n = climb c.arena fuel n := by
  induction fuel generalizing n with
  | zero => rfl
  | succ fuel ih =>
    have hstep : ∀ m, parentInWalk d.arena m = parentInWalk c.arena m := fun m => by
      rw [parentInWalk, parentInWalk, hd.alike.parent]
    rw [climb, climb, Arena.offset, Arena.offset, hd.alike.parent, hd.alike.children,
      hd.alike.kind]
    simp only [hstep, ih]

/-- Climbing passes by what is no scope, and such nodes show nothing. -/
theorem selects_climb (h : c.PlainProgram root) (name : String) {fuel offset : Nat}
    {n scope : NodeId} (hn : c.arena.Within root n) (hk : c.arena.kind n ≠ .program)
    (hparams : c.arena.kind n ≠ .parameters)
    (hclimb : climb c.arena fuel n = .ok (scope, offset)) :
    ∃ place, c.arena.Within root scope ∧ c.arena.parent place = some scope ∧
      (c.arena.children scope).idxOf? place = some offset ∧
      c.arena.kind place ≠ .parameters ∧
      ∀ r, c.Selects name place r → c.Selects name n r := by
  induction fuel generalizing n with
  | zero => cases hclimb
  | succ fuel ih =>
    obtain ⟨i, hi, hclimb⟩ := bind_eq_ok_iff.1 hclimb
    obtain ⟨p, hp, hclimb⟩ := bind_eq_ok_iff.1 hclimb
    replace hp := parentInWalk_eq_ok hp
    replace hi := offset_eq_ok hi hp
    have hwithin := ((h.tree root (.inl rfl)).within_parent hn hk hp).1
    have hplain := (h.tree root (.inl rfl)).plain p hwithin
    split at hclimb
    · cases hclimb
    · next hkp => rw [hkp] at hplain; cases hplain
    · next hkp => rw [hkp] at hplain; cases hplain
    · split at hclimb
      · cases hclimb
        exact ⟨n, hwithin, hp, hi, hparams, fun r hr => hr⟩
      · next hscope =>
        have hne : ∀ k : Kind, k.isScope = true → c.arena.kind p ≠ k := by
          rintro k hk' rfl
          exact hscope hk'
        have hshown : c.arena.shown p n = [] := by
          unfold Arena.shown
          dsimp only
          split <;> first | rfl | exact absurd ‹_› (hne _ rfl)
        obtain ⟨place, hscope', hplace, hoffset, hpk, hsel⟩ :=
          ih hwithin (hne _ rfl) (hne _ rfl) hclimb
        refine ⟨place, hscope', hplace, hoffset, hpk, fun r hr => ?_⟩
        exact .outer hparams hp (hne _ rfl) (by rw [hshown]; rfl) (hsel r hr)

/-- The nearest scope around a node decides about a name, or leaves it to those around it. -/
theorem selects_enclosingScope (h : c.PlainProgram root) (name : String)
    {n scope : NodeId} {offset : Nat} (hn : c.arena.Within root n)
    (hk : c.arena.kind n ≠ .program) (hscope : enclosingScope c.arena n = .ok (scope, offset)) :
    ∃ place, c.arena.Within root scope ∧ c.arena.parent place = some scope ∧
      (c.arena.children scope).idxOf? place = some offset ∧
      c.arena.kind place ≠ .parameters ∧
      ∀ r, c.Selects name place r → c.Selects name n r := by
  rw [enclosingScope] at hscope
  split at hscope
  · next hparams =>
    obtain ⟨p, hp, hclimb⟩ := bind_eq_ok_iff.1 hscope
    replace hp := parentInWalk_eq_ok hp
    have htree := h.tree root (.inl rfl)
    have hkind := htree.parameters n p hn hparams hp
    obtain ⟨place, hw, hplace, hoffset, hpk, hsel⟩ := selects_climb h name
      (htree.within_parent hn hk hp).1 (by rcases hkind with e | e <;> rw [e] <;> decide)
      (by rcases hkind with e | e <;> rw [e] <;> decide) hclimb
    exact ⟨place, hw, hplace, hoffset, hpk, fun r hr => .parameters hparams hp (hsel r hr)⟩
  · next hparams => exact selects_climb h name hn hk hparams hscope

/-- The scopes around a node are asked from the inside out. -/
theorem yields_walkScopes (h : c.PlainProgram root)
    (hid : (c.arena.node id).attributes.contains .type = false) (scopes : Nat) {n : NodeId}
    (hn : c.arena.Within root n) (hk : c.arena.kind n ≠ .program) :
    Yields (Idle c root) (walkScopes (answer fuel) ⟨id, none, mode⟩ scopes n {}) fun r d =>
      c.Selects (c.arena.name id) n r ∧ Aftermath c root id r d := by
  induction scopes generalizing n with
  | zero => exact Yields.throw
  | succ scopes ih =>
    refine Yields.arena_bind fun d hd => ?_
    have henclosing : enclosingScope d.arena n = enclosingScope c.arena n := by
      rw [enclosingScope, enclosingScope, parentInWalk, parentInWalk, hd.same.alike.kind,
        hd.same.alike.parent, Arena.size, hd.same.nodes]
      simp only [climb_of_same hd.same]
      rfl
    rw [henclosing, hd.same.alike.kind]
    cases hscope : enclosingScope c.arena n with
    | error e => exact Yields.fail
    | ok r =>
      obtain ⟨scope, offset⟩ := r
      obtain ⟨place, hw, hplace, hoffset, hpk, hsel⟩ :=
        selects_enclosingScope h (c.arena.name id) hn hk hscope
      dsimp only
      split
      · next hprogram =>
        refine ((yields_walkImports id mode fuel h _ ?_).start hd).mono (fun _ h => h)
          fun r _ hr => ⟨hsel r ?_, hr.2⟩
        · intro f hf
          simp only [List.mem_cons, List.not_mem_nil, or_false] at hf
          rcases hf with rfl | rfl | rfl
          · exact ⟨fun e he => congrArg (·.globalImport) he.same.eq, fun r hr => by
              simp [Context.Provides, hr]⟩
          · exact ⟨fun e he => congrArg (·.systemImport) he.same.eq, fun r hr => by
              simp [Context.Provides, hr]⟩
          · exact ⟨fun e he => congrArg (·.nativeImport) he.same.eq, fun r hr => by
              simp [Context.Provides, hr]⟩
        · have hgeneral : c.Selects (c.arena.name id) place _ := .general hpk hplace hprogram
          rw [hr.1]
          simpa [Context.general] using hgeneral
      · next hprogram =>
        refine ((yields_inScope id mode fuel {} h hid hw hoffset).start hd).bind_at
          fun s e he => ?_
        unfold LeadsTo at he
        split at he
        · next m hm =>
          rw [he.1]
          exact Yields.pure fun e' he' => ⟨hsel _ (.inner hpk hplace hprogram hm), he' ▸ he.2⟩
        · next hnone =>
          rw [he.1]
          exact ((ih hw hprogram).start he.2).mono (fun _ h => h) fun r _ hr =>
            ⟨hsel r (.outer hpk hplace hprogram hnone hr.1), hr.2⟩

theorem Aftermath.withRejections {id : NodeId} {r : Option NodeId} {d : Context}
    (h : Aftermath c root id r d) (l : Rejections) :
    Aftermath c root id r { d with rejections := l } := by
  cases r with
  | some m => exact Met.withRejections h l
  | none =>
    obtain ⟨e, hmarked, he⟩ := h
    exact ⟨e, hmarked, he.withRejections l⟩

/-- Where nothing has happened, the search for a name selects by scoping, and what it leaves is
told by what it finds. -/
theorem yields_resolveName (h : c.PlainProgram root) {id : NodeId} (hid : c.arena.Within root id)
    (hk : c.arena.kind id = .identifier) (htype : c.arena.typeNode id = none) :
    Yields (Idle c root) (resolveName (answer fuel) id id none mode) fun r d =>
      c.Selects (c.arena.name id) id r ∧ Aftermath c root id r d := by
  have htree := h.tree root (.inl rfl)
  have hunmarked : (c.arena.node id).attributes.contains .type = false := by
    simp [htree.bare id hid]
  refine Yields.withFreshRejections (P := Idle c root)
    (Q := fun r d => c.Selects (c.arena.name id) id r ∧ Aftermath c root id r d)
    (Yields.arena_bind fun d hd => ?_) (fun d hd => hd.withRejections _)
    fun _ _ l hr => ⟨hr.1, hr.2.withRejections l⟩
  have hwalk := (yields_walkScopes id mode fuel h hunmarked (c.arena.size + 1) hid
    (by rw [hk]; decide)).start hd
  have htypeNode : d.arena.typeNode id = none := by
    rw [Arena.typeNode, Arena.link, Arena.live, ← htype, Arena.typeNode, Arena.link, Arena.live,
      Arena.node, hd.same.nodes]
    exact congrArg (Option.filter · _) (funext fun n => (hd.same.alike n).alive)
  dsimp only
  rw [hd.same.alike.kind, hk, htypeNode, if_neg (by decide), if_neg (by decide),
    hd.same.alike.parent]
  rw [Arena.size, ← hd.same.nodes] at hwalk
  dsimp only
  cases hp : c.arena.parent id with
  | none => exact hwalk
  | some p =>
    have hplain := htree.plain p (htree.within_parent hid (by rw [hk]; decide) hp).1
    have hwith : c.arena.kind p ≠ .with_ := fun e => by
      rw [e] at hplain
      cases hplain
    dsimp only
    rw [if_neg hwith]
    exact hwalk

/-- **Names are resolved by lexical scoping.**  Whenever the search for a name in a plain program,
started at the name itself, answers, its answer is the declaration that lexical scoping selects, or
nothing where it selects none. -/
theorem resolveName_selects (c : Context) (root id : NodeId) (mode : SearchMode)
    (h : c.PlainProgram root) (hid : c.arena.Within root id)
    (hk : c.arena.kind id = .identifier) (htype : c.arena.typeNode id = none) (r : Option NodeId)
    (hr : ((run (resolveName · id id none mode)).exec c).1 = .ok r) :
    c.Selects (c.arena.name id) id r := by
  have hresolve := yields_resolveName mode (fuel c) h hid hk htype
  rw [exec_run] at hr
  exact (hresolve.of_ok (Idle.refl h) (Prod.ext hr rfl)).1

/-! ### A name that is declared in many places -/

/-- A program that declares `a` before and after a function, in whose body the name `a` is used.
Beside it there is a module that declares `a` as well. -/
def scopeHistory : List Command :=
  [.create .program {}, .create .directiveList {}, .create .var {}, .create .variable_ {},
   .create .function {}, .create .parameters {}, .create .param {}, .create .directiveList {},
   .create .identifier {}, .create .var {}, .create .variable_ {}, .create .program {},
   .create .directiveList {}, .create .var {}, .create .variable_ {},
   .setText ⟨3⟩ "a", .setText ⟨4⟩ "f", .setText ⟨6⟩ "b", .setText ⟨8⟩ "a", .setText ⟨10⟩ "a",
   .setText ⟨14⟩ "a",
   .appendChild ⟨0⟩ ⟨1⟩, .appendChild ⟨1⟩ ⟨2⟩, .appendChild ⟨2⟩ ⟨3⟩, .appendChild ⟨1⟩ ⟨4⟩,
   .appendChild ⟨4⟩ ⟨5⟩, .appendChild ⟨5⟩ ⟨6⟩, .appendChild ⟨4⟩ ⟨7⟩, .appendChild ⟨7⟩ ⟨8⟩,
   .appendChild ⟨1⟩ ⟨9⟩, .appendChild ⟨9⟩ ⟨10⟩, .appendChild ⟨11⟩ ⟨12⟩, .appendChild ⟨12⟩ ⟨13⟩,
   .appendChild ⟨13⟩ ⟨14⟩]

/-- The context of that program. -/
def scopeContext : Context :=
  { arena := after scopeHistory, parser := fun _ => .rejected, nativeImport := some ⟨11⟩ }

theorem consistent_scopeContext : scopeContext.arena.Consistent :=
  .of_history scopeHistory (by rw [scopeContext])

theorem plainProgram_scopeContext : scopeContext.PlainProgram ⟨0⟩ := by
  have hnodes := Arena.forall_node (a := scopeContext.arena) (P := fun d =>
      d.kind.isPlain = true ∧ d.attributes = AttributeSet.empty ∧ d.attributeNode = none ∧
      d.flags.contains .functionGetter = false ∧ d.flags.contains .functionSetter = false)
    (by decide +kernel) (by decide)
  have hkinds := Arena.forall_node (a := scopeContext.arena) (P := fun d =>
      d.kind ≠ .class_ ∧ (d.kind = .parameters → d.parent = some ⟨4⟩))
    (by decide +kernel) (by decide)
  have hprovides : ∀ r, scopeContext.Provides r → r = ⟨11⟩ := by
    intro r hr
    simpa [Context.Provides, scopeContext] using hr
  have hparameters : ∀ n p, scopeContext.arena.kind n = .parameters →
      scopeContext.arena.parent n = some p → scopeContext.arena.kind p = .function := by
    intro n p hk hp
    cases ((hkinds n).2 hk).symm.trans hp
    decide +kernel
  refine ⟨consistent_scopeContext, fun r hr => .of_nodes hnodes hparameters ?_,
    fun n _ => (hkinds n).1, fun r list hr hlist => ?_, fun _ _ _ h => by cases h⟩
  · rcases hr with rfl | hr
    · decide +kernel
    · rw [hprovides r hr]
      decide +kernel
  · rw [hprovides r hr] at hlist
    cases (show (scopeContext.arena.children ⟨11⟩).head? = some ⟨12⟩ by decide +kernel).symm.trans
      hlist
    decide +kernel

/-- Inside the function the name stands for the declaration before the function. -/
theorem resolveName_selects_before : scopeContext.PlainProgram ⟨0⟩ ∧
    ((run (resolveName · ⟨8⟩ ⟨8⟩ none {})).exec scopeContext).1 = .ok (some ⟨3⟩) ∧
    scopeContext.Selects "a" ⟨8⟩ (some ⟨3⟩) := by
  have hwithin : scopeContext.arena.Within ⟨0⟩ ⟨8⟩ := by
    refine .head (b := ⟨7⟩) (by decide +kernel) (.head (b := ⟨4⟩) (by decide +kernel) ?_)
    exact .head (b := ⟨1⟩) (by decide +kernel) (.head (b := ⟨0⟩) (by decide +kernel) .refl)
  have hrun : ((run (resolveName · ⟨8⟩ ⟨8⟩ none {})).exec scopeContext).1 = .ok (some ⟨3⟩) :=
    eq_ok_of_toOption (by decide +kernel)
  have hselects := resolveName_selects scopeContext ⟨0⟩ ⟨8⟩ {} plainProgram_scopeContext hwithin
    (by decide +kernel) (by decide +kernel) _ hrun
  rw [show scopeContext.arena.name ⟨8⟩ = "a" by decide +kernel] at hselects
  exact ⟨plainProgram_scopeContext, hrun, hselects⟩

end Search

end SymbolTree
