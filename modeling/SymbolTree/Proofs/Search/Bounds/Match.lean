import SymbolTree.Proofs.Search.Bounds.InBounds

/-!
# Matches stay in bounds

When arguments are matched with parameters, places are computed in several ways: an argument goes to
the parameter of its name, to the next free one or to the next place of the rest, and a parameter
without an argument is put after the arguments.  The tables have room for the longer of the two
lists, and what lies beyond is not recorded (`Search.writes_assign`, `Search.writes_assignMissing`).

A match gets its tables once, right after it was created: what comes in between does not touch it
(`Search.Fills`).  When matches are compared, those that lose are taken from the arguments by place,
and that place is looked up anew each time (`Search.selecting_inBounds`).
-/

set_option autoImplicit false
namespace SymbolTree

namespace Arena

variable {a b : Arena} {m : NodeId} {k : Nat}

/-- The tables of a match have `k` places. -/
def Tabled (m : NodeId) (k : Nat) (a : Arena) : Prop :=
  m.index < a.size ∧ (a.node m).paramDepth.length = k ∧ (a.node m).paramIndex.length = k

/-- A match that has no tables yet. -/
def Blank (m : NodeId) (a : Arena) : Prop :=
  a.kind m = .paramMatch ∧ (a.node m).paramDepth = [] ∧ (a.node m).paramIndex = []

/-- Tables that are there keep their size. -/
theorem Steady.tabled (h : a.Steady b) (ha : a.Tabled m k) : b.Tabled m k := by
  obtain ⟨hm, hd, hi⟩ := ha
  obtain ⟨hd', hi'⟩ := h.tables m hm nofun
  exact ⟨Nat.lt_of_lt_of_le hm h.size_le, hd' ▸ hd, hi' ▸ hi⟩

theorem Steady.blank (h : a.Steady b) (ha : a.Blank m) : b.Blank m := by
  obtain ⟨hk, hd, hi⟩ := ha
  have hm : m.index < a.size := lt_size_of_kind_ne (by rw [hk]; decide)
  obtain ⟨hd', hi'⟩ := h.tables m hm nofun
  exact ⟨(h.kind m hm).trans hk, hd'.trans hd, hi'.trans hi⟩

/-- Only the match itself is written to. -/
theorem Consistent.steadyBut_retable (h : a.Consistent) (m : NodeId) (f : List Int32 → List Int32)
    (g : List Nat → List Nat) : SteadyBut (some m) a (a.retable m f g) := by
  refine ⟨h.retable m f g, Nat.le_of_eq (size_update a m _).symm,
    fun n _ => field_update Node.kind rfl n, rfl, fun n _ => field_update Node.children rfl n,
    fun n _ hm => ?_⟩
  have hne : n ≠ m := fun he => hm (congrArg some he.symm)
  simp [Arena.retable, hne]

/-- An entry is written to without a change of size. -/
theorem Tabled.retable (h : a.Tabled m k) {f : List Int32 → List Int32} {g : List Nat → List Nat}
    (hf : ∀ l, (f l).length = l.length) (hg : ∀ l, (g l).length = l.length) :
    (a.retable m f g).Tabled m k := by
  obtain ⟨hm, hd, hi⟩ := h
  rw [Tabled, Arena.retable, size_update, node_update, if_pos ⟨rfl, hm⟩]
  exact ⟨hm, (hf _).trans hd, (hg _).trans hi⟩

/-- A new match has no tables. -/
theorem blank_push (a : Arena) (p : Position) (f : Option NodeId) :
    (a.push { kind := .paramMatch, position := p, inst := f }).2.Blank ⟨a.size⟩ := by
  refine ⟨?_, ?_, ?_⟩
  · rw [kind, node_push, if_pos rfl]
  · rw [node_push, if_pos rfl]
  · rw [node_push, if_pos rfl]

/-- A match without tables can be given some. -/
theorem Blank.setParamSize (h : a.Blank m) (hk : k ≠ 0) : ∃ f g,
    a.setParamSize m k = .ok (a.retable m f g) ∧ (a.retable m f g).Tabled m k := by
  obtain ⟨hkind, hd, -⟩ := h
  have hlt : m.index < a.size := lt_size_of_kind_ne (by rw [hkind]; decide)
  refine ⟨fun _ => List.replicate k matchNotFound, fun _ => List.replicate k 0, ?_, ?_⟩
  · rw [Arena.setParamSize]
    rw [kind] at hkind
    simp [hkind, hd, hk, retable]
  · rw [Tabled, retable, size_update, node_update, if_pos ⟨rfl, hlt⟩]
    exact ⟨hlt, List.length_replicate, List.length_replicate⟩

end Arena

namespace Search

variable {T : Arena → Prop} {call : Call}

/-! ## Assigning arguments -/

theorem inBounds_defineFunctionType (hcall : InBoundsCalls call) (f : NodeId) :
    InBounds T (defineFunctionType call f) :=
  (hcall.typed.defineFunctionType f).anywhere

theorem inBounds_matchType (hcall : InBoundsCalls call) (arg target : NodeId) :
    InBounds T (matchType call arg target) :=
  (modular_matchType modular_inBounds hcall.answered hcall.typed
    (fun c type depth => hcall.inBounds (.classDepth c type depth)) arg target).anywhere

/-- A parameter is looked up by name. -/
theorem inBounds_placeNamed (arg : NodeId) (declared : List NodeId) (s : Assignment) :
    InBounds T (placeNamed arg declared s) :=
  (modular_placeNamed modular_inBounds arg declared s).anywhere

/-- Started where the tables of the match have `k` places, the search writes to no other tables and
stays in bounds. -/
structure Writes {α : Type} (m : NodeId) (k : Nat) (p : Search α) : Prop where
  /-- The search ends as it should. -/
  ends : ∀ c : Context, c.arena.Consistent → c.arena.Tabled m k →
    EndsInBounds (some m) c.arena (p.exec c)
  /-- If the search answers, the tables have as many places as before. -/
  tabled : ∀ (c d : Context) (x : α), c.arena.Consistent → c.arena.Tabled m k →
    p.exec c = (.ok x, d) → d.arena.Tabled m k

namespace Writes

variable {α β : Type} {m : NodeId} {k : Nat} {p : Search α} {f : α → Search β}

/-- What writes to no table keeps them as they are. -/
theorem of_inBounds (h : InBounds (·.Tabled m k) p) : Writes m k p := by
  refine ⟨fun c hc hm => (h.ends c hc hm).but (some m), fun c d x hc hm hr => ?_⟩
  have hends := h.ends c hc hm
  rw [hr] at hends
  exact Arena.Steady.tabled hends hm

theorem pure {x : α} : Writes m k (Pure.pure x : Search α) := of_inBounds .pure

theorem bind (hp : Writes m k p) (hf : ∀ x, Writes m k (f x)) : Writes m k (p >>= f) := by
  refine ⟨fun c hc hm => (hp.ends c hc hm).bind fun x d hr hd => ?_, fun c e y hc hm hr => ?_⟩
  · exact ((hf x).ends d hd.consistent (hp.tabled c d x hc hm hr)).of_steady hd
  · have hends := hp.ends c hc hm
    rw [exec_bind] at hr
    match hfirst : p.exec c with
    | (.error _, d) =>
      rw [hfirst] at hr
      cases hr
    | (.ok x, d) =>
      rw [hfirst] at hr hends
      exact (hf x).tabled d e y hends.consistent (hp.tabled c d x hc hm hfirst) hr

theorem arena_bind {f : Arena → Search β} (hf : ∀ a, Writes m k (f a)) :
    Writes m k (arena >>= f) :=
  bind (of_inBounds .arena) hf

/-- A request that fills in the tables of the match. -/
theorem retable {g : Arena → Except NodeError Arena} {h : List Int32 → List Int32}
    {r : List Nat → List Nat} (hh : ∀ l, (h l).length = l.length)
    (hr : ∀ l, (r l).length = l.length)
    (hg : ∀ a : Arena, a.Tabled m k → g a = .ok (a.retable m h r)) : Writes m k (change g) := by
  refine ⟨fun c hc hm => ?_, fun c d x hc hm hx => ?_⟩
  · rw [exec_change, hg _ hm]
    exact hc.steadyBut_retable m h r
  · rw [exec_change, hg _ hm] at hx
    cases hx
    exact hm.retable hh hr

end Writes

/-- The place of the parameter is in the table. -/
theorem writes_setParamDepth {m : NodeId} {j k : Nat} (hj : j < k) (depth : Int32) :
    Writes m k (change fun a => a.setParamDepth m j depth) :=
  .retable (h := (·.set j depth)) (r := id) (fun _ => List.length_set) (fun _ => rfl)
    fun a hm => by
      rw [Arena.setParamDepth, Arena.paramSize, hm.2.1, if_pos hj]
      rfl

/-- And so is that of the argument. -/
theorem writes_setParamIndex {m : NodeId} {i j k : Nat} (hi : i < k) (hj : j < k) :
    Writes m k (change fun a => a.setParamIndex m i j) :=
  .retable (h := id) (r := (·.set i j)) (fun _ => rfl) (fun _ => List.length_set) fun a hm => by
    rw [Arena.setParamIndex, hm.2.2, if_pos (by simp [hi, hj])]
    rfl

/-- Arguments are counted up to the size of the tables. -/
theorem writes_assign (hcall : InBoundsCalls call) (m : NodeId) (declared : List NodeId)
    (last : NodeId) {size i : Nat} {args : List NodeId} (hi : i + args.length ≤ size)
    (s : Assignment) : Writes m size (assign call m declared last size i args s) := by
  induction args generalizing i s with
  | nil => exact .pure
  | cons arg args ih =>
    rw [List.length_cons] at hi
    have hrest : ∀ s, Writes m size (assign call m declared last size (i + 1) args s) :=
      fun s => ih (by omega) s
    refine .arena_bind fun a => ?_
    extract_lets go
    have hgo : ∀ placed, Writes m size (go placed) := by
      intro placed
      cases placed with
      | none => exact .pure
      | some r =>
        obtain ⟨j, s⟩ := r
        refine .bind (.of_inBounds (inBounds_matchType hcall arg _)) fun depth => ?_
        split
        · exact .pure
        · dsimp only
          split
          · next hj =>
            refine .bind (writes_setParamDepth hj depth) fun _ => ?_
            exact .bind (writes_setParamIndex (by omega) hj) fun _ => hrest _
          · exact hrest _
    split
    · exact .bind (.of_inBounds (inBounds_placeNamed arg declared s)) hgo
    · exact .arena_bind fun a => .bind .pure hgo

/-- The parameters without an argument are numbered like the parameters. -/
theorem writes_assignMissing (m : NodeId) {size : Nat} (i : Nat) {ps : List (NodeId × Nat)}
    (hps : ∀ p ∈ ps, p.2 < size) : Writes m size (assignMissing m size i ps) := by
  induction ps generalizing i with
  | nil => exact .pure
  | cons p ps ih =>
    have hrest : ∀ i, Writes m size (assignMissing m size i ps) :=
      fun i => ih i fun q hq => hps q (List.mem_cons_of_mem p hq)
    have hj : p.2 < size := hps p List.mem_cons_self
    obtain ⟨p, j⟩ := p
    rw [assignMissing]
    dsimp only
    split
    · next hi =>
      refine .bind (writes_setParamIndex hi hj) fun _ => .arena_bind fun a => ?_
      split
      · exact hrest _
      · exact .pure
    · refine .arena_bind fun a => ?_
      split
      · exact hrest _
      · exact .pure

theorem inBounds_append (params m : NodeId) {x : Bool} :
    InBounds T (do
      change fun a => a.appendChild params m
      return x) :=
  .bind (.change (fun _ _ hb hd => .setParent hb hd) fun _ _ => .setParent) fun _ => .pure

theorem inBounds_acceptUnprototyped (params m : NodeId) :
    InBounds T (acceptUnprototyped params m) :=
  .bind (.setFlag m _) fun _ => inBounds_append params m

theorem inBounds_acceptEmpty (params m : NodeId) (args : List NodeId) :
    InBounds T (acceptEmpty params m args) := by
  rw [acceptEmpty]
  split
  · exact inBounds_append params m
  · exact .pure

/-! ## Filling a new match -/

/-- The search fills in the tables of a match that has none yet, and stays in bounds. -/
structure Fills {α : Type} (m : NodeId) (p : Search α) : Prop where
  /-- Started where the match has no tables the search ends as it should. -/
  ends : ∀ c : Context, c.arena.Consistent → c.arena.Blank m →
    EndsInBounds (some m) c.arena (p.exec c)

namespace Fills

variable {α β : Type} {m : NodeId} {p : Search α} {f : α → Search β}

theorem of_inBounds (h : InBounds (fun _ => True) p) : Fills m p :=
  ⟨fun c hc _ => (h.ends c hc trivial).but (some m)⟩

/-- A match without tables has none after another search. -/
theorem bind (hp : InBounds (fun _ => True) p) (hf : ∀ x, Fills m (f x)) : Fills m (p >>= f) := by
  refine ⟨fun c hc hm => ?_⟩
  have hfirst := hp.ends c hc trivial
  rw [exec_bind]
  match hr : p.exec c with
  | (.error e, d) =>
    rw [hr] at hfirst
    exact hfirst
  | (.ok x, d) =>
    rw [hr] at hfirst
    have hd : c.arena.Steady d.arena := hfirst
    exact ((hf x).ends d hd.consistent (hd.blank hm)).of_steady (hd.but (some m))

theorem arena_bind {f : Arena → Search β} (hf : ∀ a, Fills m (f a)) : Fills m (arena >>= f) :=
  bind .arena hf

theorem withLock {n : NodeId} (h : Fills m p) : Fills m (withLock n p) := by
  refine ⟨fun c hc hm => ?_⟩
  have hp := h.ends { c with arena := c.arena.lock n } (hc.lock n) hm
  rw [exec_withLock]
  match hr : p.exec { c with arena := c.arena.lock n } with
  | (.ok x, d) =>
    rw [hr] at hp
    exact Arena.SteadyBut.drop hp
  | (.error e, d) =>
    rw [hr] at hp
    exact hp

/-- The tables are sized once. -/
theorem setParamSize_bind {k : Nat} (hk : k ≠ 0) (h : Writes m k p) :
    Fills m (do
      change fun a => a.setParamSize m k
      p) := by
  refine ⟨fun c hc hm => ?_⟩
  obtain ⟨g, g', hset, htabled⟩ := hm.setParamSize hk
  have hsteady := hc.steadyBut_retable m g g'
  rw [exec_bind, exec_change, hset]
  exact (h.ends { c with arena := c.arena.retable m g g' } hsteady.consistent htabled).of_steady
    hsteady

end Fills

/-- The tables get the size of the longer list, which is not zero, and what is recorded in them is
below it. -/
theorem fills_matchParameters (hcall : InBoundsCalls call) (params m : NodeId)
    {declared args : List NodeId} (last : NodeId) (hdeclared : declared ≠ []) :
    Fills m (matchParameters call params m declared args last) := by
  have hlength : 0 < declared.length := List.length_pos_iff.2 hdeclared
  refine .setParamSize_bind (by omega) ?_
  refine .bind (writes_assign hcall m declared last (by omega) _) fun o => ?_
  cases o with
  | none => exact .pure
  | some s =>
    refine .bind (writes_assignMissing m _ fun q hq => ?_) fun b => ?_
    · -- the parameters are numbered by their places
      have hlt := List.snd_lt_of_mem_zipIdx (List.mem_filter.1 hq).1
      omega
    · split
      · exact .of_inBounds (inBounds_append params m)
      · exact .pure

/-- A match that is created gets its tables then. -/
theorem inBounds_createMatch {f : NodeId} {β : Type} {rest : NodeId → Search β}
    (h : ∀ m, Fills m (rest m)) : InBounds T (do
      let m ← createReplacement f .paramMatch
      write fun a => a.setLink m .inst (some f)
      rest m) := by
  refine ⟨fun c hc _ => ?_⟩
  rw [exec_createMatch]
  have hd := Arena.Steady.push hc
    (d := { kind := .paramMatch, position := c.arena.position f, inst := some f }) rfl rfl
  exact ((h ⟨c.arena.size⟩).ends _ hd.consistent (Arena.blank_push ..)).of_new (Nat.le_refl _) hd

/-- The match that is created has no tables until it is filled. -/
theorem inBounds_checkFunctionWithParams (hcall : InBoundsCalls call) (f : NodeId)
    (params : Option NodeId) : InBounds T (checkFunctionWithParams call f params) := by
  cases params with
  | none => exact .pure
  | some params =>
    refine inBounds_createMatch fun m => .bind (inBounds_defineFunctionType hcall f) fun b => ?_
    split
    · exact .of_inBounds .pure
    · refine .arena_bind fun a => ?_
      dsimp only
      split
      · refine .of_inBounds (.bind (.flag f _) fun b => ?_)
        split
        · exact inBounds_acceptEmpty params m _
        · exact inBounds_acceptUnprototyped params m
      · refine .withLock ?_
        split
        · exact .of_inBounds (inBounds_acceptUnprototyped params m)
        · refine .withLock ?_
          split
          · next hfirst hlast =>
            split
            · exact .of_inBounds (inBounds_acceptUnprototyped params m)
            · refine fills_matchParameters hcall params m _ ?_
              rintro hnil
              rw [hnil] at hfirst
              cases hfirst
          · exact .of_inBounds (inBounds_acceptEmpty params m _)

/-! ## Selection -/

/-- A match is taken off the arguments from the place where it is. -/
theorem inBounds_dropMatch (p m : NodeId) (i : Nat) :
    InBounds (fun a => (a.children p)[i]? = some m) (dropMatch p i m) := by
  refine .bind (.checked (fun b x d hb hd => ?_) fun b hi => ?_) fun _ =>
    .change (fun _ _ hb hd => .discard hb hd) fun _ _ => .discard
  · obtain ⟨m', -, hd⟩ := bind_eq_ok_iff.1 hd
    obtain ⟨b', hset, hd⟩ := bind_eq_ok_iff.1 hd
    obtain rfl : b' = d := congrArg Prod.snd (Except.ok.inj hd)
    exact .setParent hb hset
  · rw [Arena.deleteChild, Arena.child, hi]
    exact Arena.InRange.setParent.bind fun _ => .ok

/-- The choice of the best match stays in bounds: the best one so far is looked up among the
arguments, and the other one is where it was. -/
theorem selecting_inBounds (hcall : InBoundsCalls call) (p : NodeId) (a : Arena) :
    Selecting call p (a.Steady ·.arena) (MatchOf p) fun e _ => e.isMisplaced = false where
  found hd hi hk := ⟨hk, .inl ((hd.consistent.mem_children ..).1 (List.mem_of_getElem? hi))⟩
  matchOf h := h
  compare {d _ x y} hd hx hi hy := by
    have hcourse : Course none d ((betterMatch call x y).exec d).2 :=
      (follows_betterMatch hcall.faithful x y).course d hd.consistent
    have hbetter : InBounds (fun _ => True) (betterMatch call x y) :=
      modular_betterMatch modular_inBounds hcall.answered x y
    have hends := hbetter.ends d hd.consistent trivial
    refine ensures_of_exec (fun d' w e hd' hr => ?_) fun d' stop e hd' hr => ?_
    all_goals
      subst hd'
      rw [hr] at hends
    · rw [hr] at hcourse
      obtain ⟨hx, hy, hchildren⟩ := hcourse.matches hd.consistent hx hi hy
      exact ⟨hd.trans hends, hx, hy, hchildren⟩
    · exact hends
  offset _ _ h := Arena.InRange.offset _ h
  drop {d i m} hd hi hm := by
    have hcourse := course_dropMatch hd.consistent hi hm.1
    have hends := (inBounds_dropMatch p m i).ends d hd.consistent hi
    refine ensures_of_exec (fun d' _ e hd' hr => ?_) fun d' stop e hd' hr => ?_
    all_goals
      subst hd'
      rw [hr] at hends
    · rw [hr] at hcourse
      exact ⟨hd.trans hends, fun _ => hcourse.matchOf hd.consistent⟩
    · exact hends

/-- The loop looks up the place of a match anew before it drops it. -/
theorem inBounds_selectBestFunction (hcall : InBoundsCalls call) (params : Option NodeId) :
    InBounds T (selectBestFunction call params) := by
  refine (modular_selectBestFunction modular_inBounds fun p _ fuel => ?_).anywhere
  exact .of_ensures fun c hc _ =>
    ((selecting_inBounds hcall p c.arena).selectFrom fuel 0 none false c (.refl hc) nofun).mono
      (fun _ h => h) (fun _ _ h => h.1) fun _ _ h => h

end Search

end SymbolTree
