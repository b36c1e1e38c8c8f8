import SymbolTree.Proofs.Arena.Deed
import SymbolTree.Proofs.Search.Bounds.Scope
import SymbolTree.Proofs.Search.Passage
import SymbolTree.Proofs.Search.Selection.Tables

/-!
# Who sits where after a call

When a function takes the arguments of a call, the tables of the match that it leaves say where each
argument sits and how well it fits there (`Search.Matched`).  An argument is seated where those
before it have left room, and recorded there in one step.  While it is measured against its
parameter, nothing changes that was recorded or that places depend on (`Search.runs_assign`).

Arguments for a parameter that takes any number of them sit behind the parameters, from the second
on.  The tables have room there for as many as there are more arguments than parameters.  If such an
argument is given by name, a parameter before it may be left to its default, and then there is one
argument too many: it is left out of the tables (`Search.argument_without_depth`).

## Main statements

* `Search.checkFunctionWithParams_proper_iff` — what the tables say after a call, and when they are
  a proper assignment.
* `Search.Matched.proper` — without names they always are.
-/

set_option autoImplicit false
namespace SymbolTree

namespace Search

variable {call : Call} {b c d : Context} {declared args : List NodeId} {last arg m p : NodeId}
  {size i j : Nat} {taken left : List Nat} {s : Assignment} {placed : List (Nat × Int32)}

/-! ## What stays while arguments are seated -/

theorem Reaches.paramFlag_eq (h : Reaches b c) {p : NodeId} (hp : p.index < b.arena.size) {f : Flag}
    (hf : f = .paramRest ∨ f = .paramUnprototyped) :
    paramFlag c.arena p f = paramFlag b.arena p f := by
  rw [paramFlag, paramFlag, h.grows.kind hp]
  obtain rfl | rfl := hf
  · rw [h.flag p .paramRest hp rfl nofun]
  · rw [h.flag p .paramUnprototyped hp rfl nofun]

theorem Reaches.textIs_eq (h : Reaches b c) {p : NodeId} (hp : p.index < b.arena.size) (t : String) :
    c.arena.textIs p t = b.arena.textIs p t := by
  rw [Arena.textIs, Arena.textIs, h.grows.kind hp, (h.grows.node p hp).text]

theorem Reaches.arguments_eq {params : NodeId} (h : Reaches b c) (hb : b.arena.Consistent)
    (hparams : params.index < b.arena.size) :
    c.arena.arguments params = b.arena.arguments params := by
  rw [Arena.arguments, Arena.arguments, h.children hparams]
  refine List.filter_congr fun n hn => ?_
  rw [h.grows.kind (hb.child_lt params n hn)]

theorem Reaches.namesParam (h : Reaches b c) (hb : b.arena.Consistent)
    (harg : arg.index < b.arena.size) (hdeclared : ∀ p ∈ declared, p.index < b.arena.size)
    (hi : c.arena.NamesParam declared arg i) : b.arena.NamesParam declared arg i := by
  obtain ⟨x, hx, hk, hi⟩ := hi
  rw [h.children harg] at hx
  have hxlt : x.index < b.arena.size :=
    hb.child_lt arg x (by rw [hx]; exact List.mem_singleton_self x)
  rw [h.grows.kind hxlt] at hk
  refine ⟨x, hx, hk, ?_⟩
  rw [h.grows.name hxlt] at hi
  obtain ⟨hlt, hat, hbefore⟩ := List.findIdx?_eq_some_iff_getElem.1 hi
  refine List.findIdx?_eq_some_iff_getElem.2 ⟨hlt, ?_, fun k hk => ?_⟩
  · rwa [h.textIs_eq (hdeclared _ (List.getElem_mem hlt))] at hat
  · have hnot := hbefore k hk
    rwa [h.textIs_eq (hdeclared _ (List.getElem_mem _))] at hnot

/-- The place of an argument is the same in the beginning. -/
theorem Reaches.seats (h : Reaches b c) (hb : b.arena.Consistent) (harg : arg.index < b.arena.size)
    (hdeclared : ∀ p ∈ declared, p.index < b.arena.size) (hlast : last ∈ declared)
    (hj : c.arena.Seats declared last taken arg j) : b.arena.Seats declared last taken arg j := by
  cases hj with
  | named hk hi hfree =>
    exact .named ((h.grows.kind harg).symm.trans hk) (h.namesParam hb harg hdeclared hi) hfree
  | @again i hk hi hused hrest =>
    have hi' := h.namesParam hb harg hdeclared hi
    refine .again ((h.grows.kind harg).symm.trans hk) hi' hused ?_
    rwa [h.paramFlag_eq (hdeclared _ hi'.getD_mem) (.inl rfl)] at hrest
  | next hk hi hfree hbefore =>
    exact .next (fun e => hk ((h.grows.kind harg).trans e)) hi hfree hbefore
  | beyond hk hfull hrest =>
    refine .beyond (fun e => hk ((h.grows.kind harg).trans e)) hfull ?_
    rwa [h.paramFlag_eq (hdeclared last hlast) (.inl rfl)] at hrest

/-! ## Seating one argument -/

theorem runs_namedParameter (arg : NodeId) (declared : List NodeId) :
    Runs c (namedParameter arg declared) fun o d =>
      ∀ i, o = some i → d.arena.NamesParam declared arg i := by
  refine .arena_bind ?_
  split
  · next x hx =>
    split
    · exact Runs.follows_bind (.error ..) fun _ _ _ => .pure nofun
    · next hk =>
      dsimp only
      split
      · next hnone =>
        refine Runs.follows_bind (.error ..) fun _ _ _ => .pure fun i hi => ?_
        rw [hi] at hnone
        cases hnone
      · exact .pure fun i hi => ⟨x, hx, not_not.1 hk, hi⟩
  · exact Runs.follows_bind (.error ..) fun _ _ _ => .pure nofun

/-- The place that is found for a named argument is its own. -/
theorem runs_placeNamed (hb : Reaches b c) (hbc : b.arena.Consistent)
    (harg : arg.index < b.arena.size) (hdeclared : ∀ p ∈ declared, p.index < b.arena.size)
    (hk : b.arena.kind arg = .name_) (hs : Tracks declared.length taken s) :
    Runs c (placeNamed arg declared s) fun r _ => ∀ j s', r = some (j, s') →
      b.arena.Seats declared last taken arg j ∧
        Tracks declared.length (taken ++ [j]) { s' with used := s'.used.set j true } := by
  refine (runs_namedParameter arg declared).bind fun o d hd ho => ?_
  cases o with
  | none => exact .pure nofun
  | some i =>
    have hi : b.arena.NamesParam declared arg i :=
      (hb.trans hd).namesParam hbc harg hdeclared (ho i rfl)
    have hused := hs.getD_used hi.lt_length
    dsimp only
    split
    · next hfree =>
      rw [hused, Bool.not_eq_true', decide_eq_false_iff_not] at hfree
      refine .pure fun j s' hr => ?_
      obtain ⟨rfl, rfl⟩ := Prod.mk.inj (Option.some.inj hr)
      exact ⟨.named hk hi hfree, hs.take hi.lt_length hs.free⟩
    · next htaken =>
      rw [hused, Bool.not_eq_true', decide_eq_false_iff_not, not_not] at htaken
      refine .arena_bind ?_
      split
      · next hrest =>
        refine .pure fun j s' hr => ?_
        obtain ⟨rfl, rfl⟩ := Prod.mk.inj (Option.some.inj hr)
        refine ⟨?_, hs.take_rest hs.free⟩
        rw [hs.rest]
        refine .again hk hi htaken ?_
        rwa [(hb.trans hd).paramFlag_eq (hdeclared _ hi.getD_mem) (.inl rfl)] at hrest
      · exact Runs.follows_bind (.error ..) fun _ _ _ => .pure nofun

/-- The score of an argument at a parameter, as it was worked out in the course of a search. -/
def Scored (call : Call) (b : Context) (arg param : NodeId) (score : Int32) : Prop :=
  score ≠ matchNotFound ∧
    ∃ c d, Reaches b c ∧ (matchType call arg param).exec c = (.ok score, d)

/-! ## Seating them all -/

/-- A search that stays in bounds, with what it does. -/
theorem Runs.of_inBounds {α : Type} {q : Search α} (hq : Follows none q)
    (hin : InBounds (fun _ => True) q) :
    Runs c q fun x d => c.arena.Steady d.arena ∧ q.exec c = (.ok x, d) := by
  refine .of_yields hq fun hc => Yields.of_exec fun _ x d he hr => ?_
  subst he
  have hends := hin.ends _ hc trivial
  rw [hr] at hends
  exact ⟨hends, hr⟩

/-- The arguments so far have been seated and recorded. -/
structure Served (k : Nat) (m : NodeId) (size : Nat) (placed : List (Nat × Int32)) (s : Assignment)
    (a : Arena) : Prop where
  /-- Nobody sits where somebody else does. -/
  fair : Seating.Fair k (placed.map Prod.fst)
  /-- The search knows which places are taken. -/
  tracks : Tracks k (placed.map Prod.fst) s
  /-- The tables show who sits where. -/
  charted : a.Charted m size placed []

theorem Served.start {a : Arena} (h : a.Charted m size [] []) : Served declared.length m size []
    { used := declared.map fun _ => false, rest := declared.length } a :=
  ⟨.nil, .start declared, h⟩

/-- Further arguments are served at their own places, with the depths found there. -/
def Serves (call : Call) (b : Context) (declared : List NodeId) (last m : NodeId) (size : Nat)
    (placed : List (Nat × Int32)) (args : List NodeId) (s : Assignment) (a : Arena) : Prop :=
  ∃ new, b.arena.Seated declared last (placed.map Prod.fst) args (new.map Prod.fst) ∧
    List.Forall₂ (fun arg p => Scored call b arg (declared.getD p.1 last) p.2) args new ∧
    Served declared.length m size (placed ++ new) s a

theorem Serves.cons {score : Int32} {a : Arena}
    (hj : b.arena.Seats declared last (placed.map Prod.fst) arg j)
    (hscore : Scored call b arg (declared.getD j last) score)
    (h : Serves call b declared last m size (placed ++ [(j, score)]) args s a) :
    Serves call b declared last m size placed (arg :: args) s a := by
  obtain ⟨new, hseated, hscores, hserved⟩ := h
  rw [List.map_append, List.map_singleton] at hseated
  refine ⟨(j, score) :: new, .cons hj hseated, .cons hscore hscores, ?_⟩
  rwa [List.append_cons]

/-- An argument whose place nobody else has is recorded, if there is room for it. -/
theorem runs_record {α : Type} {rest : Search α} {φ : α → Context → Prop} {depth : Int32}
    (hcharted : c.arena.Charted m size placed []) (hnew : ∀ p ∈ placed, p.1 ≠ j)
    (hrest : ∀ d, Reaches c d → d.arena.Charted m size (placed ++ [(j, depth)]) [] →
      Runs d rest φ) :
    Runs c (if j < size then do
        change fun a => a.setParamDepth m j depth
        change fun a => a.setParamIndex m placed.length j
        rest
      else rest) φ := by
  split
  · next hj =>
    refine Runs.change_bind (follows_setParamDepth m j depth) fun d hd hcd => ?_
    refine Runs.change_bind (follows_setParamIndex m _ j) fun e he hde => ?_
    exact hrest _ (hcd.trans hde) (hcharted.concat hj hnew hd he)
  · next hj =>
    refine .of_start fun hc => ?_
    exact hrest c (.refl hc) (hcharted.skip (Nat.le_of_not_lt hj))

/-- **Arguments are seated one after the other**, and what is recorded of them is where they sit and
how well they fit there. -/
theorem runs_assign (hcall : InBoundsCalls call) (hbc : b.arena.Consistent) (hb : Reaches b c)
    (hargs : ∀ arg ∈ args, arg.index < b.arena.size)
    (hdeclared : ∀ p ∈ declared, p.index < b.arena.size) (hlast : last ∈ declared)
    (hserved : Served declared.length m size placed s c.arena) :
    Runs c (assign call m declared last size placed.length args s) fun o d =>
      ∀ s', o = some s' → Serves call b declared last m size placed args s' d.arena := by
  induction args generalizing c placed s with
  | nil =>
    refine .pure fun s' hs' => ⟨[], .nil, .nil, ?_⟩
    obtain rfl := Option.some.inj hs'
    rwa [List.append_nil]
  | cons arg args ih =>
    have harg := hargs arg List.mem_cons_self
    have hkind : c.arena.kind arg = b.arena.kind arg := hb.grows.kind harg
    obtain ⟨hfair, htracks, hcharted⟩ := hserved
    refine .arena_bind ?_
    extract_lets go
    -- once the place is known, an argument with a name and one without are treated alike
    have hgo : ∀ r d, Reaches b d → c.arena.Steady d.arena →
        (∀ j s', r = some (j, s') → b.arena.Seats declared last (placed.map Prod.fst) arg j ∧
          Tracks declared.length (placed.map Prod.fst ++ [j])
            { s' with used := s'.used.set j true }) →
        Runs d (go r) fun o d => ∀ s', o = some s' →
          Serves call b declared last m size placed (arg :: args) s' d.arena := by
      intro r d hd hsteady hr
      cases r with
      | none => exact .pure nofun
      | some r =>
        obtain ⟨j, s'⟩ := r
        obtain ⟨hseats, htracks⟩ := hr j s' rfl
        refine (Runs.of_inBounds (follows_matchType hcall.faithful arg _)
          (inBounds_matchType hcall arg _)).bind fun depth e he hrun => ?_
        have hcharted := (hcharted.steady hsteady).steady hrun.1
        split
        · exact .pure nofun
        · next hdepth =>
          have hscored : Scored call b arg (declared.getD j last) depth :=
            ⟨hdepth, d, e, hd, hrun.2⟩
          have hnew : ∀ p ∈ placed, p.1 ≠ j := by
            rintro p hp rfl
            exact hseats.not_mem hfair (List.mem_map_of_mem hp)
          refine runs_record hcharted hnew fun e' he' hcharted => ?_
          have hrest := ih ((hd.trans he).trans he')
            (fun x hx => hargs x (List.mem_cons_of_mem arg hx))
            ⟨by simpa using hseats.fair hfair, by simpa using htracks, hcharted⟩
          rw [List.length_append, List.length_singleton] at hrest
          exact hrest.mono fun o d _ ho s'' hs'' => (ho s'' hs'').cons hseats hscored
    split
    · next hk =>
      refine (Runs.of_inBounds (follows_placeNamed arg declared s)
        (inBounds_placeNamed arg declared s)).bind fun r d hd hrun => ?_
      refine hgo r d (hb.trans hd) hrun.1 ?_
      exact ((runs_placeNamed hb hbc harg hdeclared (hkind ▸ hk) htracks).of_ok hb.consistent
        hrun.2).2
    · next hk =>
      refine .arena_bind ?_
      rw [pure_bind]
      refine hgo _ c hb (.refl hb.consistent) fun j s' hr => ?_
      obtain ⟨hseats, htracks'⟩ := htracks.seats_placeNext hk hr
      exact ⟨hb.seats hbc harg hdeclared hlast hseats, htracks'⟩

/-- The parameters that are left are recorded after the arguments. -/
theorem runs_assignMissing (ps : List (NodeId × Nat))
    (hcharted : c.arena.Charted m size placed left) :
    Runs c (assignMissing m size (placed.length + left.length) ps) fun x d => x = true →
      d.arena.Charted m size placed (left ++ ps.map Prod.snd) := by
  induction ps generalizing c left with
  | nil =>
    refine .pure fun _ => ?_
    rwa [List.map_nil, List.append_nil]
  | cons p ps ih =>
    obtain ⟨p, j⟩ := p
    rw [assignMissing]
    have hnext : ∀ e : Context, e.arena.Charted m size placed (left ++ [j]) →
        Runs e (do
          let a ← arena
          if paramFlag a p .paramUnchecked || paramFlag a p .paramRest
              || (a.children p).any (fun c => a.kind c = .set) then
            assignMissing m size (placed.length + left.length + 1) ps
          else return false) fun x d => x = true →
            d.arena.Charted m size placed (left ++ ((p, j) :: ps).map Prod.snd) := by
      intro e he
      refine .arena_bind ?_
      split
      · have hrest := ih he
        rwa [List.length_append, List.append_assoc] at hrest
      · exact .pure fun hx => absurd hx Bool.false_ne_true
    split
    · exact Runs.change_bind (follows_setParamIndex m _ j) fun e he _ => hnext _ (hcharted.leave he)
    · next hsize => exact hnext c (hcharted.leave_out (Nat.le_of_not_lt hsize))

/-- The tables of a match say who sits where, and which parameters are left. -/
structure Matched (call : Call) (b : Context) (params : NodeId) (declared args : List NodeId)
    (last m : NodeId) (placed : List (Nat × Int32)) (a : Arena) : Prop where
  /-- The match was put after the arguments. -/
  children : a.children params = b.arena.children params ++ [m]
  /-- It is a match. -/
  kind : a.kind m = .paramMatch
  /-- The arguments sit at their places. -/
  seated : b.arena.Seated declared last [] args (placed.map Prod.fst)
  /-- They fit there, as well as is said. -/
  scored : List.Forall₂ (fun arg p => Scored call b arg (declared.getD p.1 last) p.2) args placed
  /-- The tables say so. -/
  charted : a.Charted m (max declared.length args.length) placed
    (Seating.vacant declared.length (placed.map Prod.fst))

theorem Matched.of_nodes {params : NodeId} {a a' : Arena}
    (h : Matched call b params declared args last m placed a) (hn : a'.nodes = a.nodes) :
    Matched call b params declared args last m placed a' := by
  obtain ⟨hchildren, hkind, hseated, hscored, hlt, hindex, hlength, hdepth⟩ := h
  have hnode : a'.node = a.node := by
    funext n
    rw [Arena.node, hn, Arena.node]
  refine ⟨?_, ?_, hseated, hscored, ?_, ?_, ?_, ?_⟩
  · rwa [Arena.children, hnode]
  · rwa [Arena.kind, hnode]
  · rwa [Arena.size, hn]
  · rwa [hnode]
  · rwa [hnode]
  · rwa [hnode]

/-- A match that is filled in says who sits where. -/
theorem yields_matchParameters {params : NodeId} (hcall : InBoundsCalls call)
    (hbc : b.arena.Consistent) (hb : Reaches b c) (hargs : ∀ arg ∈ args, arg.index < b.arena.size)
    (hdeclared : ∀ p ∈ declared, p.index < b.arena.size) (hlast : last ∈ declared)
    (hparams : params.index < b.arena.size) (hblank : c.arena.Blank m)
    (hm : c.arena.parent m = none) :
    Yields (· = c) (matchParameters call params m declared args last) fun x d => x = true →
      ∃ placed, Matched call b params declared args last m placed d.arena := by
  have hsized : Runs c (change fun a => a.setParamSize m (max declared.length args.length))
      fun _ d => d.arena.Charted m (max declared.length args.length) [] [] :=
    .of_yields (follows_setParamSize m _) fun _ => Yields.change fun _ _ he hr => by
      subst he
      exact hblank.charted hr
  refine (hsized.yields hb.consistent).bind_at fun _ d hd => ?_
  obtain ⟨hcd, hcharted⟩ := hd
  have hassign := runs_assign hcall hbc (hb.trans hcd) hargs hdeclared hlast
    (.start hcharted)
  refine (hassign.yields hcd.consistent).bind_at fun o e he => ?_
  obtain ⟨hde, hserves⟩ := he
  cases o with
  | none => exact Yields.pure fun _ _ => nofun
  | some s =>
    obtain ⟨placed, hseated, hscored, -, htracks, hcharted⟩ := hserves s rfl
    have hmissing := runs_assignMissing
      (declared.zipIdx.filter fun p => !s.used.getD p.2 false) hcharted
    simp only [List.nil_append] at hmissing
    rw [htracks.map_missing, List.length_nil, Nat.add_zero, ← hscored.length_eq] at hmissing
    refine (hmissing.yields hde.consistent).bind_at fun x f hf => ?_
    obtain ⟨hef, hcharted⟩ := hf
    cases x with
    | false => exact Yields.pure fun _ _ => nofun
    | true =>
      have hcf := (hcd.trans hde).trans hef
      have hkind : f.arena.kind m = .paramMatch :=
        (hcf.kind (by rw [hblank.1]; decide)).trans hblank.1
      have hparent : f.arena.parent m = none :=
        (hcf.grows.parent (lt_size_of_paramMatch hblank.1)).trans hm
      refine Yields.bind (Q := fun _ d => ∃ placed,
        Matched call b params declared args last m placed d.arena)
        (Yields.change fun _ a hg ha => ?_) fun _ => Yields.pure fun _ h _ => h
      subst hg
      have hsteady : Arena.Steady _ a := .setParent hef.consistent ha
      refine ⟨placed, ?_, ?_, hseated, hscored, (hcharted rfl).steady hsteady⟩
      · obtain ⟨hmlt, hplt, rfl⟩ := Arena.appendChild_eq_ok hparent ha
        rw [Arena.children_attach hmlt hplt, if_pos rfl, (hb.trans hcf).children hparams]
        rfl
      · exact (hsteady.kind m (lt_size_of_paramMatch hkind)).trans hkind

/-- A match is new when it is created: it hangs nowhere and has no tables. -/
theorem yields_newMatch {β : Type} {f : NodeId} {rest : NodeId → Search β}
    {ψ : β → Context → Prop} (hc : c.arena.Consistent)
    (h : ∀ m d, Reaches c d → d.arena.Blank m → d.arena.parent m = none →
      Yields (· = d) (rest m) ψ) :
    Yields (· = c) (do
      let m ← createReplacement f .paramMatch
      write fun a => a.setLink m .inst (some f)
      rest m) ψ := by
  refine Yields.of_exec fun _ x e he hr => ?_
  rw [he, exec_createMatch] at hr
  refine (h ⟨c.arena.size⟩ _ ?_ (Arena.blank_push ..) ?_).of_ok rfl hr
  · exact .of_course (.effect (.create _ "" _ (.inr (.inr rfl)))) hc
  · rw [Arena.parent, Arena.node_push, if_pos rfl]

/-- A function that takes the arguments of a call leaves a match that says who sits where. -/
theorem yields_checkFunctionWithParams {params f parameters first : NodeId}
    (hcall : InBoundsCalls call)
    (hc : c.arena.Consistent) (hparams : params.index < c.arena.size)
    (hf : (c.arena.children f).head? = some parameters)
    (hk : c.arena.kind parameters = .parameters)
    (hfirst : (c.arena.children parameters).head? = some first)
    (hlast : (c.arena.children parameters).getLast? = some last)
    (hproto : paramFlag c.arena first .paramUnprototyped = false) :
    Yields (· = c) (checkFunctionWithParams call f (some params)) fun x d => x = true →
      ∃ m placed, Matched call c params (c.arena.children parameters)
        (c.arena.arguments params) last m placed d.arena := by
  have hflt : f.index < c.arena.size := Arena.lt_size_of_mem_children (List.mem_of_mem_head? hf)
  have hplt : parameters.index < c.arena.size := Arena.lt_size_of_kind_ne (by rw [hk]; decide)
  rw [checkFunctionWithParams]
  obtain ⟨rest, hcf⟩ := List.head?_eq_some_iff.1 hf
  refine yields_newMatch hc fun m d hcd hblank hparent => ?_
  refine ((Runs.of_inBounds (follows_defineFunctionType hcall.faithful f)
    (inBounds_defineFunctionType hcall f)).yields hcd.consistent).bind_at fun x e he => ?_
  obtain ⟨hde, hsteady, -⟩ := he
  have hce := hcd.trans hde
  have hparent : e.arena.parent m = none :=
    (hde.grows.parent (lt_size_of_paramMatch hblank.1)).trans hparent
  have hblank := hsteady.blank hblank
  cases x with
  | false => exact Yields.pure fun _ _ => nofun
  | true =>
    refine Yields.arena_bind fun g hg => ?_
    subst hg
    -- the function and its arguments are as they were
    have hargs : (g.arena.children params).filter (fun n => g.arena.kind n ≠ .paramMatch) =
        c.arena.arguments params := hce.arguments_eq hc hparams
    have hkind : g.arena.kind parameters = .parameters := (hce.grows.kind hplt).trans hk
    have hproto : paramFlag g.arena first .paramUnprototyped = false :=
      (hce.paramFlag_eq (hc.child_lt parameters first (List.mem_of_mem_head? hfirst))
        (.inr rfl)).trans hproto
    have hlockf : Reaches g { g with arena := g.arena.lock f } := .lock hce.consistent f
    have hlock := hlockf.trans (.lock hlockf.consistent parameters)
    have hargslt : ∀ n ∈ c.arena.arguments params, n.index < c.arena.size :=
      fun n hn => hc.child_lt params n (List.mem_filter.1 hn).1
    have hmatch := yields_matchParameters hcall hc (hce.trans hlock) hargslt
      (hc.child_lt parameters) (List.mem_of_getLast? hlast) hparams hblank hparent
    rw [hargs, hce.children hflt, hcf]
    dsimp only
    refine Yields.withLock_at ?_ fun _ _ _ he h hx => ?_
    · rw [if_neg (not_not.2 hkind), hce.children hplt]
      refine Yields.withLock_at ?_ fun _ _ _ he h hx => ?_
      · rw [hfirst, hlast]
        dsimp only
        rw [hproto, if_neg nofun]
        exact hmatch.mono (fun _ he => he) fun x d h hx => ⟨m, h hx⟩
      · obtain ⟨m, placed, hmatched⟩ := h hx
        exact ⟨m, placed, hmatched.of_nodes he⟩
    · obtain ⟨m, placed, hmatched⟩ := h hx
      exact ⟨m, placed, hmatched.of_nodes he⟩

/-- The tables are a proper assignment unless an argument sits behind the parameters while a
parameter is left without one. -/
theorem Matched.proper_iff {params : NodeId} {a : Arena}
    (h : Matched call b params declared args last m placed a) (hdeclared : declared ≠ []) :
    a.Proper m (max declared.length args.length) placed ↔
      (∀ p ∈ placed, p.1 < declared.length) ∨ ∀ j < declared.length, j ∈ placed.map Prod.fst := by
  have hcharted := h.charted
  rw [h.scored.length_eq] at hcharted ⊢
  exact hcharted.proper_iff (h.seated.fair .nil) (List.length_pos_iff.2 hdeclared)

/-- **Without names the tables are always a proper assignment.** -/
theorem Matched.proper {params : NodeId} {a : Arena}
    (h : Matched call b params declared args last m placed a) (hdeclared : declared ≠ [])
    (hargs : ∀ arg ∈ args, b.arena.kind arg ≠ .name_) :
    a.Proper m (max declared.length args.length) placed := by
  have hplaces := h.seated.within_or_full hargs
  rw [List.forall_mem_map, List.nil_append] at hplaces
  exact (h.proper_iff hdeclared).2 hplaces

/-- **A function that takes the arguments of a call leaves a match of them**, with tables that say
where each of them sits and how well it fits there.  The tables are a proper assignment unless an
argument sits behind the parameters while a parameter is left without one; then they have no room
for it. -/
theorem checkFunctionWithParams_proper_iff (hc : c.arena.Consistent)
    {params f parameters first : NodeId} (hparams : params.index < c.arena.size)
    (hf : (c.arena.children f).head? = some parameters)
    (hk : c.arena.kind parameters = .parameters)
    (hfirst : (c.arena.children parameters).head? = some first)
    (hlast : (c.arena.children parameters).getLast? = some last)
    (hproto : paramFlag c.arena first .paramUnprototyped = false)
    (hr : (run (checkFunctionWithParams · f (some params))).exec c = (.ok true, d)) :
    ∃ m placed, Matched (answer (fuel c)) c params (c.arena.children parameters)
        (c.arena.arguments params) last m placed d.arena ∧
      (d.arena.Proper m
          (max (c.arena.children parameters).length (c.arena.arguments params).length) placed ↔
        (∀ p ∈ placed, p.1 < (c.arena.children parameters).length) ∨
          ∀ j < (c.arena.children parameters).length, j ∈ placed.map Prod.fst) := by
  rw [exec_run] at hr
  obtain ⟨m, placed, hmatched⟩ :=
    (yields_checkFunctionWithParams (inBoundsCalls_answer _) hc hparams hf
    hk hfirst hlast hproto).of_ok rfl hr rfl
  exact ⟨m, placed, hmatched, hmatched.proper_iff (List.ne_nil_of_mem (List.mem_of_getLast? hlast))⟩

/-- The requests that make a function with a parameter `a`, which has a default, and a parameter
`rest`, which takes any number of arguments, and a list of two arguments for `rest`. -/
def repeatedHistory : List Command :=
  [.create .function {}, .create .parameters {}, .create .param {}, .create .set {},
   .create .param {}, .create .list {}, .create .name_ {}, .create .identifier {},
   .create .name_ {}, .create .identifier {}, .create .void {},
   .setText ⟨2⟩ "a", .setText ⟨4⟩ "rest", .setText ⟨7⟩ "rest", .setText ⟨9⟩ "rest",
   .setFlag ⟨4⟩ .paramRest true,
   .appendChild ⟨0⟩ ⟨1⟩, .appendChild ⟨1⟩ ⟨2⟩, .appendChild ⟨2⟩ ⟨3⟩, .appendChild ⟨1⟩ ⟨4⟩,
   .appendChild ⟨5⟩ ⟨6⟩, .appendChild ⟨6⟩ ⟨7⟩, .appendChild ⟨5⟩ ⟨8⟩, .appendChild ⟨8⟩ ⟨9⟩,
   .setLink ⟨0⟩ .typeNode (some ⟨10⟩)]

/-- The context of that function. -/
def repeatedContext : Context := { arena := after repeatedHistory, parser := fun _ => .rejected }

/-- The context after the call. -/
def repeatedCall : Context :=
  ((run (checkFunctionWithParams · ⟨0⟩ (some ⟨5⟩))).exec repeatedContext).2

/-- The function takes two arguments for `rest`, and leaves a match of them. -/
theorem checkFunctionWithParams_proper_iff_repeated :
    repeatedContext.arena.Consistent ∧
    (run (checkFunctionWithParams · ⟨0⟩ (some ⟨5⟩))).exec repeatedContext =
      (.ok true, repeatedCall) ∧
    ∃ m placed, Matched (answer (fuel repeatedContext)) repeatedContext ⟨5⟩ [⟨2⟩, ⟨4⟩]
        [⟨6⟩, ⟨8⟩] ⟨4⟩ m placed repeatedCall.arena ∧
      (repeatedCall.arena.Proper m 2 placed ↔
        (∀ p ∈ placed, p.1 < 2) ∨ ∀ j < 2, j ∈ placed.map Prod.fst) := by
  have hc : repeatedContext.arena.Consistent := by
    dsimp only [repeatedContext]
    exact after_invariant (I := Arena.Consistent) Arena.consistent_empty Command.keeps_consistent
      repeatedHistory
  have hr : (run (checkFunctionWithParams · ⟨0⟩ (some ⟨5⟩))).exec repeatedContext =
      (.ok true, repeatedCall) := exec_of_toOption (by decide +kernel)
  have hf : (repeatedContext.arena.children ⟨0⟩).head? = some ⟨1⟩ := by decide +kernel
  have hdeclared : repeatedContext.arena.children ⟨1⟩ = [⟨2⟩, ⟨4⟩] := by decide +kernel
  have hfirst : (repeatedContext.arena.children ⟨1⟩).head? = some ⟨2⟩ := by rw [hdeclared]; rfl
  have hlast : (repeatedContext.arena.children ⟨1⟩).getLast? = some ⟨4⟩ := by rw [hdeclared]; rfl
  have h := checkFunctionWithParams_proper_iff hc (by decide +kernel) hf (by decide +kernel) hfirst
    hlast (by decide +kernel) hr
  have hargs : repeatedContext.arena.arguments ⟨5⟩ = [⟨6⟩, ⟨8⟩] := by decide +kernel
  rw [hdeclared, hargs] at h
  exact ⟨hc, hr, h⟩

/-- **An argument can be left without a depth**: the second argument for `rest` would sit behind the
parameters, where the tables have no room, and the place that is left for it is that of `a`, which
no argument has met. -/
theorem argument_without_depth :
    (run (checkFunctionWithParams · ⟨0⟩ (some ⟨5⟩))).exec repeatedContext =
      (.ok true, repeatedCall) ∧
    repeatedCall.arena.children ⟨5⟩ = [⟨6⟩, ⟨8⟩, ⟨11⟩] ∧
    ¬ ∃ placed : List (Nat × Int32), placed.length = 2 ∧ (∀ p ∈ placed, p.2 ≠ matchNotFound) ∧
      repeatedCall.arena.Proper ⟨11⟩ 2 placed := by
  refine ⟨exec_of_toOption (by decide +kernel), by decide +kernel, ?_⟩
  rintro ⟨placed, hlength, hscored, hproper⟩
  obtain ⟨p, hp⟩ : ∃ p, placed[1]? = some p := ⟨_, List.getElem?_eq_getElem (by omega)⟩
  have hindex : repeatedCall.arena.paramIndex ⟨11⟩ 1 = .ok 0 := by decide +kernel
  have hdepth : repeatedCall.arena.paramDepth ⟨11⟩ 0 = .ok matchNotFound := by decide +kernel
  have hplace : 0 = p.1 := Except.ok.inj (hindex.symm.trans (hproper.index 1 p hp))
  have hmem := List.mem_of_getElem? hp
  have hscore := hproper.depth p hmem
  rw [← hplace, hdepth] at hscore
  exact hscored p hmem (Except.ok.inj hscore).symm

end Search

end SymbolTree
