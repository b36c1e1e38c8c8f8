import SymbolTree.Proofs.Search.Trace.Type

/-!
# Matches come and go by a course

A search with arguments leaves matches among them and drops all but the best.  Two things have to be
known on the way.  A match that was just created is still where it was when it is put among the
arguments (`Search.LoneMatch`), and the best match so far, when it is dropped, hangs below these
arguments and no others (`Search.MatchOf`).  Both follow from the frame of the searches in between.
-/

set_option autoImplicit false
namespace SymbolTree.Search

variable {params : Option NodeId} {call : Call}

/-! ## Matches -/

/-- The node is a match that hangs nowhere. -/
def LoneMatch (m : NodeId) (c : Context) : Prop :=
  c.arena.kind m = .paramMatch ∧ c.arena.parent m = none

theorem lt_size_of_paramMatch {a : Arena} {m : NodeId} (h : a.kind m = .paramMatch) :
    m.index < a.size :=
  Arena.lt_size_of_kind_ne (by rw [h]; decide)

/-- As long as no arguments are at hand, nothing puts a match below them. -/
theorem Course.loneMatch {c d : Context} {m : NodeId} (h : Course none c d)
    (hc : c.arena.Consistent) (hm : LoneMatch m c) : LoneMatch m d := by
  have hlt := lt_size_of_paramMatch hm.1
  have hframe := h.frame hc
  exact ⟨(hframe.kind hlt).trans hm.1, (hframe.parent m hlt Arena.not_disposable_none).trans hm.2⟩

/-- The program runs a course when the match hangs nowhere. -/
structure Places {α : Type} (params : Option NodeId) (m : NodeId) (p : Search α) : Prop where
  /-- From a consistent context in which the match hangs nowhere the program runs a course. -/
  course : ∀ c : Context, c.arena.Consistent → LoneMatch m c → Course params c (p.exec c).2

namespace Places

variable {α β : Type} {m : NodeId} {p : Search α} {f : α → Search β}

theorem of_follows (h : Follows params p) : Places params m p :=
  ⟨fun c hc _ => h.course c hc⟩

/-- What comes before the match is put in its place runs a course without arguments. -/
theorem bind (hp : Follows none p) (hf : ∀ x, Places params m (f x)) :
    Places params m (p >>= f) := by
  refine ⟨fun c hc hm => ?_⟩
  have hcourse := hp.course c hc
  refine Follows.bind_at (hcourse.of_none params) fun x d hr hd => ?_
  rw [hr] at hcourse
  exact hd.trans ((hf x).course d (hd.consistent hc) (hcourse.loneMatch hc hm))

theorem withLock {n : NodeId} (h : Places params m p) : Places params m (withLock n p) :=
  ⟨fun _ hc hm => Follows.withLock_at (h.course _ (hc.lock n) hm)⟩

/-- The match is appended to the arguments, which is an effect of their own. -/
theorem append {params m : NodeId} {x : α} :
    Places (some params) m (do
      change fun a => a.appendChild params m
      return x) := by
  refine ⟨fun c hc hm => ?_⟩
  rw [exec_bind, exec_change]
  cases hb : c.arena.appendChild params m with
  | ok b => exact .effect (.append rfl hm.1 hm.2 hb)
  | error e => exact .refl c

end Places

theorem places_acceptUnprototyped (params m : NodeId) :
    Places (some params) m (acceptUnprototyped params m) :=
  .bind (.setFlag m (by decide)) fun _ => .append

theorem places_acceptEmpty (params m : NodeId) (args : List NodeId) :
    Places (some params) m (acceptEmpty params m args) := by
  rw [acceptEmpty]
  split
  · exact .append
  · exact .of_follows .pure

theorem follows_placeNamed (arg : NodeId) (declared : List NodeId) (s : Assignment) :
    Follows params (placeNamed arg declared s) :=
  modular_placeNamed modular_follows arg declared s

theorem follows_setParamDepth (m : NodeId) (j : Nat) (depth : Int32) :
    Follows params (change fun a => a.setParamDepth m j depth) :=
  .change fun a b _ h => by
    obtain ⟨f, g, rfl⟩ := Arena.setParamDepth_eq_ok h
    exact .table m f g

theorem follows_setParamIndex (m : NodeId) (i j : Nat) :
    Follows params (change fun a => a.setParamIndex m i j) :=
  .change fun a b _ h => by
    obtain ⟨f, g, rfl⟩ := Arena.setParamIndex_eq_ok h
    exact .table m f g

theorem follows_setParamSize (m : NodeId) (size : Nat) :
    Follows params (change fun a => a.setParamSize m size) :=
  .change fun a b _ h => by
    obtain ⟨f, g, rfl⟩ := Arena.setParamSize_eq_ok h
    exact .table m f g

/-- The tables are those of a match, and the arguments are only looked at. -/
theorem follows_assign (hcall : Faithful call) (m : NodeId) (declared : List NodeId)
    (last : NodeId) (size i : Nat) (args : List NodeId) (s : Assignment) :
    Follows params (assign call m declared last size i args s) :=
  modular_assign follows_setParamDepth follows_setParamIndex modular_follows
    (follows_matchType hcall) m declared last size i args s

theorem follows_assignMissing (m : NodeId) (size i : Nat) (ps : List (NodeId × Nat)) :
    Follows params (assignMissing m size i ps) :=
  modular_assignMissing follows_setParamIndex modular_follows m size i ps

/-- The tables are filled first, and the match is put in its place at the end. -/
theorem places_matchParameters (hcall : Faithful call) (params m : NodeId)
    (declared args : List NodeId) (last : NodeId) :
    Places (some params) m (matchParameters call params m declared args last) := by
  refine .bind (follows_setParamSize m _) fun _ => ?_
  refine .bind (follows_assign hcall m declared last _ 0 args _) fun o => ?_
  cases o with
  | none => exact .of_follows .pure
  | some s =>
    refine .bind (follows_assignMissing m _ _ _) fun b => ?_
    split
    · exact .append
    · exact .of_follows .pure

/-- A match is created with its link in place. -/
theorem exec_createMatch {β : Type} (f : NodeId) (rest : NodeId → Search β) (c : Context) :
    (do
      let m ← createReplacement f .paramMatch
      write fun a => a.setLink m .inst (some f)
      rest m : Search β).exec c = (rest ⟨c.arena.size⟩).exec { c with
        arena := (c.arena.push
          { kind := .paramMatch, position := c.arena.position f, inst := some f }).2 } := by
  have hlink : (c.arena.createReplacement f .paramMatch).2.setLink ⟨c.arena.size⟩ .inst (some f) =
      (c.arena.push { kind := .paramMatch, position := c.arena.position f, inst := some f }).2 :=
    Arena.update_push ..
  change (rest ⟨c.arena.size⟩).exec { c with
    arena := (c.arena.createReplacement f .paramMatch).2.setLink ⟨c.arena.size⟩ .inst (some f) } = _
  rw [hlink]

/-- A match hangs nowhere when it is created. -/
theorem course_createMatch {c : Context} (hc : c.arena.Consistent) {f : NodeId} {β : Type}
    {rest : NodeId → Search β} (h : Places params ⟨c.arena.size⟩ (rest ⟨c.arena.size⟩)) :
    Course params c ((do
      let m ← createReplacement f .paramMatch
      write fun a => a.setLink m .inst (some f)
      rest m : Search β).exec c).2 := by
  rw [exec_createMatch]
  have hd : Course params c { c with arena := (c.arena.push
      { kind := .paramMatch, position := c.arena.position f, inst := some f }).2 } :=
    .effect (.create _ "" _ (.inr (.inr rfl)))
  refine hd.trans (h.course _ (hd.consistent hc) ⟨?_, ?_⟩)
  · rw [Arena.kind, Arena.node_push, if_pos rfl]
  · rw [Arena.parent, Arena.node_push, if_pos rfl]

/-- A match is created, filled and put in its place, or left hanging where the arguments do not
fit. -/
theorem follows_checkFunctionWithParams (hcall : Faithful call) (f : NodeId) :
    Follows params (checkFunctionWithParams call f params) := by
  cases params with
  | none => exact .pure
  | some params =>
    refine ⟨fun c hc => course_createMatch hc ?_⟩
    refine .bind (follows_defineFunctionType hcall f) fun b => ?_
    split
    · exact .of_follows .pure
    · refine .bind .arena fun a => ?_
      dsimp only
      split
      · refine .bind (.ask _) fun b => ?_
        split
        · exact places_acceptEmpty params _ _
        · exact places_acceptUnprototyped params _
      · refine .withLock ?_
        split
        · exact places_acceptUnprototyped params _
        · refine .withLock ?_
          split
          · split
            · exact places_acceptUnprototyped params _
            · exact places_matchParameters hcall params _ _ _ _
          · exact places_acceptEmpty params _ _

/-! ## Selection -/

theorem follows_betterMatch (hcall : Faithful call) (best candidate : NodeId) :
    Follows params (betterMatch call best candidate) :=
  modular_betterMatch modular_follows hcall.answered best candidate

/-- The node is a match that hangs below the arguments or nowhere. -/
def MatchOf (p m : NodeId) (c : Context) : Prop :=
  c.arena.kind m = .paramMatch ∧ (c.arena.parent m = some p ∨ c.arena.parent m = none)

/-- What hangs below the arguments is taken from there by nothing but the choice. -/
theorem Course.matchOf {c d : Context} {p m : NodeId} (h : Course (some p) c d)
    (hc : c.arena.Consistent) (hm : MatchOf p m c) : MatchOf p m d := by
  have hlt := lt_size_of_paramMatch hm.1
  have hframe := h.frame hc
  refine ⟨(hframe.kind hlt).trans hm.1, ?_⟩
  rcases hframe.moved m hlt with hparent | ⟨-, -, q, hq, hd⟩
  · rw [hparent]
    exact hm.2
  · rwa [Option.some.inj hq]

/-- A search without arguments leaves two matches and the arguments as they are. -/
theorem Course.matches {c d : Context} {p x y : NodeId} {i : Nat} (h : Course none c d)
    (hc : c.arena.Consistent) (hx : MatchOf p x c) (hi : (c.arena.children p)[i]? = some y)
    (hy : MatchOf p y c) :
    MatchOf p x d ∧ MatchOf p y d ∧ d.arena.children p = c.arena.children p :=
  ⟨(h.of_none _).matchOf hc hx, (h.of_none _).matchOf hc hy,
    (h.frame hc).children p (Arena.lt_size_of_mem_children (List.mem_of_getElem? hi)) (by simp)⟩

/-- A match that is a child of the arguments is taken off and discarded. -/
theorem course_dropMatch {c : Context} (hc : c.arena.Consistent) {p m : NodeId} {i : Nat}
    (hi : (c.arena.children p)[i]? = some m) (hk : c.arena.kind m = .paramMatch) :
    Course (some p) c ((dropMatch p i m).exec c).2 := by
  have hparent : c.arena.parent m = some p := (hc.mem_children p m).1 (List.mem_of_getElem? hi)
  rw [dropMatch, exec_bind, exec_checked]
  cases hb : c.arena.deleteChild p i with
  | error e => exact .refl c
  | ok r =>
    obtain ⟨m', hm', hr⟩ := bind_eq_ok_iff.1 hb
    obtain ⟨b, hset, hr⟩ := bind_eq_ok_iff.1 hr
    obtain rfl : m = m' := by
      rw [Arena.child, hi] at hm'
      exact Except.ok.inj hm'
    obtain rfl : (m, b) = r := Except.ok.inj hr
    have hdetach : Course (some p) c { c with arena := b } := .effect (.detach rfl hk hparent hset)
    have hkb : b.kind m = .paramMatch :=
      ((hdetach.frame hc).kind (lt_size_of_paramMatch hk)).trans hk
    refine hdetach.trans ?_
    dsimp only
    rw [exec_change]
    cases hd : b.discard m with
    | error e => exact .refl _
    | ok b' => exact .effect (.discard rfl hkb hd)

/-- How an invariant `J` survives the choice of the best match among the arguments: what `K` says of
the matches stays true while two of them are compared and one is dropped, and `R` says how the choice
may be stopped. -/
structure Selecting (call : Call) (p : NodeId) (J : Context → Prop) (K : NodeId → Context → Prop)
    (R : Stop → Context → Prop) : Prop where
  /-- It holds of the matches among the arguments. -/
  found : ∀ {c} {i : Nat} {m}, J c → (c.arena.children p)[i]? = some m → c.arena.kind m = .paramMatch → K m c
  /-- What it holds of hangs below the arguments or nowhere. -/
  matchOf : ∀ {c m}, K m c → MatchOf p m c
  /-- A comparison leaves the arguments as they are. -/
  compare : ∀ {c} {i : Nat} {x y}, J c → K x c → (c.arena.children p)[i]? = some y → K y c →
    Ensures (· = c) (betterMatch call x y)
      (fun _ d => J d ∧ K x d ∧ K y d ∧ d.arena.children p = c.arena.children p) R
  /-- A match that hangs nowhere has no place. -/
  offset : ∀ {c m e}, J c → K m c → c.arena.offset m = .error e → R (.failed (.node e)) c
  /-- A match is dropped from its place. -/
  drop : ∀ {c} {i : Nat} {m}, J c → (c.arena.children p)[i]? = some m → K m c →
    Ensures (· = c) (dropMatch p i m) (fun _ d => J d ∧ ∀ x, K x c → K x d) R

/-- The match that is chosen is among the arguments, unless it was dropped. -/
theorem Selecting.selectFrom {p : NodeId} {J : Context → Prop} {K : NodeId → Context → Prop}
    {R : Stop → Context → Prop} (h : Selecting call p J K R) (fuel : Nat) :
    ∀ (index : Nat) (best : Option NodeId) (ambiguous : Bool) (c : Context),
      J c → (∀ m ∈ best, K m c) →
      Ensures (· = c) (selectFrom call p fuel index best ambiguous)
        (fun r d => J d ∧ ∀ m ∈ r.1, K m d) R := by
  induction fuel with
  | zero => exact fun _ _ _ c hc hbest => Ensures.pure fun d hd => hd ▸ ⟨hc, hbest⟩
  | succ fuel ih =>
    intro index best ambiguous c hc hbest
    -- from `d` on the search goes on with a match
    have hnext : ∀ {d index ambiguous m}, J d → K m d →
        Ensures (· = d) (Search.selectFrom call p fuel index (some m) ambiguous)
          (fun r d => J d ∧ ∀ m ∈ r.1, K m d) R := fun hd hm =>
      ih _ _ _ _ hd fun m' hm' => Option.some.inj hm' ▸ hm
    rw [Search.selectFrom]
    refine ensures_arena_bind fun c' hc' => ?_
    subst hc'
    cases hi : (c'.arena.children p)[index]? with
    | none => exact Ensures.pure fun d hd => hd ▸ ⟨hc, hbest⟩
    | some candidate =>
      dsimp only
      split
      · exact ih _ _ _ c' hc hbest
      · next hk =>
        have hcandidate : K candidate c' := h.found hc hi (not_not.1 hk)
        cases best with
        | none => exact hnext hc hcandidate
        | some current =>
          refine (h.compare hc (hbest current rfl) hi hcandidate).bind fun winner =>
            Ensures.at fun d hd => ?_
          obtain ⟨hd, hcurrent, hcandidate, hchildren⟩ := hd
          -- dropping one of the two, the search goes on with the other one
          have hdrop : ∀ {i : Nat} {m m'}, (d.arena.children p)[i]? = some m → K m d → K m' d →
              Ensures (· = d) (do
                dropMatch p i m
                Search.selectFrom call p fuel index (some m') ambiguous)
                (fun r d => J d ∧ ∀ m ∈ r.1, K m d) R := fun hm hKm hKm' =>
            (h.drop hd hm hKm).bind fun _ => Ensures.at fun e he => hnext he.1 (he.2 _ hKm')
          cases winner with
          | none => exact hnext hd hcurrent
          | some winner =>
            dsimp only
            split
            · -- the best match so far is dropped, wherever it stands by now
              refine (ensures_ask (Q := fun i e => e = d ∧ d.arena.offset current = .ok i)
                (fun e i he ho => ⟨he, he ▸ ho⟩) fun e stop he ho => ?_).bind fun previous =>
                fun e he => ?_
              · subst he
                exact h.offset hd hcurrent ho
              · obtain ⟨he, hprevious⟩ := he
                subst he
                have hp : e.arena.parent current = some p := by
                  refine (h.matchOf hcurrent).2.resolve_right fun hnone => ?_
                  rw [Arena.offset, hnone] at hprevious
                  cases hprevious
                exact hdrop (Arena.getElem?_of_offset hp hprevious) hcurrent hcandidate e rfl
            · exact hdrop (hchildren ▸ hi) hcandidate hcurrent

/-- The choice of the best match runs a course. -/
theorem selecting_course (hcall : Faithful call) {p : NodeId} {c : Context}
    (hc : c.arena.Consistent) :
    Selecting call p (Course (some p) c) (MatchOf p) fun _ => Course (some p) c where
  found hd hi hk := ⟨hk, .inl (((hd.consistent hc).mem_children ..).1 (List.mem_of_getElem? hi))⟩
  matchOf h := h
  compare {d _ x y} hd hx hi hy := by
    have hbetter : Course none d ((betterMatch call x y).exec d).2 :=
      (follows_betterMatch hcall x y).course d (hd.consistent hc)
    refine ensures_of_exec (fun d' w e hd' hr => ?_) fun d' stop e hd' hr => ?_
    all_goals
      subst hd'
      rw [hr] at hbetter
    · obtain ⟨hx, hy, hchildren⟩ := hbetter.matches (hd.consistent hc) hx hi hy
      exact ⟨hd.trans (hbetter.of_none _), hx, hy, hchildren⟩
    · exact hd.trans (hbetter.of_none _)
  offset hd _ _ := hd
  drop {d i m} hd hi hm := by
    have hdrop := course_dropMatch (hd.consistent hc) hi hm.1
    refine ensures_of_exec (fun d' _ e hd' hr => ?_) fun d' stop e hd' hr => ?_
    all_goals
      subst hd'
      rw [hr] at hdrop
    · exact ⟨hd.trans hdrop, fun _ => hdrop.matchOf (hd.consistent hc)⟩
    · exact hd.trans hdrop

/-- The loop through the matches, each step of which runs a course. -/
theorem follows_selectBestFunction (hcall : Faithful call) :
    Follows params (selectBestFunction call params) := by
  refine modular_selectBestFunction modular_follows fun p hp fuel => ⟨fun c hc => ?_⟩
  obtain rfl := Option.mem_def.1 hp
  exact (((selecting_course hcall hc).selectFrom fuel 0 none false c (.refl c) nofun).mono
    (fun _ h => h) (fun _ _ h => h.1) fun _ _ h => h).state rfl

end SymbolTree.Search
