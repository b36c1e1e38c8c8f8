import SymbolTree.Proofs.Arena.Body
import SymbolTree.Proofs.Arena.Steady
import SymbolTree.Proofs.Search.Trace.Scope
import SymbolTree.Proofs.Search.Yields

/-!
# Where overloaded functions come from

The search in an imported package shares its list of arguments with the search around it, and the
selection goes through all matches in that list.  So it has to be known of every match there whose
function it stands for.

`Search.FromPackages b name params X` is what a search in the packages of a name keeps: every match
among the arguments is one of a function that such a package declares, and so `X` is known.  Both
hold as far as the packages are sealed; that they are is only known at the end, since modules are
loaded on the way, and what is sealed at the end was sealed before (`Arena.Frame.seals`).  What a
package declares is read in the arena `b` from which the search set out.

## Main statements

* `Search.FromPackages.course` — a search for something else keeps the matches and what they stand
  for.
* `Search.fromPackages_checkFunctionWithParams` — a new match is one of the function it was made
  for.
* `Search.fromPackages_selectMember` — what is selected is declared by a package of the name.
-/

set_option autoImplicit false
namespace SymbolTree

/-- Every match among the arguments stands for a function with a property. -/
def Arena.Matches (a : Arena) (params : Option NodeId) (P : NodeId → Prop) : Prop :=
  ∀ q ∈ params, ∀ m ∈ a.children q, a.kind m = .paramMatch →
    ∃ f, (a.node m).inst = some f ∧ P f

namespace Search

/-- A search in the packages of a name, which set out in the arena `b`, has gathered matches only
for functions that such a package declares, and knows `X`. -/
structure FromPackages (b : Arena) (name : String) (params : Option NodeId) (X : Prop)
    (c : Context) :
    Prop where
  /-- The tree was consistent. -/
  before : b.Consistent
  /-- The tree is consistent. -/
  consistent : c.arena.Consistent
  /-- The program is arranged as it was. -/
  frame : b.Frame params c.arena
  /-- The list of arguments is a node of the arena. -/
  there : ∀ q ∈ params, q.index < c.arena.size
  /-- Every match is one of a function that a package of the name declares. -/
  matched : c.arena.Seals name → c.arena.Matches params (b.MemberOf name)
  /-- What is known. -/
  known : c.arena.Seals name → X

/-- Something is known of the function of a match. -/
def StandsFor (b : Arena) (name : String) (m : NodeId) (c : Context) : Prop :=
  c.arena.Seals name → ∃ f, (c.arena.node m).inst = some f ∧ b.MemberOf name f

namespace FromPackages

variable {b : Arena} {name : String} {params : Option NodeId} {X Y : Prop} {c d : Context}
  {m : NodeId}

theorem mono (h : FromPackages b name params X c) (hY : X → Y) : FromPackages b name params Y c :=
  { h with known := fun hs => hY (h.known hs) }

/-- What is declared was not discarded, so that a match still stands for it. -/
theorem standsFor (h : FromPackages b name params X c) (hd : Course none c d)
    (hm : StandsFor b name m c) : StandsFor b name m d := by
  intro hs
  have hframe := hd.frame h.consistent
  obtain ⟨f, hf, hmember⟩ := hm (hframe.seals h.consistent hs)
  have halive : d.arena.isAlive f = true :=
    (hframe.memberOf h.consistent (h.frame.memberOf h.before hmember)).isAlive hs
  have hlt : f.index < c.arena.size :=
    Nat.lt_of_lt_of_le (by obtain ⟨p, -, hf⟩ := hmember; exact hf.lt_size h.before) h.frame.size_le
  have hlink : c.arena.link m .inst = some f := by
    refine Option.filter_eq_some_iff.2 ⟨hf, ?_⟩
    by_contra hdead
    rw [hframe.dead f hlt (Bool.not_eq_true _ ▸ hdead)] at halive
    cases halive
  have hkept := hframe.link m .inst f (.inl rfl) hlink Arena.not_disposable_none
  exact ⟨f, (Option.filter_eq_some_iff.1 hkept).1, hmember⟩

/-- A search without arguments keeps the matches. -/
theorem course (h : FromPackages b name params X c) (hd : Course none c d) :
    FromPackages b name params X d := by
  have hframe := hd.frame h.consistent
  refine ⟨h.before, hd.consistent h.consistent,
    h.frame.trans ((hd.of_none params).frame h.consistent),
    fun q hq => Nat.lt_of_lt_of_le (h.there q hq) hframe.size_le, fun hs q hq m hm hk => ?_,
    fun hs => h.known (hframe.seals h.consistent hs)⟩
  rw [hframe.children q (h.there q hq) (by simp)] at hm
  rw [hframe.kind (h.consistent.child_lt q m hm)] at hk
  exact h.standsFor hd (fun hs' => h.matched hs' q hq m hm hk) hs

theorem of_nodes (h : FromPackages b name params X c) (hn : d.arena.nodes = c.arena.nodes)
    (hd : d.arena.Consistent) : FromPackages b name params X d := by
  have hnode : d.arena.node = c.arena.node := funext fun n => by rw [Arena.node, Arena.node, hn]
  have hchildren : d.arena.children = c.arena.children :=
    funext fun n => by rw [Arena.children, Arena.children, hnode]
  have hkind : d.arena.kind = c.arena.kind :=
    funext fun n => by rw [Arena.kind, Arena.kind, hnode]
  have hseals : d.arena.Seals name → c.arena.Seals name := fun hs => hs.of_nodes h.consistent hn
  refine ⟨h.before, hd, h.frame.of_nodes rfl hn,
    fun q hq => Nat.lt_of_lt_of_eq (h.there q hq) (by rw [Arena.size, Arena.size, hn]),
    fun hs => ?_, fun hs => h.known (hseals hs)⟩
  have hmatched := h.matched (hseals hs)
  rw [Arena.Matches] at hmatched ⊢
  rw [hnode, hchildren, hkind]
  exact hmatched

theorem lock (h : FromPackages b name params X c) (n : NodeId) :
    FromPackages b name params X { c with arena := c.arena.lock n } :=
  h.of_nodes rfl (h.consistent.lock n)

theorem drop (h : FromPackages b name params X c) (n : NodeId) :
    FromPackages b name params X { c with arena := Guard.drop ⟨some n⟩ c.arena } :=
  h.of_nodes (Arena.nodes_drop _ _) (h.consistent.drop _)

/-- Where a package is not sealed nothing is claimed any more. -/
theorem vacuous (h : FromPackages b name params X c) (hd : Course params c d)
    (hs : ¬ c.arena.Seals name) : FromPackages b name params Y d := by
  have hframe := hd.frame h.consistent
  have hnot : ¬ d.arena.Seals name := fun hs' => hs (hframe.seals h.consistent hs')
  exact ⟨h.before, hd.consistent h.consistent, h.frame.trans hframe,
    fun q hq => Nat.lt_of_lt_of_le (h.there q hq) hframe.size_le,
    fun hs' => absurd hs' hnot, fun hs' => absurd hs' hnot⟩

/-- A search may go on as if it set out later. -/
theorem rebase (h : FromPackages b name params X c) : FromPackages c.arena name params X c :=
  ⟨h.consistent, h.consistent, .refl params _, h.there, fun hs q hq m hm hk => by
    obtain ⟨f, hf, hmember⟩ := h.matched hs q hq m hm hk
    exact ⟨f, hf, h.frame.memberOf h.before hmember⟩, h.known⟩

/-! ## Programs -/

variable {α : Type} {p : Search α} {Q : α → Context → Prop}

theorem of_follows (h : Follows none p) :
    Yields (FromPackages b name params X) p fun _ => FromPackages b name params X :=
  Yields.of_exec fun _ _ _ hc hr => hc.course (h.of_ok hc.consistent hr)

/-- A search while a node is locked. -/
theorem withLock {n : NodeId} {Z : α → Prop}
    (h : Yields (FromPackages b name params X) p fun x => FromPackages b name params (Z x)) :
    Yields (FromPackages b name params X) (withLock n p) fun x =>
      FromPackages b name params (Z x) :=
  Yields.withLock h (fun _ hc => hc.lock n) fun _ _ hd => hd.drop n

end FromPackages

variable {b : Arena} {name : String} {params : Option NodeId} {X : Prop} {q : NodeId}
  {call : Call}

/-! ## A new match -/

/-- A match that hangs nowhere yet stands for a function of a package of the name. -/
structure Pending (b : Arena) (name : String) (params : Option NodeId) (X : Prop) (m : NodeId)
    (c : Context) : Prop extends FromPackages b name params X c where
  /-- The match hangs nowhere. -/
  lone : LoneMatch m c
  /-- It stands for such a function. -/
  standsFor : StandsFor b name m c

namespace Pending

variable {α β : Type} {m : NodeId} {p : Search α} {f : α → Search β} {c d : Context}
  {Q : β → Context → Prop}

theorem course (h : Pending b name params X m c) (hd : Course none c d) :
    Pending b name params X m d :=
  ⟨h.toFromPackages.course hd, hd.loneMatch h.consistent h.lone,
    h.toFromPackages.standsFor hd h.standsFor⟩

/-- What does not touch the arguments may come first. -/
theorem bind (hp : Follows none p)
    (hf : ∀ x, Yields (Pending b name params X m) (f x) Q) :
    Yields (Pending b name params X m) (p >>= f) Q :=
  Yields.bind (Yields.of_exec fun _ _ _ hc hr => hc.course (hp.of_ok hc.consistent hr)) hf

theorem pure {x : α} :
    Yields (Pending b name params X m) (Pure.pure x : Search α) fun _ =>
      FromPackages b name params X :=
  Yields.pure fun _ hc => hc.toFromPackages

theorem withLock {n : NodeId}
    (h : Yields (Pending b name params X m) p fun _ => FromPackages b name params X) :
    Yields (Pending b name params X m) (withLock n p) fun _ => FromPackages b name params X := by
  refine Yields.withLock h (fun c hc => ⟨hc.toFromPackages.lock n, hc.lone, fun hs => ?_⟩)
    fun _ _ hd => hd.drop n
  exact hc.standsFor (Arena.Seals.of_nodes hs hc.consistent rfl)

/-- With the match the arguments have matches of such functions only. -/
theorem append {x : α} :
    Yields (Pending b name (some q) X m) (do
      change fun a => a.appendChild q m
      return x) fun _ => FromPackages b name (some q) X := by
  refine Yields.bind (Q := fun _ => FromPackages b name (some q) X) ?_ fun _ =>
    Yields.pure fun _ h => h
  refine Yields.change fun c e hc hb => ?_
  have hconsistent : e.Consistent := hc.consistent.setParent hb
  have hframe : c.arena.Frame (some q) e := .append rfl hc.lone.1 hc.lone.2 hb
  have hnode := Arena.Steady.node_setParent hc.consistent hb
  have hinst : ∀ n, (e.node n).inst = (c.arena.node n).inst := fun n => by
    obtain ⟨_, _, hn⟩ := hnode n
    rw [hn]
  have hkind : ∀ n, e.kind n = c.arena.kind n := fun n => by
    obtain ⟨_, _, hn⟩ := hnode n
    rw [Arena.kind, hn, Arena.kind]
  refine ⟨hc.before, hconsistent, hc.frame.trans hframe,
    fun r hr => Nat.lt_of_lt_of_le (hc.there r hr) hframe.size_le, fun hs r hr x hx hk => ?_,
    fun hs => hc.known (hframe.seals hc.consistent hs)⟩
  have hs := hframe.seals hc.consistent hs
  change ∃ g, (e.node x).inst = some g ∧ _
  rw [hinst]
  by_cases hxm : x = m
  · rw [hxm]
    exact hc.standsFor hs
  · have hparent := (hconsistent.mem_children r x).1 hx
    rw [Arena.parent_setParent hc.consistent hb, if_neg hxm] at hparent
    exact hc.matched hs r hr x ((hc.consistent.mem_children r x).2 hparent) (hkind x ▸ hk)

end Pending

theorem pending_acceptUnprototyped (m : NodeId) :
    Yields (Pending b name (some q) X m) (acceptUnprototyped q m) fun _ =>
      FromPackages b name (some q) X :=
  Pending.bind (.setFlag m (by decide)) fun _ => Pending.append

theorem pending_acceptEmpty (m : NodeId) (args : List NodeId) :
    Yields (Pending b name (some q) X m) (acceptEmpty q m args) fun _ =>
      FromPackages b name (some q) X := by
  rw [acceptEmpty]
  split
  · exact Pending.append
  · exact Pending.pure

theorem pending_matchParameters (hcall : Faithful call) (m : NodeId)
    (declared args : List NodeId) (last : NodeId) :
    Yields (Pending b name (some q) X m) (matchParameters call q m declared args last) fun _ =>
      FromPackages b name (some q) X := by
  refine Pending.bind (follows_setParamSize m _) fun _ => ?_
  refine Pending.bind (follows_assign hcall m declared last _ 0 args _) fun o => ?_
  cases o with
  | none => exact Pending.pure
  | some s =>
    refine Pending.bind (follows_assignMissing m _ _ _) fun b => ?_
    split
    · exact Pending.append
    · exact Pending.pure

/-- A match is made with its link in place. -/
theorem yields_createMatch {β : Type} {f : NodeId} {rest : NodeId → Search β}
    {Q : β → Context → Prop} (hf : X → b.MemberOf name f)
    (h : ∀ m, Yields (Pending b name params X m) (rest m) Q) :
    Yields (FromPackages b name params X) (do
      let m ← createReplacement f .paramMatch
      write fun a => a.setLink m .inst (some f)
      rest m) Q := by
  refine Yields.of_exec fun c x e hc hr => ?_
  rw [exec_createMatch] at hr
  have hd : Course none c { c with arena := (c.arena.push
      { kind := .paramMatch, position := c.arena.position f, inst := some f }).2 } :=
    .effect (.create _ "" _ (.inr (.inr rfl)))
  refine (h _).of_ok ⟨hc.course hd, ⟨?_, ?_⟩, fun hs => ⟨f, ?_, hf ?_⟩⟩ hr
  · rw [Arena.kind, Arena.node_push, if_pos rfl]
  · rw [Arena.parent, Arena.node_push, if_pos rfl]
  · rw [Arena.node_push, if_pos rfl]
  · exact hc.known ((hd.frame hc.consistent).seals hc.consistent hs)

/-- A function of a package may leave a match of its own. -/
theorem fromPackages_checkFunctionWithParams (hcall : Faithful call) {f : NodeId}
    (hf : X → b.MemberOf name f) :
    Yields (FromPackages b name params X) (checkFunctionWithParams call f params) fun _ =>
      FromPackages b name params X := by
  cases params with
  | none => exact Yields.pure fun _ hc => hc
  | some q =>
    refine yields_createMatch hf fun m => ?_
    refine Pending.bind (follows_defineFunctionType hcall f) fun b => ?_
    split
    · exact Pending.pure
    · refine Pending.bind .arena fun a => ?_
      dsimp only
      split
      · refine Pending.bind (.ask _) fun b => ?_
        split
        · exact pending_acceptEmpty _ _
        · exact pending_acceptUnprototyped _
      · refine Pending.withLock ?_
        split
        · exact pending_acceptUnprototyped _
        · refine Pending.withLock ?_
          split
          · split
            · exact pending_acceptUnprototyped _
            · exact pending_matchParameters hcall _ _ _ _
          · exact pending_acceptEmpty _ _

/-! ## The best match -/

/-- Dropping a match takes it from the arguments and leaves what other matches stand for. -/
theorem of_dropMatch {c d : Context} (hc : c.arena.Consistent) {m : NodeId} {i : Nat} {u : Unit}
    (hr : (dropMatch q i m).exec c = (.ok u, d)) :
    (∀ x, (d.arena.node x).inst = (c.arena.node x).inst) ∧
      ∀ x ∈ d.arena.children q, x ∈ c.arena.children q := by
  rw [dropMatch, exec_bind, exec_checked] at hr
  cases hb : c.arena.deleteChild q i with
  | error e =>
    rw [hb] at hr
    cases hr
  | ok r =>
    rw [hb] at hr
    obtain ⟨k, -, hb⟩ := bind_eq_ok_iff.1 hb
    obtain ⟨e, hset, hb⟩ := bind_eq_ok_iff.1 hb
    obtain rfl := Except.ok.inj hb
    have hnode := Arena.Steady.node_setParent hc hset
    have hchildren : ∀ x ∈ e.children q, x ∈ c.arena.children q := by
      intro x hx
      have hparent := ((hc.setParent hset).mem_children q x).1 hx
      rw [Arena.parent_setParent hc hset] at hparent
      split at hparent
      · cases hparent
      · exact (hc.mem_children q x).2 hparent
    have hinst : ∀ x, (e.node x).inst = (c.arena.node x).inst := fun x => by
      obtain ⟨_, _, hx⟩ := hnode x
      rw [hx]
    dsimp only at hr
    rw [exec_change] at hr
    cases hd : e.discard m with
    | error _ =>
      dsimp only at hr
      rw [hd] at hr
      cases hr
    | ok e' =>
      dsimp only at hr
      rw [hd] at hr
      obtain rfl : { c with arena := e' } = d := congrArg Prod.snd hr
      obtain ⟨-, rfl⟩ | ⟨-, -, -, rfl⟩ := Arena.discard_eq_ok hd
      · exact ⟨hinst, hchildren⟩
      · refine ⟨fun x => ?_, fun x hx => hchildren x ?_⟩
        · rw [← hinst, Arena.node_foldl_kill]
        · rw [Arena.children, Arena.node_foldl_kill] at hx
          exact hx

/-- A match that may be selected: it is among the arguments, or was dropped, and stands for a
function of a package of the name. -/
def Eligible (b : Arena) (name : String) (q m : NodeId) (c : Context) : Prop :=
  MatchOf q m c ∧ StandsFor b name m c

theorem FromPackages.dropMatch {c : Context} (h : FromPackages b name (some q) X c) {m : NodeId}
    {i : Nat}
    (hi : (c.arena.children q)[i]? = some m) (hk : c.arena.kind m = .paramMatch) :
    Yields (· = c) (dropMatch q i m) fun _ d =>
      FromPackages b name (some q) X d ∧ ∀ x, Eligible b name q x c → Eligible b name q x d := by
  refine Yields.of_exec fun c' u d hc' hr => ?_
  subst hc'
  have hcourse : Course (some q) c' d := by
    have := course_dropMatch h.consistent hi hk
    rwa [hr] at this
  have hframe := hcourse.frame h.consistent
  obtain ⟨hinst, hchildren⟩ := of_dropMatch h.consistent hr
  have hseals : d.arena.Seals name → c'.arena.Seals name := hframe.seals h.consistent
  refine ⟨⟨h.before, hcourse.consistent h.consistent, h.frame.trans hframe,
    fun r hr => Nat.lt_of_lt_of_le (h.there r hr) hframe.size_le, fun hs r hr x hx hxk => ?_,
    fun hs => h.known (hseals hs)⟩, fun x hx => ⟨hcourse.matchOf h.consistent hx.1, fun hs => ?_⟩⟩
  · obtain rfl := Option.some.inj hr
    have hx := hchildren x hx
    rw [hframe.kind (h.consistent.child_lt q x hx)] at hxk
    rw [hinst]
    exact h.matched (hseals hs) q rfl x hx hxk
  · rw [hinst]
    exact hx.2 (hseals hs)

theorem FromPackages.eligible {c : Context} (h : FromPackages b name (some q) X c) {m : NodeId}
    {i : Nat}
    (hi : (c.arena.children q)[i]? = some m) (hk : c.arena.kind m = .paramMatch) :
    Eligible b name q m c := by
  have hmem := List.mem_of_getElem? hi
  exact ⟨⟨hk, .inl ((h.consistent.mem_children q m).1 hmem)⟩,
    fun hs => h.matched hs q rfl m hmem hk⟩

/-- The best match so far stands for a function of a package of the name, and so do those that it is
still to be compared with. -/
theorem selecting_fromPackages (hcall : Faithful call) :
    Selecting call q (FromPackages b name (some q) X) (Eligible b name q) fun _ _ => True where
  found hd hi hk := hd.eligible hi hk
  matchOf h := h.1
  compare {d _ x y} hd hx hi hy := by
    have hbetter : Follows none (betterMatch call x y) := follows_betterMatch hcall x y
    refine ensures_of_exec (fun d' w e hd' hr => ?_) fun _ _ _ _ _ => trivial
    subst hd'
    have hcourse : Course none d' e := hbetter.of_ok hd.consistent hr
    obtain ⟨hxe, hye, hchildren⟩ := hcourse.matches hd.consistent hx.1 hi hy.1
    exact ⟨hd.course hcourse, ⟨hxe, hd.standsFor hcourse hx.2⟩, ⟨hye, hd.standsFor hcourse hy.2⟩,
      hchildren⟩
  offset _ _ _ := trivial
  drop hd hi hm := hd.dropMatch hi hm.1.1

/-- The function that is selected is one of a package of the name. -/
theorem fromPackages_selectBestFunction (hcall : Faithful call) :
    Yields (FromPackages b name params X) (selectBestFunction call params) fun o =>
      FromPackages b name params (∀ n ∈ o, b.MemberOf name n) := by
  cases params with
  | none => exact Yields.internal
  | some q =>
    refine Yields.arena_bind fun c hc => ?_
    refine Yields.bind_at ((selecting_fromPackages hcall).selectFrom _ 0 none false c hc nofun)
      fun r d hr => ?_
    obtain ⟨best, ambiguous⟩ := r
    obtain ⟨hd, hbest⟩ := hr
    cases best with
    | none => exact Yields.internal
    | some m =>
      dsimp only
      split
      · exact Yields.pure fun _ he => he ▸ hd.mono fun _ => nofun
      · refine Yields.arena_bind fun e he => Yields.pure fun _ he' => ?_
        subst he he'
        refine { hd with known := fun hs n hn => ?_ }
        obtain ⟨f, hf, hmember⟩ := (hbest m rfl).2 hs
        have hn := (Option.filter_eq_some_iff.1 hn).1
        rw [Node.link, hf] at hn
        exact Option.some.inj hn ▸ hmember

/-- The member that is selected is one of a package of the name, if the one that was found is. -/
theorem fromPackages_selectMember (hcall : Faithful call) (found : Option NodeId × Nat) :
    Yields (FromPackages b name params (∀ n ∈ found.1, b.MemberOf name n))
      (selectMember call found params) fun o =>
        FromPackages b name params (∀ n ∈ o, b.MemberOf name n) := by
  unfold selectMember
  split
  · exact Yields.pure fun _ hc => hc
  · exact fromPackages_selectBestFunction hcall

end Search

end SymbolTree
