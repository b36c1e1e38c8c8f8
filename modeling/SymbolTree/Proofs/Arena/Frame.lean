import SymbolTree.Proofs.Arena.Move

/-!
# What stays in an arena

Two relations between an arena and a later one.

* `Arena.Extends a b` — nothing that was there changed, and what is new owns only what is new.  This
  is what building a tree does.
* `Arena.Frame params a b` — the program that was there is still arranged as it was.  Nodes may have
  gained flags and the mark of a type, links that led nowhere may lead somewhere, and among the
  children of `params` parameter matches may have come and gone; with a match goes what it owns.

Both are preorders.  For the frame this rests on `Frame.disposable`: what may be taken away later on
might have been from the beginning, since nothing old is ever put below a match, and no match that
hangs elsewhere is put among the arguments.

## Main statements

* `Arena.Frame.trans`, `Arena.Extends.frame`.
* `Arena.Extends.appendChild` — hanging a new node below a new node extends an arena.
* `Arena.Frame.append`, `Arena.Frame.detach`, `Arena.Frame.discard` — what is done to a match.
-/

set_option autoImplicit false
namespace SymbolTree

/-- A node as it may look later on, apart from its relatives and its links: it may have gained flags
and the mark of a type, and is otherwise the same. -/
structure Node.Ages (d e : Node) : Prop where
  /-- The kind stays. -/
  kind : e.kind = d.kind
  /-- The position stays. -/
  position : e.position = d.position
  /-- The name or text stays. -/
  text : e.text = d.text
  /-- The value of an integer stays. -/
  int : e.int = d.int
  /-- The value of a float stays. -/
  float : e.float = d.float
  /-- The attribute node stays. -/
  attributeNode : e.attributeNode = d.attributeNode
  /-- Flags are only gained. -/
  flags : ∀ f, d.flags.contains f = true → e.flags.contains f = true
  /-- Attributes are only gained. -/
  attributes : ∀ t, d.attributes.contains t = true → e.attributes.contains t = true
  /-- The only attribute that is gained is the mark of a type. -/
  gained : ∀ t, e.attributes.contains t = true → d.attributes.contains t = true ∨ t = .type

theorem Node.Ages.refl (d : Node) : d.Ages d :=
  ⟨rfl, rfl, rfl, rfl, rfl, rfl, fun _ => id, fun _ => id, fun _ => .inl⟩

theorem Node.Ages.trans {d e f : Node} (h : d.Ages e) (h' : e.Ages f) : d.Ages f where
  kind := h'.kind.trans h.kind
  position := h'.position.trans h.position
  text := h'.text.trans h.text
  int := h'.int.trans h.int
  float := h'.float.trans h.float
  attributeNode := h'.attributeNode.trans h.attributeNode
  flags f hf := h'.flags f (h.flags f hf)
  attributes t ht := h'.attributes t (h.attributes t ht)
  gained t ht := by
    rcases h'.gained t ht with ht | ht
    · exact h.gained t ht
    · exact .inr ht

/-- A node that ages and keeps its place in the tree. -/
structure Node.AgesInPlace (d e : Node) : Prop extends d.Ages e where
  /-- The parent stays. -/
  parent : e.parent = d.parent
  /-- The children stay. -/
  children : e.children = d.children
  /-- The node is not discarded. -/
  alive : e.alive = d.alive

theorem Node.AgesInPlace.refl (d : Node) : d.AgesInPlace d :=
  ⟨.refl d, rfl, rfl, rfl⟩

theorem Node.AgesInPlace.trans {d e f : Node} (h : d.AgesInPlace e) (h' : e.AgesInPlace f) :
    d.AgesInPlace f :=
  ⟨h.toAges.trans h'.toAges, h'.parent.trans h.parent, h'.children.trans h.children,
    h'.alive.trans h.alive⟩

theorem Node.agesInPlace_setLink (d : Node) (l : Link) (t : Option NodeId) :
    d.AgesInPlace (d.setLink l t) := by
  cases l <;> exact ⟨⟨rfl, rfl, rfl, rfl, rfl, rfl, fun _ => id, fun _ => id, fun _ => .inl⟩,
    rfl, rfl, rfl⟩

@[simp] theorem Node.link_setLink (d : Node) (l k : Link) (t : Option NodeId) :
    (d.setLink l t).link k = if k = l then t else d.link k := by
  cases l <;> cases k <;> rfl

namespace Arena

/-- A node owns its children and its attribute node. -/
def Owns (a : Arena) (x y : NodeId) : Prop :=
  y ∈ a.children x ∨ (a.node x).attributeNode = some y

/-- A node is a parameter match or owned by one, be it through others. -/
def OfMatch (a : Arena) (n : NodeId) : Prop :=
  ∃ m, a.kind m = .paramMatch ∧ Relation.ReflTransGen a.Owns m n

theorem Owns.lt_size {a : Arena} {x y : NodeId} (h : a.Owns x y) : x.index < a.size := by
  by_contra hx
  rcases h with h | h
  · exact hx (lt_size_of_mem_children h)
  · rw [node_of_size_le (Nat.le_of_not_lt hx)] at h
    cases h

/-- A parameter match that hangs below the arguments, or nowhere.  A search with these arguments may
move it. -/
def Loose (params : Option NodeId) (a : Arena) (n : NodeId) : Prop :=
  a.kind n = .paramMatch ∧ ∃ p, params = some p ∧ (a.parent n = some p ∨ a.parent n = none)

/-- A search with arguments may take away the matches below them, with all that they own. -/
def Disposable (params : Option NodeId) (a : Arena) (n : NodeId) : Prop :=
  ∃ m, a.Loose params m ∧ Relation.ReflTransGen a.Owns m n

theorem Disposable.ofMatch {params : Option NodeId} {a : Arena} {n : NodeId}
    (h : a.Disposable params n) : a.OfMatch n := by
  obtain ⟨m, hm, hpath⟩ := h
  exact ⟨m, hm.1, hpath⟩

/-- A search without arguments takes nothing away. -/
theorem not_disposable_none {a : Arena} {n : NodeId} : ¬ a.Disposable none n := by
  rintro ⟨m, ⟨-, p, hp, -⟩, -⟩
  cases hp

/-- The program in an arena is still arranged as it was in an earlier one. -/
structure Frame (params : Option NodeId) (a b : Arena) : Prop where
  /-- Nodes are only added. -/
  size_le : a.size ≤ b.size
  /-- What a node holds stays. -/
  ages : ∀ n, n.index < a.size → (a.node n).Ages (b.node n)
  /-- A node stays below its parent. -/
  parent : ∀ n, n.index < a.size → ¬ a.Disposable params n → b.parent n = a.parent n
  /-- Only a match that hangs below the arguments or nowhere is moved, and it does so afterwards. -/
  moved : ∀ n, n.index < a.size →
    b.parent n = a.parent n ∨ a.Loose params n ∧ b.Loose params n
  /-- A node is discarded only if it is disposable. -/
  alive : ∀ n, n.index < a.size → ¬ a.Disposable params n → b.isAlive n = a.isAlive n
  /-- A discarded node stays so. -/
  dead : ∀ n, n.index < a.size → a.isAlive n = false → b.isAlive n = false
  /-- Children stay in order, except below the list of arguments. -/
  children : ∀ n, n.index < a.size → params ≠ some n → b.children n = a.children n
  /-- Children that are no matches stay in order everywhere. -/
  others : ∀ n, n.index < a.size → (b.children n).filter (fun c => b.kind c ≠ .paramMatch)
    = (a.children n).filter (fun c => a.kind c ≠ .paramMatch)
  /-- A link that leads to a node still leads there. -/
  link : ∀ n l t, (l = .inst ∨ l = .typeNode) → a.link n l = some t → ¬ a.Disposable params t →
    b.link n l = some t
  /-- What was there, and may not be moved, has the owner that it had. -/
  owner : ∀ x y, b.Owns x y → y.index < a.size → ¬ a.Loose params y → x.index < a.size ∧ a.Owns x y

namespace Frame

variable {params : Option NodeId} {a b c : Arena} {n : NodeId}

theorem refl (params : Option NodeId) (a : Arena) : a.Frame params a :=
  ⟨Nat.le_refl _, fun _ _ => .refl _, fun _ _ _ => rfl, fun _ _ => .inl rfl, fun _ _ _ => rfl,
    fun _ _ h => h, fun _ _ _ => rfl, fun _ _ => rfl, fun _ _ _ _ h _ => h,
    fun _ _ h _ _ => ⟨h.lt_size, h⟩⟩

theorem kind (h : a.Frame params b) (hn : n.index < a.size) : b.kind n = a.kind n :=
  (h.ages n hn).kind

/-- What may be moved might have been before. -/
theorem loose (h : a.Frame params b) {n : NodeId} (hb : b.Loose params n) (hn : n.index < a.size) :
    a.Loose params n := by
  rcases h.moved n hn with hparent | hmoved
  · obtain ⟨hk, p, hp, hb⟩ := hb
    rw [hparent] at hb
    exact ⟨(h.kind hn).symm.trans hk, p, hp, hb⟩
  · exact hmoved.1

/-- What may be taken away might have been before. -/
theorem disposable (h : a.Frame params b) {n : NodeId} (hb : b.Disposable params n)
    (hn : n.index < a.size) : a.Disposable params n := by
  obtain ⟨m, hm, hpath⟩ := hb
  induction hpath with
  | refl => exact ⟨m, h.loose hm hn, .refl⟩
  | @tail x y _ hxy ih =>
    by_cases hy : a.Loose params y
    · exact ⟨y, hy, .refl⟩
    · obtain ⟨hx, hown⟩ := h.owner x y hxy hn hy
      obtain ⟨m', hm', hpath'⟩ := ih hx
      exact ⟨m', hm', hpath'.tail hown⟩

theorem trans (h : a.Frame params b) (h' : b.Frame params c) : a.Frame params c where
  size_le := Nat.le_trans h.size_le h'.size_le
  ages n hn := (h.ages n hn).trans (h'.ages n (Nat.lt_of_lt_of_le hn h.size_le))
  parent n hn hd := (h'.parent n (Nat.lt_of_lt_of_le hn h.size_le)
    fun hb => hd (h.disposable hb hn)).trans (h.parent n hn hd)
  moved n hn := by
    rcases h'.moved n (Nat.lt_of_lt_of_le hn h.size_le) with hparent | ⟨hb, hc⟩
    · rw [hparent]
      refine (h.moved n hn).imp_right fun ⟨ha, hkind, p, hp, hb⟩ => ⟨ha, ?_⟩
      exact ⟨(h'.kind (Nat.lt_of_lt_of_le hn h.size_le)).trans hkind, p, hp, by rwa [hparent]⟩
    · exact .inr ⟨h.loose hb hn, hc⟩
  alive n hn hd := (h'.alive n (Nat.lt_of_lt_of_le hn h.size_le)
    fun hb => hd (h.disposable hb hn)).trans (h.alive n hn hd)
  dead n hn ha := h'.dead n (Nat.lt_of_lt_of_le hn h.size_le) (h.dead n hn ha)
  children n hn hp :=
    (h'.children n (Nat.lt_of_lt_of_le hn h.size_le) hp).trans (h.children n hn hp)
  others n hn := (h'.others n (Nat.lt_of_lt_of_le hn h.size_le)).trans (h.others n hn)
  link n l t hl ht hd := by
    have hlt : t.index < a.size := lt_size_of_isAlive (Option.filter_eq_some_iff.1 ht).2
    exact h'.link n l t hl (h.link n l t hl ht hd) fun hb => hd (h.disposable hb hlt)
  owner x y hxy hy hk := by
    obtain ⟨hx, hown⟩ := h'.owner x y hxy (Nat.lt_of_lt_of_le hy h.size_le)
      fun hb => hk (h.loose hb hy)
    exact h.owner x y hown hy hk

/-- The frame does not look at the locks. -/
theorem of_nodes {a' b' : Arena} (h : a.Frame params b) (ha : a'.nodes = a.nodes)
    (hb : b'.nodes = b.nodes) : a'.Frame params b' := by
  obtain ⟨na, la⟩ := a
  obtain ⟨nb, lb⟩ := b
  cases a'
  cases b'
  cases ha
  cases hb
  exact ⟨h.size_le, h.ages, h.parent, h.moved, h.alive, h.dead, h.children, h.others, h.link,
    h.owner⟩

theorem lock (h : (a.lock n).Frame params b) : a.Frame params (Guard.drop ⟨some n⟩ b) :=
  h.of_nodes rfl (nodes_drop _ b)

/-- A frame survives when every node ages in place and no link is lost. -/
theorem inPlace {b' : Arena} (h : a.Frame params b) (hsize : b'.size = b.size)
    (hnode : ∀ m, (b.node m).AgesInPlace (b'.node m))
    (hlink : ∀ m k u, a.link m k = some u → (b'.node m).link k = (b.node m).link k) :
    a.Frame params b' := by
  have hkind : b'.kind = b.kind := funext fun m => (hnode m).kind
  have halive : b'.isAlive = b.isAlive := funext fun m => (hnode m).alive
  refine ⟨by rw [hsize]; exact h.size_le, fun m hm => (h.ages m hm).trans (hnode m).toAges,
    fun m hm hd => ?_, fun m hm => ?_, fun m hm hd => ?_, fun m hm hd => ?_, fun m hm hd => ?_,
    fun m hm => ?_, fun m k u hk hu hd => ?_, fun x y hxy hy hk => ?_⟩
  · exact (hnode m).parent.trans (h.parent m hm hd)
  · have hparent : b'.parent m = b.parent m := (hnode m).parent
    rw [hparent]
    refine (h.moved m hm).imp_right fun hmoved => ⟨hmoved.1, ?_⟩
    rw [Loose, hkind, hparent]
    exact hmoved.2
  · rw [halive]; exact h.alive m hm hd
  · rw [halive]; exact h.dead m hm hd
  · exact (hnode m).children.trans (h.children m hm hd)
  · rw [Arena.children, (hnode m).children, hkind]; exact h.others m hm
  · rw [Arena.link, live, hlink m k u hu, halive]
    exact h.link m k u hk hu hd
  · rw [Owns, Arena.children, (hnode x).children, (hnode x).attributeNode] at hxy
    exact h.owner x y hxy hy hk

theorem update {n : NodeId} {f : Node → Node} (hf : (a.node n).AgesInPlace (f (a.node n)))
    (hlink : ∀ l, (f (a.node n)).link l = (a.node n).link l) : a.Frame params (a.update n f) := by
  exact (refl params a).inPlace (size_update a n f) (rel_node_update .refl hf)
    fun m k _ _ => field_update (·.link k) (hlink k) m

theorem setFlag {n : NodeId} {f : Flag} (h : a.setFlag n f true = .ok b) : a.Frame params b := by
  obtain ⟨-, -, rfl⟩ := setFlag_eq_ok_iff.1 h
  refine update ⟨⟨rfl, rfl, rfl, rfl, rfl, rfl, fun g hg => ?_, fun _ => id, fun _ => .inl⟩,
    rfl, rfl, rfl⟩ fun l => by cases l <;> rfl
  simp [hg]

theorem setType {n : NodeId} {r : Bool} (h : a.setAttribute n .type true = .ok (r, b)) :
    a.Frame params b := by
  obtain ⟨-, -, rfl | rfl⟩ := setAttribute_eq_ok h
  · exact refl params b
  · refine update ⟨⟨rfl, rfl, rfl, rfl, rfl, rfl, fun _ => id, fun t ht => ?_, fun t ht => ?_⟩,
      rfl, rfl, rfl⟩ fun l => by cases l <;> rfl
    · simp [ht]
    · simpa [or_comm] using ht

theorem addLabel {n l : NodeId} (h : a.addLabel n l = .ok b) : a.Frame params b := by
  obtain ⟨-, -, -, rfl⟩ := addLabel_eq_ok h
  exact update ⟨⟨rfl, rfl, rfl, rfl, rfl, rfl, fun _ => id, fun _ => id, fun _ => .inl⟩,
    rfl, rfl, rfl⟩ fun l => by cases l <;> rfl

theorem retable (n : NodeId) (f : List Int32 → List Int32) (g : List Nat → List Nat) :
    a.Frame params (a.retable n f g) :=
  update ⟨⟨rfl, rfl, rfl, rfl, rfl, rfl, fun _ => id, fun _ => id, fun _ => .inl⟩,
    rfl, rfl, rfl⟩ fun l => by cases l <;> rfl

/-- A link that led nowhere at the beginning may be given an end later on. -/
theorem setLink (h : a.Frame params b) {n : NodeId} {l : Link} (hl : a.link n l = none)
    (t : Option NodeId) : a.Frame params (b.setLink n l t) := by
  refine h.inPlace (size_update b n _) (fun m => ?_) fun m k u hu => ?_
  · exact rel_node_update .refl (Node.agesInPlace_setLink _ l t) m
  · rw [Arena.setLink, node_update]
    split
    · next hm =>
      rw [Node.link_setLink, if_neg]
      rintro rfl
      rw [hm.1, hl] at hu
      cases hu
    · rfl

/-! ### Matches come and go -/

/-- A match is put among the arguments or taken away from them; nothing else moves. -/
theorem moveMatch {p m : NodeId} (hp : params = some p) (hk : a.kind m = .paramMatch)
    (hm : a.parent m = some p ∨ a.parent m = none) (hsize : b.size = a.size)
    (hnode : ∀ x, ∃ q l, b.node x = { a.node x with parent := q, children := l } ∧
      (x ≠ m → q = a.parent x) ∧ (x = m → q = none ∨ q = some p) ∧ (x ≠ p → l = a.children x) ∧
      l.filter (· ≠ m) = (a.children x).filter (· ≠ m)) : a.Frame params b := by
  have hloose : a.Loose params m := ⟨hk, p, hp, hm⟩
  have hages : ∀ x, (a.node x).Ages (b.node x) ∧ b.isAlive x = a.isAlive x ∧
      ∀ l, (b.node x).link l = (a.node x).link l := by
    intro x
    obtain ⟨q, l, hx, -⟩ := hnode x
    rw [isAlive, hx]
    refine ⟨⟨rfl, rfl, rfl, rfl, rfl, rfl, fun _ => id, fun _ => id, fun _ => .inl⟩, rfl, ?_⟩
    intro k
    cases k <;> rfl
  have hkind : b.kind = a.kind := funext fun x => (hages x).1.kind
  have halive : b.isAlive = a.isAlive := funext fun x => (hages x).2.1
  have hothers : ∀ x, (b.children x).filter (· ≠ m) = (a.children x).filter (· ≠ m) := by
    intro x
    obtain ⟨q, l, hx, -, -, -, hl⟩ := hnode x
    rw [Arena.children, hx]
    exact hl
  refine ⟨Nat.le_of_eq hsize.symm, fun x _ => (hages x).1, fun x _ hd => ?_, fun x _ => ?_,
    fun x _ _ => (hages x).2.1, fun x _ h => (hages x).2.1.trans h, fun x _ hx => ?_,
    fun x _ => ?_, fun x l t _ ht _ => ?_,
    fun x y hxy _ hy => ?_⟩
  · have hxm : x ≠ m := fun e => hd ⟨m, hloose, e ▸ .refl⟩
    obtain ⟨q, l, hx, hq, -⟩ := hnode x
    rw [Arena.parent, hx]
    exact hq hxm
  · obtain ⟨q, l, hx, hq, hq', -⟩ := hnode x
    have hparent : b.parent x = q := by rw [Arena.parent, hx]
    by_cases hxm : x = m
    · subst hxm
      exact .inr ⟨hloose, by rwa [hkind], p, hp, by rw [hparent]; exact (hq' rfl).symm⟩
    · exact .inl (hparent.trans (hq hxm))
  · obtain ⟨q, l, hb, -, -, hl, -⟩ := hnode x
    rw [Arena.children, hb]
    exact hl fun e => hx (by rw [hp, e])
  · -- a match is filtered out on both sides
    have hsub : ∀ l : List NodeId, l.filter (fun c => a.kind c ≠ .paramMatch)
        = (l.filter (· ≠ m)).filter (fun c => a.kind c ≠ .paramMatch) := by
      intro l
      rw [List.filter_filter]
      refine List.filter_congr fun c _ => ?_
      by_cases hc : c = m <;> simp [hc, hk]
    rw [hkind, hsub (b.children x), hothers x, ← hsub]
  · rw [Arena.link, live, (hages x).2.2, halive]
    exact ht
  · have hym : y ≠ m := fun e => hy (e ▸ hloose)
    have hown : a.Owns x y := by
      rcases hxy with hxy | hxy
      · have hmem : y ∈ (b.children x).filter (· ≠ m) := List.mem_filter.2 ⟨hxy, by simpa using hym⟩
        rw [hothers x] at hmem
        exact .inl (List.mem_filter.1 hmem).1
      · exact .inr ((hages x).1.attributeNode ▸ hxy)
    exact ⟨hown.lt_size, hown⟩

theorem append {p m : NodeId} (hp : params = some p)
    (hk : a.kind m = .paramMatch) (hm : a.parent m = none) (hb : a.appendChild p m = .ok b) :
    a.Frame params b := by
  obtain ⟨hm', hp', rfl⟩ := appendChild_eq_ok hm hb
  refine moveMatch hp hk (.inr hm) (size_attach ..) fun x =>
    ⟨_, _, node_attach hm' hp' none x, ?_, ?_, ?_, ?_⟩
  · exact fun hx => if_neg hx
  · exact fun hx => .inr (if_pos hx)
  · exact fun hx => if_neg hx
  · split
    · next hx => rw [hx, place, List.filter_append]; simp
    · rfl

theorem detach (h : a.Consistent) {p m : NodeId} (hp : params = some p)
    (hk : a.kind m = .paramMatch) (hm : a.parent m = some p)
    (hb : a.setParent m none none = .ok b) : a.Frame params b := by
  obtain ⟨-, -, -, hb⟩ := setParent_eq_ok hb
  obtain ⟨he, -, -⟩ | ⟨-, -, -, rfl⟩ := relocate_eq_ok hb
  · rw [hm] at he
    cases he
  · refine moveMatch hp hk (.inl hm) (size_detach a m) fun x => ⟨_, _, node_detach h m x, ?_, ?_, ?_, ?_⟩
    · exact fun hx => if_neg hx
    · exact fun hx => .inl (if_pos hx)
    · intro hx
      refine List.erase_of_not_mem fun hc => hx ?_
      exact (Option.some.inj (hm.symm.trans ((h.mem_children x m).1 hc))).symm
    · rw [(h.nodup x).erase_eq_filter, List.filter_filter]
      refine List.filter_congr fun c _ => ?_
      simp

end Frame

@[simp] theorem node_foldl_kill (a : Arena) (l : List NodeId) (n : NodeId) :
    (l.foldl kill a).node n = { a.node n with alive := a.isAlive n && !l.contains n } := by
  induction l generalizing a with
  | nil => simp [isAlive]
  | cons m l ih =>
    have hkill : (a.kill m).node n = { a.node n with alive := a.isAlive n && n ≠ m } := by
      rw [kill, node_update]
      split
      · next hm => simp [hm.1]
      · next hm =>
        by_cases hn : n = m
        · -- the node is not there at all, and so not alive
          have hlt : ¬ n.index < a.size := fun hlt => hm ⟨hn, hn ▸ hlt⟩
          rw [isAlive, node_of_size_le (Nat.le_of_not_lt hlt)]
          rfl
        · simp [hn, isAlive]
    rw [List.foldl_cons, ih, isAlive, hkill, List.contains_cons]
    by_cases hn : n = m
    · simp [hn]
    · have hne : (n == m) = false := by simpa using hn
      simp [hn, hne]

@[simp] theorem size_foldl_kill (a : Arena) (l : List NodeId) : (l.foldl kill a).size = a.size := by
  induction l generalizing a with
  | nil => rfl
  | cons m l ih => rw [List.foldl_cons, ih, kill, size_update]

/-- A node is met on the way from another along what live nodes own. -/
def Gathers (a : Arena) : NodeId → NodeId → Prop :=
  Relation.ReflTransGen fun x y => a.isAlive x = true ∧ a.Owns x y

theorem mem_ownedFrom_succ {a : Arena} {fuel : Nat} {m n : NodeId} :
    m ∈ a.ownedFrom (fuel + 1) n ↔
      m = n ∨ a.isAlive n = true ∧ ∃ x, a.Owns n x ∧ m ∈ a.ownedFrom fuel x := by
  rw [ownedFrom]
  split
  · next hn =>
    simp only [hn, true_and, List.mem_cons, List.mem_flatMap, List.mem_append, List.mem_reverse,
      Option.mem_toList]
    exact or_congr_right (exists_congr fun x => and_congr_left' or_comm)
  · next hn => simp [hn]

theorem gathers_of_mem_ownedFrom {a : Arena} {fuel : Nat} {m n : NodeId}
    (h : m ∈ a.ownedFrom fuel n) : a.Gathers n m := by
  induction fuel generalizing n with
  | zero => cases h
  | succ fuel ih =>
    rcases mem_ownedFrom_succ.1 h with rfl | ⟨hn, x, hx, hm⟩
    · exact .refl
    · exact .head ⟨hn, hx⟩ (ih hm)

theorem owns_of_mem_ownedFrom {a : Arena} {fuel : Nat} {m n : NodeId}
    (h : m ∈ a.ownedFrom fuel n) : Relation.ReflTransGen a.Owns n m :=
  Relation.ReflTransGen.mono (fun _ _ hxy => hxy.2) n m (gathers_of_mem_ownedFrom h)

theorem Frame.discard {params : Option NodeId} {a b : Arena} {p m : NodeId} (hp : params = some p)
    (hk : a.kind m = .paramMatch) (hb : a.discard m = .ok b) : a.Frame params b := by
  obtain ⟨-, rfl⟩ | ⟨-, hm, -, rfl⟩ := discard_eq_ok hb
  · exact .refl params b
  · have hnode := node_foldl_kill a (a.owned m)
    have hages : ∀ n, (a.node n).Ages (((a.owned m).foldl kill a).node n) := by
      intro n
      rw [hnode]
      exact ⟨rfl, rfl, rfl, rfl, rfl, rfl, fun _ => id, fun _ => id, fun _ => .inl⟩
    have hkeep : ∀ n, ¬ a.Disposable params n →
        ((a.owned m).foldl kill a).isAlive n = a.isAlive n := by
      intro n hd
      have hn : n ∉ a.owned m := fun h =>
        hd ⟨m, ⟨hk, p, hp, .inr hm⟩, owns_of_mem_ownedFrom h⟩
      rw [isAlive, hnode]
      simp [hn]
    have hkind : ((a.owned m).foldl kill a).kind = a.kind := funext fun n => (hages n).kind
    have hchildren : ((a.owned m).foldl kill a).children = a.children :=
      funext fun n => by rw [Arena.children, hnode, Arena.children]
    have hparent : ∀ n, ((a.owned m).foldl kill a).parent n = a.parent n := fun n => by
      rw [Arena.parent, hnode, Arena.parent]
    refine ⟨Nat.le_of_eq (size_foldl_kill a _).symm, fun n _ => hages n, fun n _ _ => hparent n,
      fun n _ => .inl (hparent n), fun n _ => hkeep n, fun n _ h => ?_,
      fun n _ _ => by rw [hchildren], fun n _ => by rw [hchildren, hkind],
      fun n l t _ ht hd => ?_, fun x y hxy _ _ => ?_⟩
    · rw [isAlive, hnode, h]; rfl
    · obtain ⟨hraw, halive⟩ := Option.filter_eq_some_iff.1 ht
      have hlink : (((a.owned m).foldl kill a).node n).link l = (a.node n).link l := by
        rw [hnode]; cases l <;> rfl
      rw [Arena.link, live, hlink]
      exact Option.filter_eq_some_iff.2 ⟨hraw, (hkeep t hd).trans halive⟩
    · rw [Owns, hchildren, (hages x).attributeNode] at hxy
      exact ⟨Owns.lt_size hxy, hxy⟩

/-! ## Extensions -/

/-- Nothing that was there changed, and what is new owns only what is new. -/
structure Extends (a b : Arena) : Prop where
  /-- Nodes are only added. -/
  size_le : a.size ≤ b.size
  /-- What was there is as it was. -/
  node : ∀ n, n.index < a.size → b.node n = a.node n
  /-- What is new owns only what is new. -/
  owns : ∀ x y, a.size ≤ x.index → b.Owns x y → a.size ≤ y.index

namespace Extends

variable {a b c : Arena}

theorem refl (a : Arena) : a.Extends a :=
  ⟨Nat.le_refl _, fun _ _ => rfl, fun _ _ hx h => absurd h.lt_size (Nat.not_lt.2 hx)⟩

theorem frame (h : a.Extends b) (hc : a.Consistent) (params : Option NodeId) :
    a.Frame params b := by
  have hchildren : ∀ n, n.index < a.size → b.children n = a.children n := fun n hn => by
    rw [children, h.node n hn, children]
  have halive : ∀ n, n.index < a.size → b.isAlive n = a.isAlive n := fun n hn => by
    rw [isAlive, h.node n hn, isAlive]
  have hparent : ∀ n, n.index < a.size → b.parent n = a.parent n := fun n hn => by
    rw [parent, h.node n hn, parent]
  refine ⟨h.size_le, fun n hn => ?_, fun n hn _ => hparent n hn, fun n hn => .inl (hparent n hn),
    fun n hn _ => halive n hn, fun n hn hd => (halive n hn).trans hd,
    fun n hn _ => hchildren n hn, fun n hn => ?_,
    fun n l t _ ht _ => ?_, fun x y hxy hy _ => ?_⟩
  · rw [h.node n hn]; exact .refl _
  · rw [hchildren n hn]
    refine List.filter_congr fun m hm => ?_
    rw [kind, h.node m (hc.child_lt n m hm), kind]
  · obtain ⟨hraw, ht'⟩ := Option.filter_eq_some_iff.1 ht
    have hn : n.index < a.size := by
      by_contra hn
      rw [node_of_size_le (Nat.le_of_not_lt hn)] at hraw
      cases l <;> cases hraw
    rw [Arena.link, live, h.node n hn]
    exact Option.filter_eq_some_iff.2
      ⟨hraw, (halive t (lt_size_of_isAlive ht')).trans ht'⟩
  · have hx : x.index < a.size := by
      by_contra hx
      exact absurd (h.owns x y (Nat.le_of_not_lt hx) hxy) (Nat.not_le.2 hy)
    rw [Owns, children, h.node x hx] at hxy
    exact ⟨hx, hxy⟩

/-- Rewriting a new node extends an arena when the node still owns only what is new. -/
theorem update (h : a.Extends b) {n : NodeId} {f : Node → Node} (hn : a.size ≤ n.index)
    (hf : ∀ y, y ∈ (f (b.node n)).children ∨ (f (b.node n)).attributeNode = some y →
      a.size ≤ y.index) : a.Extends (b.update n f) := by
  refine ⟨by simpa using h.size_le, fun m hm => ?_, fun x y hx hxy => ?_⟩
  · rw [node_update, if_neg, h.node m hm]
    rintro ⟨rfl, -⟩
    exact Nat.not_le.2 hm hn
  · rw [Owns, children, node_update] at hxy
    split at hxy
    · next hxn => rw [hxn.1] at hxy; exact hf y hxy
    · exact h.owns x y hx hxy

/-- Rewriting what a new node holds, other than its attribute node, extends an arena. -/
theorem update_of_eq (h : a.Extends b) {n : NodeId} {f : Node → Node} (hn : a.size ≤ n.index)
    (hc : (f (b.node n)).children = (b.node n).children)
    (ha : (f (b.node n)).attributeNode = (b.node n).attributeNode) :
    a.Extends (b.update n f) := by
  refine h.update hn fun y hy => h.owns n y hn ?_
  rw [hc, ha] at hy
  exact hy

theorem push (h : a.Extends b) {d : Node} (hc : d.children = []) (ha : d.attributeNode = none) :
    a.Extends (b.push d).2 := by
  refine ⟨by simpa using Nat.le_succ_of_le h.size_le, fun m hm => ?_,
    fun x y hx hxy => ?_⟩
  · rw [node_push, if_neg (Nat.ne_of_lt (Nat.lt_of_lt_of_le hm h.size_le)), h.node m hm]
  · rw [Owns, children, node_push] at hxy
    split at hxy
    · rw [hc, ha] at hxy
      simp at hxy
    · exact h.owns x y hx hxy

/-- Hanging a new node below a new node extends an arena. -/
theorem appendChild (h : a.Extends b) (hac : a.Consistent) (hbc : b.Consistent) {n m : NodeId}
    (hn : a.size ≤ n.index) (hm : a.size ≤ m.index) (hb : b.appendChild n m = .ok c) :
    a.Extends c := by
  obtain ⟨hmod, hmodn, -, hb⟩ := setParent_eq_ok hb
  have hm' : m.index < b.size := lt_size_of_modifying hmod
  have hn' : n.index < b.size := lt_size_of_modifying (hmodn n rfl)
  obtain ⟨-, -, rfl⟩ | ⟨-, -, -, rfl⟩ := relocate_eq_ok hb
  · exact h
  · rw [← size_detach b m] at hm' hn'
    -- the node had no old parent, since no old parent lists a new child
    have hold : ∀ x, x.index < a.size → m ∉ b.children x := fun x hx hmem => by
      rw [children, h.node x hx] at hmem
      exact Nat.not_lt.2 hm (hac.child_lt x m hmem)
    refine ⟨?_, fun x hx => ?_, fun x y hx hxy => ?_⟩
    · simpa using h.size_le
    · have hxm : x ≠ m := fun e => Nat.not_lt.2 hm (e ▸ hx)
      have hxn : x ≠ n := fun e => Nat.not_lt.2 hn (e ▸ hx)
      rw [Option.elim_some, node_attach hm' hn', if_neg hxm, if_neg hxn, parent_detach hbc,
        if_neg hxm, children_detach hbc, List.erase_of_not_mem (hold x hx), node_detach hbc,
        ← h.node x hx]
      rfl
    · rw [Option.elim_some, Owns, children_attach hm' hn', node_attach hm' hn', node_detach hbc]
        at hxy
      have hsub : ∀ z, y ∈ (b.detach m).children z → a.size ≤ z.index → a.size ≤ y.index := by
        intro z hy hz
        rw [children_detach hbc] at hy
        exact h.owns z y hz (.inl (List.mem_of_mem_erase hy))
      rcases hxy with hxy | hxy
      · split at hxy
        · rcases List.mem_append.1 hxy with hy | hy
          · exact hsub n hy hn
          · rw [List.mem_singleton.1 hy]; exact hm
        · exact hsub x hxy hx
      · exact h.owns x y hx (.inr hxy)

end Extends

end Arena

end SymbolTree
