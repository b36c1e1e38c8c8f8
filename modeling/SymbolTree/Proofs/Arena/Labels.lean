import SymbolTree.Proofs.Arena.Forest

/-!
# Names that are taken

A label is registered under its name with a function, a package or a program, each name once.  The
table of labels only ever grows: no request takes an entry out, also not the one that discards the
label.  So the history alone tells what is in it (`lookup_after_iff`): a name leads to the label for
which a granted request took it.

A lookup does not see a label that was discarded, but a registration does.  The two agree on a name
as long as the label that took it is alive, and no longer (`addLabel_agrees_iff`).

## Main statements

* `Command.keeps_labelled` — no request but a registration touches the tables of labels.
* `lookup_after_iff` — the tables, read off the history.
* `addLabel_agrees_iff` — when a name can be registered, and when this is when it is not found.
-/

set_option autoImplicit false
namespace SymbolTree

/-! ## Nodes with labels -/

/-- Kinds of nodes that may have labels: those with which labels are registered, and what such a
node can become. -/
def Kind.mayHaveLabels (k : Kind) : Bool := Arena.ownsLabels k || k = .unknown

theorem Kind.mayHaveLabels_iff {k : Kind} :
    k.mayHaveLabels = true ↔ k = .function ∨ k = .package ∨ k = .program ∨ k = .unknown := by
  simp [mayHaveLabels, Arena.ownsLabels, or_assoc]

/-- Two states of a node that have the same labels, and the kind for them if there are any. -/
structure Node.SameLabels (d e : Node) : Prop where
  /-- The labels are the same. -/
  labels : e.labels = d.labels
  /-- A node that may have labels still may. -/
  kind : d.kind.mayHaveLabels = true → e.kind.mayHaveLabels = true

theorem Node.SameLabels.of_eq {d e : Node} (hl : e.labels = d.labels) (hk : e.kind = d.kind) :
    d.SameLabels e :=
  ⟨hl, by rw [hk]; exact id⟩

/-- Of the conversions only the one to an unknown node applies to a node that may have labels. -/
theorem Conversion.eq_unknown_of_apply {c : Conversion} {d e : Node} (h : c.apply d = some e)
    (hd : d.kind.mayHaveLabels = true) : c = .unknown := by
  cases c with
  | unknown => rfl
  | _ =>
    rcases Kind.mayHaveLabels_iff.1 hd with hk | hk | hk | hk <;>
      simp [apply, Node.toAs?, Node.toBoolean?, Node.booleanKind, Node.toCall?, Node.toIdentifier?,
        Node.toInt64?, Node.integerValue?, Node.toFloat64?, Node.toLabel?, Node.toNumber?,
        Node.toText?, Node.textValue?, Node.toVidentifier?, Node.toVarAttributes?, hk] at h

theorem Conversion.sameLabels {c : Conversion} {d e : Node} (h : c.apply d = some e) :
    d.SameLabels e := by
  refine ⟨?_, fun hd => ?_⟩
  · obtain rfl | ⟨k, i, f, s, rfl⟩ := c.eq_of_apply h <;> rfl
  · rw [c.eq_unknown_of_apply h hd] at h
    cases h
    rfl

/-! ## Tables -/

namespace Arena

variable {a b : Arena} {n l : NodeId} {name : String} {T : NodeId → List (String × NodeId)}

/-- The labels registered with each node are those of `T`. -/
structure Labelled (T : NodeId → List (String × NodeId)) (a : Arena) : Prop where
  /-- Each node has its labels. -/
  labels : ∀ n, (a.node n).labels = T n
  /-- A node with labels is of a kind for them. -/
  kind : ∀ n, T n ≠ [] → (a.kind n).mayHaveLabels = true

namespace Labelled

theorem empty : Labelled (fun _ => []) {} := ⟨fun _ => rfl, fun _ h => absurd rfl h⟩

theorem of_nodes (h : Labelled T a) (hn : b.nodes = a.nodes) : Labelled T b := by
  have hnode : ∀ n, b.node n = a.node n := fun n => by rw [node, node, hn]
  refine ⟨fun n => ?_, fun n hne => ?_⟩
  · rw [hnode, h.labels]
  · rw [Arena.kind, hnode]
    exact h.kind n hne

theorem update (h : Labelled T a) {f : Node → Node} (hf : (a.node n).SameLabels (f (a.node n))) :
    Labelled T (a.update n f) := by
  refine ⟨fun m => ?_, fun m hne => ?_⟩
  · exact (field_update Node.labels hf.labels m).trans (h.labels m)
  · rw [kind_update]
    split
    · next hm => rw [hm.1]; exact hf.kind (h.kind n (hm.1 ▸ hne))
    · exact h.kind m hne

/-- A write that leaves the kind and the labels alone. -/
theorem fill (h : Labelled T a) {f : Node → Node}
    (hf : ∀ d : Node, (f d).labels = d.labels ∧ (f d).kind = d.kind) :
    Labelled T (a.update n f) :=
  h.update (.of_eq (hf _).1 (hf _).2)

theorem push (h : Labelled T a) {d : Node} (hd : d.labels = []) : Labelled T (a.push d).2 := by
  have hnew : ∀ m : NodeId, m.index = a.size → T m = [] := by
    intro m hm
    rw [← h.labels, node_of_size_le (Nat.le_of_eq hm.symm)]
    rfl
  refine ⟨fun m => ?_, fun m hne => ?_⟩
  · rw [node_push]
    split
    · next hm => rw [hd, hnew m hm]
    · exact h.labels m
  · rw [Arena.kind, node_push, if_neg fun hm => hne (hnew m hm)]
    exact h.kind m hne

/-- A literal has no labels that could be copied with it. -/
theorem cloneBasicNode (h : Labelled T a) {m : NodeId} (hb : a.cloneBasicNode n = .ok (m, b)) :
    Labelled T b := by
  simp only [Arena.cloneBasicNode] at hb
  split at hb
  · next hk =>
    obtain rfl : _ = b := congrArg Prod.snd (Except.ok.inj hb)
    refine h.push ?_
    by_contra hne
    have hmay := h.kind n fun hT => hne ((h.labels n).trans hT)
    rcases Kind.mayHaveLabels_iff.1 hmay with hk' | hk' | hk' | hk' <;>
      · rw [show (a.node n).kind = _ from hk'] at hk
        revert hk
        decide
  · cases hb

theorem detach (h : Labelled T a) (c : NodeId) : Labelled T (a.detach c) := by
  rw [Arena.detach]
  split
  · exact h
  · refine fill (fill h ?_) ?_ <;> exact fun _ => ⟨rfl, rfl⟩

theorem setParent (h : Labelled T a) {c : NodeId} {p : Option NodeId} {i : Option Nat}
    (hb : a.setParent c p i = .ok b) : Labelled T b := by
  obtain ⟨-, -, -, hb⟩ := setParent_eq_ok hb
  obtain ⟨-, -, rfl⟩ | ⟨-, -, -, rfl⟩ := relocate_eq_ok hb
  · exact h
  · cases p with
    | none => exact h.detach c
    | some q => refine fill (fill (h.detach c) ?_) ?_ <;> exact fun _ => ⟨rfl, rfl⟩

theorem setAttribute (h : Labelled T a) {t : Attribute} {v r : Bool}
    (hb : a.setAttribute n t v = .ok (r, b)) : Labelled T b := by
  obtain ⟨-, -, rfl | rfl⟩ := setAttribute_eq_ok hb
  · exact h
  · exact h.fill fun _ => ⟨rfl, rfl⟩

theorem setBoolean (h : Labelled T a) {v : Bool} (hb : a.setBoolean n v = .ok b) :
    Labelled T b := by
  obtain ⟨hk, -, rfl⟩ := setBoolean_eq_ok hb
  refine h.update ⟨rfl, fun hmay => ?_⟩
  rcases hk with hk | hk <;>
    · rw [show (a.node n).kind = _ from hk] at hmay
      cases hmay

theorem convert (h : Labelled T a) {c : Conversion} {r : Bool}
    (hb : a.convert n c.apply = .ok (r, b)) : Labelled T b := by
  obtain ⟨-, rfl | ⟨d, hd, rfl⟩⟩ := convert_eq_ok hb
  · exact h
  · exact h.update (c.sameLabels hd)

/-- A label that is discarded stays in the table. -/
theorem discard (h : Labelled T a) (hb : a.discard n = .ok b) : Labelled T b := by
  obtain ⟨-, rfl⟩ | ⟨-, -, -, rfl⟩ := discard_eq_ok hb
  · exact h
  · exact List.foldlRecOn _ _ h fun _ h _ _ => h.fill fun _ => ⟨rfl, rfl⟩

/-- A label that is registered is put at the end of the table. -/
theorem addLabel (h : Labelled T a) (hb : a.addLabel n l = .ok b) :
    Labelled (Function.update T n (T n ++ [((a.node l).text, l)])) b := by
  obtain ⟨-, hn, -, rfl⟩ := addLabel_eq_ok hb
  have hlt : n.index < a.size := lt_size_of_kind_ne fun hk => by rw [hk] at hn; cases hn
  refine ⟨fun m => ?_, fun m hne => ?_⟩
  · rw [node_update, Function.update_apply]
    split
    · next hm => rw [if_pos hm.1, hm.1, h.labels]
    · next hm => rw [if_neg fun he => hm ⟨he, hlt⟩, h.labels]
  · rw [kind_update]
    by_cases hm : m = n
    · rw [hm, if_pos ⟨rfl, hlt⟩, Kind.mayHaveLabels]
      exact Bool.or_eq_true_iff.2 (.inl hn)
    · rw [if_neg fun he => hm he.1]
      rw [Function.update_of_ne hm] at hne
      exact h.kind m hne

/-- A registration that is granted leaves what was registered, and one label more. -/
theorem lookup_addLabel (h : Labelled T a) (hb : a.addLabel n l = .ok b) {m k : NodeId} :
    (Function.update T n (T n ++ [((a.node l).text, l)]) m).lookup name = some k ↔
      (T m).lookup name = some k ∨ n = m ∧ l = k ∧ (a.node l).text = name := by
  have hnone : (T n).lookup (a.node l).text = none := h.labels n ▸ (addLabel_eq_ok hb).2.2.1
  rw [Function.update_apply]
  by_cases hm : m = n
  · subst hm
    rw [if_pos rfl, List.lookup_append, List.lookup_cons]
    by_cases hname : (a.node l).text = name
    · subst hname
      simp [hnone]
    · have hne : (name == (a.node l).text) = false :=
        beq_eq_false_iff_ne.2 fun he => hname he.symm
      simp [hne, hname]
  · rw [if_neg hm]
    exact (or_iff_left fun h => hm h.1.symm).symm

end Labelled

end Arena

/-! ## Step -/

open Arena in
/-- **No request but a registration touches the tables of labels**, granted or refused. -/
theorem Command.keeps_labelled {T : NodeId → List (String × NodeId)} (c : Command)
    (hc : ∀ n l, c ≠ .addLabel n l) : Keeps (Labelled T) c.run := by
  have hmove : ∀ {a b : Arena} {c p i}, Labelled T a → a.setParent c p i = .ok b →
      Labelled T b := fun h hb => h.setParent hb
  by_cases hv : c.writesValue = true
  · exact keeps_of_writesValue (fun _ _ _ hf h => h.fill fun d => ⟨(hf d).labels, (hf d).kind⟩) c hv
  open Edit in
  cases c with
  | create k p => exact Keeps.modify fun _ h => h.push rfl
  | createReplacement n k => exact Keeps.modify fun _ h => h.push rfl
  | cloneBasicNode n =>
    exact Keeps.bind (keeps_checked fun _ _ _ h hb => h.cloneBasicNode hb) fun _ => Keeps.pure
  | setParent c p i => exact keeps_change fun _ _ h hb => hmove h hb
  | appendChild p c => exact keeps_change fun _ _ h hb => hmove h hb
  | insertChild p i c => exact keeps_change fun _ _ h hb => hmove h hb
  | deleteChild p i => exact Keeps.bind (keeps_deleteChild hmove p i) fun _ => Keeps.pure
  | setChild p i c => exact Keeps.bind (keeps_setChild hmove p i c) fun _ => Keeps.pure
  | replaceWith n m => exact keeps_replaceWith hmove m fun _ _ _ h => h.of_nodes rfl
  | cleanTree n =>
    exact Keeps.get_bind fun _ _ => keeps_cleanTreeFrom hmove (fun h hb => h.discard hb) _ n
  | discard n => exact keeps_change fun _ _ h hb => h.discard hb
  | setFlag n f v =>
    refine keeps_change fun _ _ h hb => ?_
    obtain ⟨-, -, rfl⟩ := setFlag_eq_ok_iff.1 hb
    exact h.fill fun _ => ⟨rfl, rfl⟩
  | setAttribute n t v =>
    exact Keeps.bind (keeps_checked fun _ _ _ h hb => h.setAttribute hb) fun _ => Keeps.pure
  | setAttributeTree n t v =>
    exact Keeps.bind (keeps_setAttributeTree (fun h hb => h.setAttribute hb) n t v) fun _ =>
      Keeps.pure
  | setAttributeNode n m =>
    refine keeps_change fun _ _ h hb => ?_
    rw [setAttributeNode_eq_ok hb]
    exact h.fill fun _ => ⟨rfl, rfl⟩
  | setBoolean n v => exact keeps_change fun _ _ h hb => h.setBoolean hb
  | addLabel n l => exact absurd rfl (hc n l)
  | lock n => exact Keeps.modify fun _ h => h.of_nodes rfl
  | unlock n => exact keeps_change fun _ _ h hb => h.of_nodes (nodes_unlock hb)
  | convert n c =>
    exact Keeps.bind (keeps_checked fun _ _ _ h hb => h.convert hb) fun _ => Keeps.pure
  | _ => exact absurd rfl hv

/-! ## Run -/

/-- A granted request of the history registered the label `l` with `n`, under the name `s` that it
had at the time. -/
def Registered (history : List Command) (n : NodeId) (s : String) (l : NodeId) : Prop :=
  ∃ past, past ++ [.addLabel n l] <+: history ∧ (∃ b, (after past).addLabel n l = .ok b) ∧
    ((after past).node l).text = s

variable {history past : List Command} {n l m : NodeId} {s : String} {c : Command}

theorem not_registered_nil : ¬ Registered [] n s l := by
  rintro ⟨past, hpast, -⟩
  exact List.append_ne_nil_of_right_ne_nil past (List.cons_ne_nil _ _) (List.prefix_nil.1 hpast)

theorem registered_append_singleton : Registered (past ++ [c]) n s l ↔ Registered past n s l ∨
    c = .addLabel n l ∧ (∃ b, (after past).addLabel n l = .ok b) ∧
      ((after past).node l).text = s := by
  constructor
  · rintro ⟨earlier, hearlier, hgranted⟩
    rcases List.prefix_concat_iff.1 hearlier with heq | hpre
    · obtain ⟨rfl, hc⟩ := List.append_inj' heq rfl
      exact .inr ⟨(List.singleton_inj.1 hc).symm, hgranted⟩
    · exact .inl ⟨earlier, hpre, hgranted⟩
  · rintro (⟨earlier, hpre, hgranted⟩ | ⟨rfl, hgranted⟩)
    · exact ⟨earlier, hpre.trans (List.prefix_append past [c]), hgranted⟩
    · exact ⟨past, List.prefix_rfl, hgranted⟩

/-- The tables of labels after a history, with what is in them. -/
theorem labelled_after (history : List Command) : ∃ T, Arena.Labelled T (after history) ∧
    ∀ n s l, (T n).lookup s = some l ↔ Registered history n s l := by
  induction history using List.reverseRecOn with
  | nil =>
    exact ⟨_, .empty, fun n s l => iff_of_false (by simp) not_registered_nil⟩
  | append_singleton past c ih =>
    obtain ⟨T, hT, hlookup⟩ := ih
    simp only [after_append, registered_append_singleton, ← hlookup]
    by_cases hc : ∃ n l, c = .addLabel n l
    · obtain ⟨n, l, rfl⟩ := hc
      have hexec : ((Command.addLabel n l).run.exec (after past)).2
          = ((Edit.change (·.addLabel n l)).exec (after past)).2 := rfl
      rw [hexec, Edit.exec_change]
      cases hb : (after past).addLabel n l with
      | error e =>
        refine ⟨T, hT, fun m s k => (or_iff_left ?_).symm⟩
        rintro ⟨heq, ⟨b, hb'⟩, -⟩
        cases heq
        rw [hb] at hb'
        cases hb'
      | ok b =>
        refine ⟨_, hT.addLabel hb, fun m s k => ?_⟩
        rw [hT.lookup_addLabel hb]
        refine or_congr_right ⟨?_, ?_⟩
        · rintro ⟨rfl, rfl, hs⟩
          exact ⟨rfl, ⟨b, hb⟩, hs⟩
        · rintro ⟨heq, -, hs⟩
          cases heq
          exact ⟨rfl, rfl, hs⟩
    · refine ⟨T, (c.keeps_labelled fun n l he => hc ⟨n, l, he⟩).state hT, fun m s k => ?_⟩
      exact (or_iff_left fun h => hc ⟨m, k, h.1⟩).symm

/-- **What a name leads to is the label for which it was taken**, in every arena that can be
reached. -/
theorem lookup_after_iff (history : List Command) (n : NodeId) (s : String) (l : NodeId) :
    ((after history).node n).labels.lookup s = some l ↔ Registered history n s l := by
  obtain ⟨T, hT, hlookup⟩ := labelled_after history
  rw [hT.labels, hlookup]

/-! ## Registering and finding -/

namespace Arena

variable {a : Arena} {n l : NodeId} {name : String}

/-- Where no label that is registered was discarded, what is found is what is registered. -/
theorem findLabel_eq_lookup (halive : ∀ l ∈ (a.node n).labels, a.isAlive l.2 = true)
    (name : String) : a.findLabel n name = (a.node n).labels.lookup name := by
  rw [findLabel, live]
  cases hl : (a.node n).labels.lookup name with
  | none => rfl
  | some l =>
    obtain ⟨front, back, hlabels, -⟩ := List.lookup_eq_some_iff.1 hl
    have hmem : (name, l) ∈ (a.node n).labels :=
      hlabels ▸ List.mem_append_right _ List.mem_cons_self
    rw [Option.filter_some, if_pos (halive (name, l) hmem)]

theorem addLabel_of_lookup_eq_none (hl : a.kind l = .label) (hn : ownsLabels (a.kind n) = true)
    (htext : (a.node l).text ≠ "") (h : (a.node n).labels.lookup (a.node l).text = none) :
    a.addLabel n l = .ok (a.update n fun d =>
      { d with labels := d.labels ++ [((a.node l).text, l)] }) := by
  have hempty : (a.node l).text.isEmpty = false := by
    rwa [Bool.eq_false_iff, ne_eq, String.isEmpty_iff]
  rw [addLabel, hl, hn, if_neg (by decide)]
  dsimp only
  rw [h, hempty]
  rfl

/-- A label with a name is registered if and only if the name is not in the table. -/
theorem exists_addLabel_iff (hl : a.kind l = .label) (hn : ownsLabels (a.kind n) = true)
    (htext : (a.node l).text ≠ "") :
    (∃ b, a.addLabel n l = .ok b) ↔ (a.node n).labels.lookup (a.node l).text = none :=
  ⟨fun ⟨_, hb⟩ => (addLabel_eq_ok hb).2.2.1,
    fun h => ⟨_, addLabel_of_lookup_eq_none hl hn htext h⟩⟩

/-- No label is found under a name if and only if none was registered under it that is alive. -/
theorem findLabel_eq_none_iff : a.findLabel n name = none ↔
    ∀ l, (a.node n).labels.lookup name = some l → a.isAlive l = false := by
  rw [findLabel, live, Option.filter_eq_none_iff]
  simp only [Bool.not_eq_true]

end Arena

/-- **A name can be registered as long as no label ever was registered under it.**  Whether that
label is still there makes no difference.  So this is the same as finding no label under the name if
and only if the label that was registered under it, if any, was not discarded. -/
theorem addLabel_agrees_iff (history : List Command) (n l : NodeId)
    (hn : Arena.ownsLabels ((after history).kind n) = true) (hl : (after history).kind l = .label)
    (hname : ((after history).node l).text ≠ "") :
    ((∃ b, (after history).addLabel n l = .ok b) ↔
      ∀ m, ¬ Registered history n ((after history).node l).text m) ∧
    (((∃ b, (after history).addLabel n l = .ok b) ↔
        (after history).findLabel n ((after history).node l).text = none) ↔
      ∀ m, Registered history n ((after history).node l).text m →
        (after history).isAlive m = true) := by
  have hgranted := Arena.exists_addLabel_iff hl hn hname
  rw [Option.eq_none_iff_forall_ne_some] at hgranted
  simp only [ne_eq, lookup_after_iff] at hgranted
  refine ⟨hgranted, ?_⟩
  rw [hgranted, Arena.findLabel_eq_none_iff]
  simp only [lookup_after_iff]
  constructor
  · intro hagree m hm
    by_contra hdead
    rw [Bool.not_eq_true] at hdead
    -- there is one label of the name, and it is dead
    refine hagree.2 (fun k hk => ?_) m hm
    rw [← lookup_after_iff] at hm hk
    obtain rfl := Option.some.inj (hm.symm.trans hk)
    exact hdead
  · refine fun halive => ⟨fun hnone m hm => absurd hm (hnone m), fun hdead m hm => ?_⟩
    exact absurd (halive m hm) (by rw [hdead m hm]; decide)

/-- Two labels of one name, the first of which is registered with a function. -/
def labelHistory : List Command :=
  [.create .function {}, .create .label {}, .create .label {}, .setText ⟨1⟩ "again",
   .setText ⟨2⟩ "again", .addLabel ⟨0⟩ ⟨1⟩]

/-- The name of a label that is there is taken, and is found. -/
theorem addLabel_agrees_iff_taken :
    Arena.ownsLabels ((after labelHistory).kind ⟨0⟩) = true ∧
      (after labelHistory).kind ⟨2⟩ = .label ∧ ((after labelHistory).node ⟨2⟩).text ≠ "" ∧
      Registered labelHistory ⟨0⟩ "again" ⟨1⟩ ∧
      (¬ ∃ b, (after labelHistory).addLabel ⟨0⟩ ⟨2⟩ = .ok b) ∧
      (after labelHistory).findLabel ⟨0⟩ "again" ≠ none := by
  have hn : Arena.ownsLabels ((after labelHistory).kind ⟨0⟩) = true := by decide +kernel
  have hl : (after labelHistory).kind ⟨2⟩ = .label := by decide +kernel
  have htext : ((after labelHistory).node ⟨2⟩).text = "again" := by decide +kernel
  have hname : ((after labelHistory).node ⟨2⟩).text ≠ "" := by rw [htext]; decide
  have hlookup : ((after labelHistory).node ⟨0⟩).labels.lookup "again" = some ⟨1⟩ := by
    decide +kernel
  have halive : (after labelHistory).isAlive ⟨1⟩ = true := by decide +kernel
  have hregistered := (lookup_after_iff labelHistory ⟨0⟩ "again" ⟨1⟩).1 hlookup
  obtain ⟨hgranted, hagree⟩ := addLabel_agrees_iff labelHistory ⟨0⟩ ⟨2⟩ hn hl hname
  rw [htext] at hgranted hagree
  have hrefused := mt hgranted.1 fun hnone => hnone _ hregistered
  refine ⟨hn, hl, hname, hregistered, hrefused, mt (hagree.2 fun m hm => ?_).2 hrefused⟩
  rw [← lookup_after_iff, hlookup] at hm
  obtain rfl := Option.some.inj hm
  exact halive

/-- The same, and then the label that is registered is discarded. -/
def discardedHistory : List Command := labelHistory ++ [.discard ⟨1⟩]

/-- The name of a label that was discarded stays taken, and is not found. -/
theorem discarded_label_takes_name :
    Arena.ownsLabels ((after discardedHistory).kind ⟨0⟩) = true ∧
      (after discardedHistory).kind ⟨2⟩ = .label ∧ (after discardedHistory).isAlive ⟨2⟩ = true ∧
      ((after discardedHistory).node ⟨2⟩).text = "again" ∧
      (after discardedHistory).findLabel ⟨0⟩ "again" = none ∧
      ¬ ∃ b, (after discardedHistory).addLabel ⟨0⟩ ⟨2⟩ = .ok b := by
  have hrefused : ((after discardedHistory).addLabel ⟨0⟩ ⟨2⟩).toOption.isNone = true := by
    decide +kernel
  refine ⟨by decide +kernel, by decide +kernel, by decide +kernel, by decide +kernel,
    by decide +kernel, ?_⟩
  rintro ⟨b, hb⟩
  rw [hb] at hrefused
  cases hrefused

end SymbolTree
