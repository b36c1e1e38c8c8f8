import Mathlib.Logic.Function.Iterate
import SymbolTree.Proofs.Json.Uncommented

/-!
# What is left of a text without its comments

Comments are taken out in one walk through the text.  `Comment.Progress` is how far the walk has
come, and `Comment.Progress.next` what it does with the next token: a comment mark, a character that
was escaped together with its backslash, or any other character.

A line break is written when it is read, whatever it stands in, so that after each token as many
lines have been written as were read (`Comment.Progress.Sound`): what is left is on its line.

A slash that was left is followed by what followed it in the text, since a comment cannot begin
right behind a slash that does not begin one itself.  Hence what is left holds no comment, and
taking comments out once more changes nothing (`Comment.stripFrom_stripFrom`).

## Main statements

* `Comment.Progress.sound_iterate` — the walk, after any number of tokens.
* `Comment.stripFrom_stripFrom` — the second time nothing changes.
* `Comment.stripFrom_eq_self_iff` — which texts are left as they are.
* `Comment.strip_lineExact` — all of it for a text.
-/

set_option autoImplicit false
namespace SymbolTree.Comment

/-! ## One token at a time -/

/-- How far a text was gone through. -/
structure Progress where
  /-- What has been read. -/
  read : List Char
  /-- What has been written. -/
  written : List Char
  /-- What the text so far has led into. -/
  mode : Mode
  /-- What is still to be read. -/
  rest : List Char

namespace Progress

/-- Nothing has been read yet. -/
def start (text : List Char) : Progress := ⟨[], [], .plain, text⟩

/-- A token was read, `left` is what is left of it, and the walk goes on in `mode`. -/
def pass (p : Progress) (token left : List Char) (mode : Mode) (rest : List Char) : Progress :=
  ⟨p.read ++ token, p.written ++ left, mode, rest⟩

/-- The next token is read, if there is one. -/
def next (p : Progress) : Progress :=
  match p.mode, p.rest with
  | _, [] => p
  | .plain, '/' :: '/' :: cs => p.pass [ '/', '/'] [] .line cs
  | .plain, '/' :: '*' :: cs => p.pass [ '/', '*'] [ ' ', ' '] (.block '\x00') cs
  | .plain, c :: cs => p.pass [c] [c] (if c = '"' then .quoted else .plain) cs
  | .quoted, '\\' :: e :: cs => p.pass [ '\\', e] [ '\\', e] .quoted cs
  | .quoted, c :: cs => p.pass [c] [c] (if c = '"' then .plain else .quoted) cs
  | .line, c :: cs =>
      if c = '\n' then p.pass [c] [ '\n'] .plain cs else p.pass [c] [] .line cs
  | .block q, c :: cs =>
      p.pass [c] [if c = '\n' then '\n' else ' ']
        (if q = '*' && c = '/' then .plain else .block c) cs

/-- The walk through the text has come as far as it should: nothing was skipped, what will be left
is what has been written and what will be left of the rest, and as many lines were written as were
read. -/
structure Sound (text : List Char) (p : Progress) : Prop where
  /-- Nothing was skipped. -/
  parts : p.read ++ p.rest = text
  /-- What has been written stays. -/
  result : stripFrom .plain text = p.written ++ stripFrom p.mode p.rest
  /-- As many lines were written as were read. -/
  lines : p.written.count '\n' = p.read.count '\n'

variable {text : List Char} {p : Progress}

theorem sound_start (text : List Char) : (start text).Sound text := ⟨rfl, rfl, rfl⟩

theorem Sound.pass (h : p.Sound text) {token left rest : List Char} {mode : Mode}
    (hrest : p.rest = token ++ rest)
    (hstrip : stripFrom p.mode p.rest = left ++ stripFrom mode rest)
    (hlines : left.count '\n' = token.count '\n') : (p.pass token left mode rest).Sound text where
  parts := by rw [← h.parts, hrest, Progress.pass, List.append_assoc]
  result := by rw [h.result, hstrip, Progress.pass, List.append_assoc]
  lines := by rw [Progress.pass, List.count_append, List.count_append, h.lines, hlines]

/-- **Each token leaves as many line breaks as it has.** -/
theorem Sound.next (h : p.Sound text) : p.next.Sound text := by
  obtain ⟨read, written, mode, rest⟩ := p
  rw [Progress.next.eq_def]
  dsimp only
  split
  · exact h
  · exact h.pass rfl rfl rfl
  · exact h.pass rfl rfl rfl
  · next c cs hline hblock =>
    refine h.pass rfl ?_ rfl
    rw [stripFrom]
    · rfl
    · exact hline
    · exact hblock
  · exact h.pass rfl rfl rfl
  · next c cs hescape =>
    refine h.pass rfl ?_ rfl
    rw [stripFrom]
    · rfl
    · exact hescape
  · next c cs =>
    split
    · next hc => exact h.pass rfl (by rw [stripFrom, if_pos hc]; rfl) (by rw [hc])
    · next hc =>
      exact h.pass rfl (by rw [stripFrom, if_neg hc]; rfl) (by simp [List.count_cons_of_ne hc])
  · next q c cs =>
    refine h.pass rfl (by rw [stripFrom]; rfl) ?_
    by_cases hc : c = '\n'
    · rw [hc, if_pos rfl]
    · rw [if_neg hc, List.count_cons_of_ne hc, List.count_cons_of_ne (by decide)]

theorem sound_iterate (text : List Char) (k : Nat) : (next^[k] (start text)).Sound text := by
  induction k with
  | zero => exact sound_start text
  | succ k ih =>
    rw [Function.iterate_succ_apply']
    exact ih.next

/-- As long as something is left to be read, a token is. -/
theorem length_rest_next (p : Progress) : p.next.rest.length ≤ p.rest.length - 1 := by
  obtain ⟨read, written, mode, rest⟩ := p
  rw [next.eq_def]
  dsimp only
  split
  · exact Nat.zero_le _
  · simp [pass]
  · simp [pass]
  · simp [pass]
  · simp [pass]
  · simp [pass]
  · split <;> simp [pass]
  · simp [pass]

/-- The walk comes to the end of the text. -/
theorem rest_iterate (text : List Char) : (next^[text.length] (start text)).rest = [] := by
  have hlength : ∀ k, (next^[k] (start text)).rest.length ≤ text.length - k := by
    intro k
    induction k with
    | zero => exact Nat.le_refl _
    | succ k ih =>
      rw [Function.iterate_succ_apply']
      have := length_rest_next (next^[k] (start text))
      omega
  have := hlength text.length
  rw [Nat.sub_self] at this
  exact List.length_eq_zero_iff.1 (Nat.le_zero.1 this)

end Progress

/-- Every line break stays. -/
theorem count_stripFrom (text : List Char) :
    (stripFrom .plain text).count '\n' = text.count '\n' := by
  have h := Progress.sound_iterate text text.length
  have hrest := Progress.rest_iterate text
  have hread := h.parts
  have hwritten := h.result
  rw [hrest, List.append_nil] at hread
  rw [hrest, stripFrom, List.append_nil] at hwritten
  rw [hwritten, h.lines, hread]

/-! ## The second time -/

/-- What a text leads into that is left behind comments. -/
def Mode.outside : Mode → Mode
  | .quoted => .quoted
  | _ => .plain

/-- A slash that begins no comment. -/
theorem stripFrom_slash {cs : List Char} (h : ∀ c ∈ cs.head?, c ≠ '/' ∧ c ≠ '*') :
    stripFrom .plain ('/' :: cs) = '/' :: stripFrom .plain cs := by
  rw [stripFrom, if_neg (by decide)]
  · rintro ds - rfl
    exact (h '/' rfl).1 rfl
  · rintro ds - rfl
    exact (h '*' rfl).2 rfl

/-- What begins no comment is left in the first place. -/
theorem head?_stripFrom {cs : List Char} (h : ∀ c ∈ cs.head?, c ≠ '/' ∧ c ≠ '*') :
    (stripFrom .plain cs).head? = cs.head? := by
  cases cs with
  | nil => rfl
  | cons c cs =>
    rw [stripFrom]
    · rfl
    · rintro _ rfl -
      exact (h '/' rfl).1 rfl
    · rintro _ rfl -
      exact (h '/' rfl).1 rfl

/-- A character outside strings and comments, after comments were taken out behind it. -/
theorem stripFrom_plain_cons {c : Char} {cs ds : List Char}
    (hline : ∀ es, c = '/' → cs = '/' :: es → False)
    (hblock : ∀ es, c = '/' → cs = '*' :: es → False)
    (hds : c = '/' → ds = stripFrom .plain cs) :
    stripFrom .plain (c :: ds) = c :: stripFrom (if c = '"' then .quoted else .plain) ds := by
  by_cases hc : c = '/'
  · subst hc
    obtain rfl := hds rfl
    have hhead : ∀ c ∈ cs.head?, c ≠ '/' ∧ c ≠ '*' := by
      intro c hc
      obtain ⟨es, rfl⟩ := List.head?_eq_some_iff.1 hc
      exact ⟨fun e => hline es rfl (e ▸ rfl), fun e => hblock es rfl (e ▸ rfl)⟩
    rw [stripFrom_slash (by rwa [head?_stripFrom hhead]), if_neg (by decide)]
  · rw [stripFrom]
    · exact fun _ h => absurd h hc
    · exact fun _ h => absurd h hc

/-- **What is left holds no comment.** -/
theorem stripFrom_stripFrom (m : Mode) (text : List Char) :
    stripFrom m.outside (stripFrom m text) = stripFrom m text := by
  induction m, text using stripFrom.induct with
  | case1 m => cases m <;> rfl
  | case2 cs ih => rw [stripFrom]; exact ih
  | case3 cs ih =>
    change stripFrom .plain (stripFrom .plain ('/' :: '*' :: cs)) = _
    rw [stripFrom, stripFrom_plain (by decide), stripFrom_plain (by decide)]
    exact congrArg (fun ds => ' ' :: ' ' :: ds) ih
  | case4 c cs hline hblock ih =>
    change stripFrom .plain (stripFrom .plain (c :: cs)) = _
    rw [stripFrom.eq_4 c cs hline hblock]
    by_cases hc : c = '"'
    · subst hc
      rw [if_pos rfl] at ih ⊢
      rw [stripFrom_plain_cons hline hblock fun h => absurd h (by decide), if_pos rfl]
      exact congrArg _ ih
    · rw [if_neg hc] at ih ⊢
      rw [stripFrom_plain_cons hline hblock fun _ => rfl, if_neg hc]
      exact congrArg _ ih
  | case5 e cs ih =>
    change stripFrom .quoted (stripFrom .quoted ('\\' :: e :: cs)) = _
    rw [stripFrom, stripFrom]
    exact congrArg (fun ds => '\\' :: e :: ds) ih
  | case6 c cs hescape ih =>
    change stripFrom .quoted (stripFrom .quoted (c :: cs)) = _
    rw [stripFrom.eq_6 c cs hescape]
    by_cases hc : c = '\\'
    · -- nothing follows the backslash
      subst hc
      cases cs with
      | nil => rfl
      | cons e es => exact absurd rfl (hescape e es rfl)
    · rw [stripFrom.eq_6 _ _ fun _ _ h => absurd h hc]
      refine congrArg _ ?_
      split at ih
      · next h => rw [if_pos h]; exact ih
      · next h => rw [if_neg h]; exact ih
  | case7 cs ih =>
    change stripFrom .plain (stripFrom .line ('\n' :: cs)) = _
    rw [stripFrom, if_pos rfl, stripFrom_plain (by decide)]
    exact congrArg _ ih
  | case8 c cs hc ih =>
    rw [stripFrom, if_neg hc]
    exact ih
  | case9 q c cs ih =>
    have hblank : (if c = '\n' then '\n' else ' ') ≠ '"' ∧
        (if c = '\n' then '\n' else ' ') ≠ '/' := by
      split <;> decide
    change stripFrom .plain (stripFrom (.block q) (c :: cs)) = _
    rw [stripFrom, stripFrom_plain hblank]
    refine congrArg _ ?_
    split at ih
    · next h => rw [if_pos h]; exact ih
    · next h => rw [if_neg h]; exact ih

/-! ## Texts without comments -/

/-- A string is open at the end of the text, given whether one was open before it.  A backslash
inside a string takes the next character along. -/
def isOpen : Bool → List Char → Bool
  | within, [] => within
  | true, '\\' :: _ :: cs => isOpen true cs
  | within, c :: cs => isOpen (if c = '"' then !within else within) cs

/-- Where two characters stand that could begin a comment, a string is open. -/
def Uncommented (within : Bool) (text : List Char) : Prop :=
  ∀ before c after, text = before ++ '/' :: c :: after → c = '/' ∨ c = '*' →
    isOpen within before = true

theorem not_uncommented {c : Char} (hc : c = '/' ∨ c = '*') (cs : List Char) :
    ¬ Uncommented false ('/' :: c :: cs) := fun h => by
  cases h [] c cs rfl hc

/-- Nothing begins a comment with the first character, and the rest goes on with `after`. -/
theorem uncommented_cons {within after : Bool} {c : Char} {cs : List Char}
    (hfront : within = true ∨ ∀ d ds, c = '/' → cs = d :: ds → ¬ (d = '/' ∨ d = '*'))
    (hopen : ∀ front back, cs = front ++ back → isOpen within (c :: front) = isOpen after front) :
    Uncommented within (c :: cs) ↔ Uncommented after cs := by
  constructor
  · rintro h front d back rfl hd
    rw [← hopen front ('/' :: d :: back) rfl]
    exact h (c :: front) d back rfl hd
  · rintro h (_ | ⟨b, front⟩) d back hcs hd
    · obtain ⟨rfl, rfl⟩ := List.cons.inj hcs
      rcases hfront with rfl | hfront
      · rfl
      · exact absurd hd (hfront d back rfl rfl)
    · obtain ⟨rfl, rfl⟩ := List.cons.inj hcs
      rw [hopen front ('/' :: d :: back) rfl]
      exact h front d back rfl hd

/-- A character that was escaped neither begins a comment nor ends a string. -/
theorem uncommented_escape (e : Char) (cs : List Char) :
    Uncommented true ('\\' :: e :: cs) ↔ Uncommented true cs := by
  constructor
  · rintro h front d back rfl hd
    exact h ('\\' :: e :: front) d back rfl hd
  · rintro h (_ | ⟨b, _ | ⟨b', front⟩⟩) d back hcs hd
    · rfl
    · obtain ⟨rfl, -⟩ := List.cons.inj hcs
      rfl
    · obtain ⟨hb, htail⟩ := List.cons.inj hcs
      obtain ⟨-, hback⟩ := List.cons.inj htail
      rw [← hb, isOpen]
      exact h front d back hback hd

theorem length_stripFrom_le (m : Mode) (text : List Char) :
    (stripFrom m text).length ≤ text.length := by
  induction m, text using stripFrom.induct with
  | case1 m => cases m <;> exact Nat.le_refl _
  | case2 cs ih => rw [stripFrom, List.length_cons, List.length_cons]; omega
  | case3 cs ih => simpa [stripFrom] using ih
  | case4 c cs hline hblock ih => simpa [stripFrom.eq_4 c cs hline hblock] using ih
  | case5 e cs ih => simpa [stripFrom] using ih
  | case6 c cs hescape ih => simpa [stripFrom.eq_6 c cs hescape] using ih
  | case7 cs ih => simpa [stripFrom] using ih
  | case8 c cs hc ih => rw [stripFrom, if_neg hc, List.length_cons]; omega
  | case9 q c cs ih => simpa [stripFrom] using ih

/-- **A text is left as it is if and only if no comment begins in it.** -/
theorem stripFrom_eq_self_iff (within : Bool) (text : List Char) :
    stripFrom (if within then .quoted else .plain) text = text ↔ Uncommented within text := by
  generalize hm : (if within = true then Mode.quoted else .plain) = m
  induction m, text using stripFrom.induct generalizing within with
  | case1 m =>
    refine iff_of_true (by cases m <;> rfl) fun front c back h => ?_
    exact absurd h (by simp)
  | case2 cs =>
    obtain rfl : within = false := by cases within <;> simp_all
    refine iff_of_false (fun h => ?_) (not_uncommented (.inl rfl) cs)
    have hlength := congrArg List.length h
    have hle := length_stripFrom_le .line cs
    rw [stripFrom, List.length_cons, List.length_cons] at hlength
    omega
  | case3 cs =>
    obtain rfl : within = false := by cases within <;> simp_all
    refine iff_of_false (fun h => ?_) (not_uncommented (.inr rfl) cs)
    rw [stripFrom] at h
    exact absurd (List.cons.inj h).1 (by decide)
  | case4 c cs hline hblock ih =>
    obtain rfl : within = false := by cases within <;> simp_all
    have hfront : ∀ d ds, c = '/' → cs = d :: ds → ¬ (d = '/' ∨ d = '*') := by
      rintro d ds hc hcs (rfl | rfl)
      · exact hline ds hc hcs
      · exact hblock ds hc hcs
    rw [stripFrom.eq_4 c cs hline hblock, List.cons_inj_right,
      ih (decide (c = '"')) (by simp), uncommented_cons (.inr hfront) fun front back _ => ?_]
    by_cases hc : c = '"' <;> simp [isOpen, hc]
  | case5 e cs ih =>
    obtain rfl : within = true := by cases within <;> simp_all
    rw [stripFrom, List.cons_inj_right, List.cons_inj_right, ih true rfl, uncommented_escape]
  | case6 c cs hescape ih =>
    obtain rfl : within = true := by cases within <;> simp_all
    rw [stripFrom.eq_6 c cs hescape, List.cons_inj_right, ih (decide (c ≠ '"')) (by simp),
      uncommented_cons (.inl rfl) fun front back hcs => ?_]
    rw [isOpen]
    · by_cases hc : c = '"' <;> simp [hc]
    · rintro e front' - hc rfl
      exact hescape e _ hc hcs
  | case7 cs => cases within <;> simp at hm
  | case8 c cs => cases within <;> simp at hm
  | case9 q c cs => cases within <;> simp at hm

/-! ## Texts -/

/-- **Taking comments out keeps every line and is done once and for all.**  As many line breaks are
left as there were, and after any number of tokens as many have been written as were read; what is
left holds no comment; and a text is left as it is if and only if nothing begins a comment outside
its strings. -/
theorem strip_lineExact (s : String) :
    (strip s).toList.count '\n' = s.toList.count '\n' ∧
      (∀ k, (Progress.next^[k] (.start s.toList)).Sound s.toList) ∧
      (Progress.next^[s.length] (.start s.toList)).rest = [] ∧
      strip (strip s) = strip s ∧
      (strip s = s ↔ Uncommented false s.toList) := by
  have hlist : (strip s).toList = stripFrom .plain s.toList := String.toList_ofList
  refine ⟨?_, Progress.sound_iterate _, ?_, ?_, ?_⟩
  · rw [hlist, count_stripFrom]
  · exact Progress.rest_iterate s.toList
  · rw [strip, hlist]
    exact congrArg String.ofList (stripFrom_stripFrom .plain s.toList)
  · rw [← stripFrom_eq_self_iff, ← String.toList_inj, hlist]
    rfl

/-- The star of a comment mark does not end the comment, a comment may hold a quote, and in a string
that is not closed nothing begins a comment. -/
example : strip "1 /*/ \" */ \"// \\\" /*" = "1          \"// \\\" /*" := by decide +kernel

end SymbolTree.Comment
