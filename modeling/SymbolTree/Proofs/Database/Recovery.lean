import SymbolTree.Proofs.Database
import SymbolTree.Proofs.Json.Ordered

/-!
# What is kept of a faulty database

The three loops that read a database treat a fault in three ways.  A known field of the wrong type
is left at its default, a member of a package that is no object is left out, and a member of the
document that is no object ends the reading.  Each of them is reported once.

Since the members of a document stand in the order of their names (`Json.ordered_parseWithComments`),
what is read before the end is told by names alone: a member is reached if no member up to it is at
fault (`Database.Reaches`).  So what is kept (`Database.recovered`) and how much is reported
(`Database.faultCount`) are functions of the document that do not mention the reading.

## Main statements

* `Element.ofMembers_eq`, `Package.ofMembers_eq`, `Database.packagesOfMembers_eq` — what the loops
  keep.
* `Database.amount_ofDocument` — how much they report.
* `Database.load_recovers` — the file.
-/

set_option autoImplicit false
namespace SymbolTree

open Dictionary (Sorted)

namespace Json

/-- The document is an object. -/
def isObject (v : Json) : Bool := v.members?.isSome

/-- The members of an object; no other document has any. -/
def members (v : Json) : List (String × Json) := v.members?.getD []

theorem members?_of_isObject {v : Json} (h : v.isObject = true) : v.members? = some v.members := by
  cases v with
  | object ms => rfl
  | _ => cases h

theorem members?_of_not_isObject {v : Json} (h : v.isObject = false) : v.members? = none :=
  Option.isSome_eq_false_iff.1 h |> Option.isNone_iff_eq_none.1

theorem members_of_not_isObject {v : Json} (h : v.isObject = false) : v.members = [] := by
  rw [members, members?_of_not_isObject h, Option.getD_none]

theorem Ordered.sorted_members {v : Json} (h : Ordered v) : Sorted v.members := by
  cases h with
  | object hsorted _ => exact hsorted
  | _ => exact List.Pairwise.nil

theorem Ordered.member_members {v : Json} (h : Ordered v) {m : String × Json}
    (hm : m ∈ v.members) : Ordered m.2 := by
  cases h with
  | object _ h => exact h m hm
  | _ => cases hm

end Json

namespace Dictionary

variable {α : Type} {d : Dictionary α} {k : String} {v : α}

/-- The last of the entries in order has a name that no entry before it has. -/
theorem Sorted.find?_append (h : Sorted (d ++ [(k, v)])) : find? d k = none := by
  cases hfind : find? d k with
  | none => rfl
  | some w =>
    have hlt := (List.pairwise_append.1 h).2.2 _ (mem_of_find? hfind) _ List.mem_cons_self
    exact absurd hlt (String.lt_irrefl k)

end Dictionary

/-- There are so many texts, and each of them says something. -/
structure Amount (n : Nat) (texts : List String) : Prop where
  /-- Their number. -/
  length : texts.length = n
  /-- None of them is empty. -/
  spoken : ∀ text ∈ texts, text.isEmpty = false

theorem Amount.nil : Amount 0 [] := ⟨rfl, List.forall_mem_nil _⟩

theorem Amount.append {m n : Nat} {before behind : List String} (h : Amount m before)
    (h' : Amount n behind) : Amount (m + n) (before ++ behind) where
  length := by rw [List.length_append, h.length, h'.length]
  spoken := List.forall_mem_append.2 ⟨h.spoken, h'.spoken⟩

/-! ## An element -/

namespace Element

/-- The element that fields describe.  What they do not say, or say with a value of the wrong type,
is left at its default. -/
def recovered (fields : Dictionary Json) : Element where
  type := ((Dictionary.find? fields "type").bind Json.text?).getD ""
  filename := ((Dictionary.find? fields "filename").bind Json.text?).getD ""
  line := ((Dictionary.find? fields "line").bind Json.integer?).getD 1

/-- A known field with a value of the wrong type. -/
def isFault (field : String × Json) : Bool :=
  (field.1 = "type" || field.1 = "filename") && field.2.text?.isNone
    || field.1 = "line" && field.2.integer?.isNone

/-- What the last field of a document adds to an element. -/
theorem ofMembers_concat (fields : List (String × Json)) (field : String) (value : Json) :
    ofMembers (fields ++ [(field, value)]) = match (ofMembers fields).1.setField field value with
      | some e => (e, (ofMembers fields).2)
      | none => ((ofMembers fields).1, (ofMembers fields).2 ++ (fieldFault field).toList) := by
  rw [ofMembers, List.foldl_append]
  rfl

/-- A new field is taken over unless it is at fault. -/
theorem recovered_insert {fields : Dictionary Json} {field : String} {value : Json}
    (hnew : Dictionary.find? fields field = none) :
    recovered (Dictionary.insert fields field value)
      = ((recovered fields).setField field value).getD (recovered fields) := by
  by_cases htype : field = "type"
  · subst htype
    cases hv : value.text? <;> simp [recovered, setField, Dictionary.find?_insert, hnew, hv]
  by_cases hfilename : field = "filename"
  · subst hfilename
    cases hv : value.text? <;> simp [recovered, setField, Dictionary.find?_insert, hnew, hv]
  by_cases hline : field = "line"
  · subst hline
    cases hv : value.integer? <;> simp [recovered, setField, Dictionary.find?_insert, hnew, hv]
  · simp [recovered, setField, Dictionary.find?_insert, htype, hfilename, hline, Ne.symm]

/-- A field is taken over unless it is at fault. -/
theorem setField_eq_none_iff {e : Element} {field : String} {value : Json} :
    e.setField field value = none ↔ isFault (field, value) = true := by
  by_cases htype : field = "type"
  · subst htype
    simp [setField, isFault]
  by_cases hfilename : field = "filename"
  · subst hfilename
    simp [setField, isFault]
  by_cases hline : field = "line"
  · subst hline
    simp [setField, isFault]
  · simp [setField, isFault, htype, hfilename, hline]

/-- A field that is at fault is reported once. -/
theorem amount_fieldFault {field : String × Json} (h : isFault field = true) :
    Amount 1 (fieldFault field.1).toList := by
  obtain ⟨field, value⟩ := field
  by_cases htype : field = "type"
  · subst htype
    exact ⟨rfl, by simp [fieldFault]⟩
  by_cases hfilename : field = "filename"
  · subst hfilename
    exact ⟨rfl, by simp [fieldFault]⟩
  by_cases hline : field = "line"
  · subst hline
    exact ⟨rfl, by simp [fieldFault]⟩
  · simp [isFault, htype, hfilename, hline] at h

/-- **The element that is read from fields** in the order of their names. -/
theorem ofMembers_eq {fields : List (String × Json)} (h : Sorted fields) :
    (ofMembers fields).1 = recovered fields := by
  induction fields using List.reverseRecOn with
  | nil => rfl
  | append_singleton fields f ih =>
    have hbefore := ih (List.pairwise_append.1 h).1
    rw [ofMembers_concat, ← h.insert_append, recovered_insert h.find?_append, ← hbefore]
    cases (ofMembers fields).1.setField f.1 f.2 with
    | some e => rfl
    | none => rfl

/-- What is reported of an element: its known fields of the wrong type. -/
theorem amount_ofMembers (fields : List (String × Json)) :
    Amount (fields.countP isFault) (ofMembers fields).2 := by
  induction fields using List.reverseRecOn with
  | nil => exact Amount.nil
  | append_singleton fields f ih =>
    obtain ⟨field, value⟩ := f
    rw [ofMembers_concat, List.countP_append, List.countP_singleton]
    cases hset : (ofMembers fields).1.setField field value with
    | some e =>
      have hsound : ¬ isFault (field, value) = true := fun hf =>
        Option.some_ne_none e (hset.symm.trans (setField_eq_none_iff.2 hf))
      rw [if_neg hsound]
      exact ih
    | none =>
      have hfault := setField_eq_none_iff.1 hset
      rw [if_pos hfault]
      exact ih.append (amount_fieldFault hfault)

end Element

/-! ## A package -/

namespace Package

/-- The package that members describe: its elements are those of them that are objects. -/
def recovered (elements : Dictionary Json) : Package :=
  (elements.filter (·.2.isObject)).map fun m => (m.1, Element.recovered m.2.members)

/-- The faults of a package: the members that are no objects, and the known fields of the others
that have a value of the wrong type. -/
def faultCount (elements : Dictionary Json) : Nat :=
  elements.countP (!·.2.isObject) + (elements.flatMap (·.2.members)).countP Element.isFault

theorem faultCount_append (es fs : Dictionary Json) :
    faultCount (es ++ fs) = faultCount es + faultCount fs := by
  rw [faultCount, faultCount, faultCount, List.countP_append, List.flatMap_append,
    List.countP_append]
  omega

theorem faultCount_singleton (m : String × Json) :
    faultCount [m]
      = (if m.2.isObject then 0 else 1) + m.2.members.countP Element.isFault := by
  rw [faultCount, List.countP_singleton, List.flatMap_singleton]
  cases m.2.isObject <;> rfl

/-- The elements of a package that is read from members in the order of their names. -/
theorem ofMembers_eq {elements : List (String × Json)} (h : Sorted elements)
    (hfields : ∀ m ∈ elements, Sorted m.2.members) :
    (ofMembers elements).1 = recovered elements := by
  induction elements using List.reverseRecOn with
  | nil => rfl
  | append_singleton elements m ih =>
    obtain ⟨hbefore, hm⟩ := List.forall_mem_append.1 hfields
    have hsame := ih (List.pairwise_append.1 h).1 hbefore
    rw [ofMembers_concat, recovered, List.filter_append, List.map_append, ← recovered, ← hsame]
    cases hobject : m.2.isObject with
    | true =>
      have hlast : ∀ e ∈ (ofMembers elements).1, e.1 < m.1 := by
        rw [hsame]
        intro e he
        obtain ⟨f, hf, rfl⟩ := List.mem_map.1 he
        exact (List.pairwise_append.1 h).2.2 f (List.mem_filter.1 hf).1 m List.mem_cons_self
      rw [Json.members?_of_isObject hobject]
      dsimp only
      rw [Dictionary.insert_of_lt hlast, Element.ofMembers_eq (hm m List.mem_cons_self),
        List.filter_singleton, hobject]
      rfl
    | false =>
      rw [Json.members?_of_not_isObject hobject, List.filter_singleton, hobject]
      exact (List.append_nil _).symm

/-- What is reported of a package. -/
theorem amount_ofMembers (elements : List (String × Json)) :
    Amount (faultCount elements) (ofMembers elements).2 := by
  induction elements using List.reverseRecOn with
  | nil => exact Amount.nil
  | append_singleton elements m ih =>
    rw [ofMembers_concat, faultCount_append, faultCount_singleton]
    cases hobject : m.2.isObject with
    | true =>
      rw [Json.members?_of_isObject hobject]
      dsimp only
      rw [if_pos rfl, Nat.zero_add]
      exact ih.append (Element.amount_ofMembers _)
    | false =>
      rw [Json.members?_of_not_isObject hobject, Json.members_of_not_isObject hobject]
      exact ih.append ⟨rfl, by simp [elementFault]⟩

end Package

/-! ## All packages -/

namespace Database

variable {ms : List (String × Json)} {m : String × Json}

/-- The reading of a document comes to a package: no member up to it is anything but an object. -/
def Reaches (ms : Dictionary Json) (m : String × Json) : Prop :=
  ∀ k ∈ ms, k.1 ≤ m.1 → k.2.isObject = true

instance (ms : Dictionary Json) : DecidablePred (Reaches ms) := fun m =>
  inferInstanceAs (Decidable (∀ k ∈ ms, k.1 ≤ m.1 → k.2.isObject = true))

/-- The packages that the reading of a document comes to. -/
def reached (ms : Dictionary Json) : Dictionary Json := ms.filter fun m => decide (Reaches ms m)

/-- The packages that a document describes, with what is at fault in it left out. -/
def recovered : Json → Dictionary Package
  | .object ms => (reached ms).map fun m => (m.1, Package.recovered m.2.members)
  | _ => []

/-- The faults of a document: those of the packages that its reading comes to, and what ends the
reading.  A document that is neither an object nor `null` is one fault. -/
def faultCount : Json → Nat
  | .null => 0
  | .object ms => Package.faultCount ((reached ms).flatMap (·.2.members))
      + (if ms.all (·.2.isObject) then 0 else 1)
  | _ => 1

theorem reached_cons_of_isObject (h : Sorted (m :: ms)) (hm : m.2.isObject = true) :
    reached (m :: ms) = m :: reached ms := by
  have hfirst : Reaches (m :: ms) m := List.forall_mem_cons.2 ⟨fun _ => hm, fun k hk hle =>
    absurd ((List.pairwise_cons.1 h).1 k hk) (String.not_lt.2 hle)⟩
  have hmore : ∀ k, Reaches (m :: ms) k ↔ Reaches ms k := fun k =>
    List.forall_mem_cons.trans (and_iff_right fun _ => hm)
  rw [reached, List.filter_cons_of_pos (by simpa using hfirst), reached]
  simp only [hmore]

/-- The first member that is no object ends the reading: all others come behind it. -/
theorem reached_cons_of_not_isObject (h : Sorted (m :: ms)) (hm : m.2.isObject = false) :
    reached (m :: ms) = [] := by
  refine List.filter_eq_nil_iff.2 fun k hk hreaches => ?_
  have hle : m.1 ≤ k.1 := by
    rcases List.mem_cons.1 hk with rfl | hk
    · exact String.le_refl _
    · exact String.not_lt.1 (String.lt_asymm ((List.pairwise_cons.1 h).1 k hk))
  exact Bool.false_ne_true
    (hm.symm.trans (of_decide_eq_true hreaches m List.mem_cons_self hle))

/-- The packages that are read from members in the order of their names, behind those that are
already there. -/
theorem packagesOfMembers_eq {before : Dictionary Package} (h : Sorted ms)
    (hms : ∀ m ∈ ms, m.2.Ordered) (hbefore : ∀ p ∈ before, ∀ m ∈ ms, p.1 < m.1) :
    (packagesOfMembers ms before).1 = before ++ recovered (.object ms) := by
  induction ms generalizing before with
  | nil => exact (List.append_nil _).symm
  | cons m ms ih =>
    obtain ⟨hm, hmore⟩ := List.forall_mem_cons.1 hms
    obtain ⟨hlt, hsorted⟩ := List.pairwise_cons.1 h
    rw [packagesOfMembers]
    cases hobject : m.2.isObject with
    | false =>
      rw [Json.members?_of_not_isObject hobject, recovered, reached_cons_of_not_isObject h hobject]
      exact (List.append_nil _).symm
    | true =>
      have hpackage : (Package.ofMembers m.2.members).1 = Package.recovered m.2.members :=
        Package.ofMembers_eq hm.sorted_members fun e he => (hm.member_members he).sorted_members
      rw [Json.members?_of_isObject hobject]
      dsimp only
      rw [hpackage, Dictionary.insert_of_lt fun p hp => hbefore p hp m List.mem_cons_self,
        ih hsorted hmore, recovered, recovered, reached_cons_of_isObject h hobject,
        List.append_assoc]
      · rfl
      · intro p hp k hk
        rcases List.mem_append.1 hp with hp | hp
        · exact hbefore p hp k (List.mem_cons_of_mem _ hk)
        · obtain rfl := List.mem_singleton.1 hp
          exact hlt k hk

/-- A document is valid when all its members are objects. -/
theorem valid_packagesOfMembers (ms : List (String × Json)) (before : Dictionary Package) :
    (packagesOfMembers ms before).2.2 = ms.all (·.2.isObject) := by
  induction ms generalizing before with
  | nil => rfl
  | cons m ms ih =>
    rw [packagesOfMembers, List.all_cons]
    cases hobject : m.2.isObject with
    | false => rw [Json.members?_of_not_isObject hobject]; rfl
    | true =>
      rw [Json.members?_of_isObject hobject, Bool.true_and]
      exact ih _

/-- What is reported of the members of a document. -/
theorem amount_packagesOfMembers (h : Sorted ms) (before : Dictionary Package) :
    Amount (faultCount (.object ms)) (packagesOfMembers ms before).2.1 := by
  induction ms generalizing before with
  | nil => exact Amount.nil
  | cons m ms ih =>
    rw [packagesOfMembers, faultCount, List.all_cons]
    cases hobject : m.2.isObject with
    | false =>
      rw [Json.members?_of_not_isObject hobject, reached_cons_of_not_isObject h hobject]
      exact ⟨rfl, by simp [packageFault]⟩
    | true =>
      rw [Json.members?_of_isObject hobject, reached_cons_of_isObject h hobject, Bool.true_and,
        List.flatMap_cons, Package.faultCount_append, Nat.add_assoc, ← faultCount]
      exact (Package.amount_ofMembers _).append (ih (List.pairwise_cons.1 h).2 _)

/-! ## A document -/

variable {v : Json}

theorem ofDocument_eq (h : v.Ordered) : (ofDocument v).1 = recovered v := by
  cases h with
  | object hsorted hms => exact packagesOfMembers_eq hsorted hms fun _ hp => nomatch hp
  | _ => rfl

theorem amount_ofDocument (h : v.Ordered) : Amount (faultCount v) (ofDocument v).2.1 := by
  cases h with
  | object hsorted hms => exact amount_packagesOfMembers hsorted []
  | null => exact Amount.nil
  | _ => exact ⟨rfl, by simp [ofDocument, rootFault]⟩

theorem valid_ofDocument (v : Json) : (ofDocument v).2.2 = true ↔
    v = .null ∨ ∃ ms, v = .object ms ∧ ∀ m ∈ ms, m.2.isObject = true := by
  cases v with
  | object ms =>
    have hvalid : (ofDocument (.object ms)).2.2 = ms.all (·.2.isObject) :=
      valid_packagesOfMembers ms []
    simp [hvalid]
  | _ => simp [ofDocument]

/-! ## The file -/

/-- The message of a fault in the document of a file. -/
def complaint (position : Position) (text : String) : Message :=
  ⟨.error, .unexpectedDatabase, Diagnostics.locate position, text⟩

/-- Where errors are let through, each fault is counted and goes to the log. -/
theorem report_of_log {position : Position} {faults : List String} {d : Diagnostics}
    {log : Array Message} (hlevel : Level.error.detail ≤ d.maximumLevel.detail)
    (hlog : d.sink = .log log) (h : ∀ text ∈ faults, text.isEmpty = false) :
    report position faults d = { d with
      errorCount := d.errorCount + faults.length
      sink := .log (log ++ (faults.map (complaint position)).toArray) } :=
  Diagnostics.foldl_error_of_log hlevel hlog h

/-- **What is kept of a file, and what is reported of it**, whatever document it holds.  The answer
is that the document is `null` or an object of objects; what is not at fault is kept; and there is
one error for each fault. -/
theorem load_recovers {db : Database} {fs : Files} {path text : String} (hnew : db.loaded = none)
    (hfile : fs.read path = .ok text) (hdocument : Json.parseWithComments text = .ok v)
    (d : Diagnostics) :
    ∃ (valid : Bool) (faults : List String),
      db.load fs path d = (valid, { loaded := some (path, valid), packages := recovered v },
        report (Position.ofFile path) faults d) ∧
      (valid = true ↔ v = .null ∨ ∃ ms, v = .object ms ∧ ∀ m ∈ ms, m.2.isObject = true) ∧
      faults.length = faultCount v ∧
      (Level.error.detail ≤ d.maximumLevel.detail → ∀ log, d.sink = .log log →
        report (Position.ofFile path) faults d = { d with
          errorCount := d.errorCount + faultCount v
          sink := .log (log ++ (faults.map (complaint (Position.ofFile path))).toArray) }) := by
  have hordered := Json.ordered_parseWithComments hdocument
  have hamount := amount_ofDocument hordered
  refine ⟨(ofDocument v).2.2, (ofDocument v).2.1, ?_, valid_ofDocument v, hamount.length,
    fun hlevel log hlog => ?_⟩
  · rw [load, hnew]
    dsimp only
    rw [hfile]
    dsimp only
    rw [ofText, hdocument]
    dsimp only
    rw [ofDocument_eq hordered]
  · rw [report_of_log hlevel hlog hamount.spoken, hamount.length]

/-- A document that was written is read as it was, with the members of its objects in order. -/
theorem parseWithComments_render (h : Json.Readable Json.maximumDepth v) :
    Json.parseWithComments (v.render ++ "\n") = .ok v.sorted := by
  have htext : (v.render ++ "\n").toList = Json.write 0 v ++ ['\n'] := by
    rw [String.toList_append, Json.render, String.toList_ofList]
    rfl
  have hread : Json.readDocument (Json.write 0 v ++ ['\n']) = .ok v.sorted :=
    Json.readDocument_write h (List.forall_mem_nil _) (List.forall_mem_nil _)
  have hstrip : Comment.strip (v.render ++ "\n") = String.ofList (Json.write 0 v ++ ['\n']) := by
    rw [Comment.strip, htext, Comment.bare_write]
    rfl
  rw [Json.parseWithComments, Json.parse, hstrip, String.toList_ofList, hread]

/-- A document with a fault of each sort. -/
def faulty : Json :=
  .object [
    ("a", .object [
      ("x", .integer 1),
      ("y", .object [("line", .integer 2), ("name", .null)]),
      ("z", .object [("filename", .string "f"), ("line", .string "7"), ("type", .null)])]),
    ("b", .array []),
    ("c", .object [])]

theorem readable_faulty : Json.Readable Json.maximumDepth faulty := by
  have hobject : ∀ {depth : Nat} {name : String} {v : Json} {ms : List (String × Json)},
      Json.Readable depth v → Json.Readable (depth + 1) (.object ms) →
      Json.Readable (depth + 1) (.object ((name, v) :: ms)) := fun hv hms => by
    cases hms with
    | object h => exact .object (List.forall_mem_cons.2 ⟨hv, h⟩)
  have hnil : ∀ {depth : Nat}, Json.Readable (depth + 1) (.object []) :=
    .object (List.forall_mem_nil _)
  have harray : ∀ {depth : Nat}, Json.Readable (depth + 1) (.array []) :=
    .array (List.forall_mem_nil _)
  show Json.Readable (124 + 3) faulty
  exact hobject (hobject (.integer 1) (hobject (hobject (.integer 2) (hobject .null hnil))
      (hobject (hobject (.string "f") (hobject (.string "7") (hobject .null hnil))) hnil)))
    (hobject harray (hobject hnil hnil))

/-- Of a document with a fault of each sort the elements are kept that are objects, with the fields
that have the right type, and nothing behind the member that is no object. -/
theorem load_recovers_faulty : ∃ faults : List String,
    load {} (Files.put {} ["tmp", "work", "db"] (.text (faulty.render ++ "\n"))) "db" {}
      = (false,
          { loaded := some ("db", false)
            packages := [("a", [("y", { line := 2 }), ("z", { filename := "f" })])] },
          report (Position.ofFile "db") faults {}) ∧
    faults.length = 4 := by
  have hfile := Files.read_write (write_db (faulty.render ++ "\n"))
  have hsorted : faulty.sorted = faulty := rfl
  have hdocument := parseWithComments_render readable_faulty
  rw [hsorted] at hdocument
  have hnew : ({} : Database).loaded = none := rfl
  obtain ⟨valid, faults, hload, hvalid, hcount, -⟩ := load_recovers hnew hfile hdocument {}
  have hinvalid : valid = false := by
    refine Bool.eq_false_iff.2 fun h => ?_
    rcases hvalid.1 h with hnull | ⟨ms, hms, hobjects⟩
    · cases hnull
    · cases hms
      exact absurd (hobjects ("b", .array []) (by simp)) (by decide)
  have hpackages : recovered faulty
      = [("a", [("y", { line := 2 }), ("z", { filename := "f" })])] := by
    decide +kernel
  have hfour : faultCount faulty = 4 := by
    decide +kernel
  rw [hinvalid, hpackages] at hload
  exact ⟨faults, hload, hcount.trans hfour⟩

end Database

end SymbolTree
