import RuleText.Json.Reader
import RuleText.Proofs.Text.Order

/-!
# Ordered values

A value is ordered if the keys of each object in it ascend. Every value that is read from a
text is: an object gets its fields one after the other, each set in a table, and the values
that the reader holds inside open arrays and objects are complete ones.
-/

namespace RuleText.Json

/-- The keys of all objects in the value ascend. -/
inductive Ordered : Json → Prop
  | null : Ordered null
  | bool (b : Bool) : Ordered (bool b)
  | number (n : Number) : Ordered (number n)
  | string (s : Text) : Ordered (string s)
  | array {elements : List Json} : (∀ element ∈ elements, Ordered element) →
      Ordered (array elements)
  | object {fields : List (Text × Json)} : Keyed.Ascending fields →
      (∀ field ∈ fields, Ordered field.2) → Ordered (object fields)

variable {value : Json} {fields : List (Text × Json)} {key : Text}

/-- The fields of an object that may still be open. -/
def OrderedFields (fields : List (Text × Json)) : Prop :=
  Keyed.Ascending fields ∧ ∀ field ∈ fields, Ordered field.2

theorem orderedFields_nil : OrderedFields [] :=
  ⟨List.Pairwise.nil, List.forall_mem_nil _⟩

theorem OrderedFields.object (h : OrderedFields fields) : Ordered (.object fields) :=
  .object h.1 h.2

/-- A field of the table is the new one or has been there. -/
theorem mem_set {field : Text × Json} (h : field ∈ Keyed.set key value fields) :
    field = (key, value) ∨ field ∈ fields := by
  fun_induction Keyed.set key value fields with
  | case1 => exact .inl (List.mem_singleton.mp h)
  | case2 v more => exact (List.mem_cons.mp h).imp_right (List.mem_cons_of_mem _)
  | case3 k v more => exact List.mem_cons.mp h
  | case4 k v more _ _ ih =>
    obtain rfl | further := List.mem_cons.mp h
    · exact .inr List.mem_cons_self
    · exact (ih further).imp_right (List.mem_cons_of_mem _)

theorem OrderedFields.set (h : OrderedFields fields) (ordered : Ordered value) :
    OrderedFields (Keyed.set key value fields) := by
  refine ⟨Keyed.ascending_set h.1, fun field mem => ?_⟩
  obtain rfl | former := mem_set mem
  · exact ordered
  · exact h.2 field former

/-! ### Reading -/

/-- All that an open array or object holds is ordered. -/
def Frame.Ordered : Frame → Prop
  | .array elements => ∀ element ∈ elements, element.Ordered
  | .object fields _ => OrderedFields fields

/-- All that has been read is ordered. -/
def Reader.Ordered : Reader → Prop
  | .value _ stack => ∀ frame ∈ stack, frame.Ordered
  | .key _ fields stack => OrderedFields fields ∧ ∀ frame ∈ stack, frame.Ordered
  | .colon stack => ∀ frame ∈ stack, frame.Ordered
  | .done value stack => value.Ordered ∧ ∀ frame ∈ stack, frame.Ordered

namespace Reader

variable {limit : ℕ} {reader next : Reader} {token : Token}

/-- What has been read stays ordered with each token. -/
theorem ordered_step (ordered : reader.Ordered) (h : reader.step limit token = some next) :
    next.Ordered := by
  revert h
  fun_cases Reader.step limit reader token
  -- a value without members
  case case1 | case2 | case3 | case4 =>
    rintro ⟨⟩
    exact ⟨by constructor, ordered⟩
  case case9 =>
    rintro ⟨⟩
    exact ⟨.array (List.forall_mem_nil _), (List.forall_mem_cons.mp ordered).2⟩
  case case11 =>
    rintro ⟨⟩
    exact ⟨orderedFields_nil.object, ordered.2⟩
  -- an array or object is opened
  case case5 =>
    rintro ⟨⟩
    exact List.forall_mem_cons.mpr ⟨List.forall_mem_nil _, ordered⟩
  case case7 =>
    rintro ⟨⟩
    exact ⟨orderedFields_nil, ordered⟩
  -- a key or a colon
  case case10 =>
    rintro ⟨⟩
    exact List.forall_mem_cons.mpr ordered
  case case12 =>
    rintro ⟨⟩
    exact ordered
  -- a member is complete
  case case13 =>
    rintro ⟨⟩
    obtain ⟨member, rest⟩ := ordered
    obtain ⟨members, rest⟩ := List.forall_mem_cons.mp rest
    exact List.forall_mem_cons.mpr ⟨List.forall_mem_cons.mpr ⟨member, members⟩, rest⟩
  case case14 =>
    rintro ⟨⟩
    obtain ⟨member, rest⟩ := ordered
    obtain ⟨members, rest⟩ := List.forall_mem_cons.mp rest
    refine ⟨.array fun element mem => ?_, rest⟩
    exact List.forall_mem_cons.mpr ⟨member, members⟩ element (List.mem_reverse.mp mem)
  case case15 =>
    rintro ⟨⟩
    obtain ⟨member, rest⟩ := ordered
    obtain ⟨fields, rest⟩ := List.forall_mem_cons.mp rest
    exact ⟨fields.set member, rest⟩
  case case16 =>
    rintro ⟨⟩
    obtain ⟨member, rest⟩ := ordered
    obtain ⟨fields, rest⟩ := List.forall_mem_cons.mp rest
    exact ⟨(fields.set member).object, rest⟩
  all_goals rintro ⟨⟩

theorem ordered_foldlM {tokens : List Token} (ordered : reader.Ordered)
    (h : tokens.foldlM (Reader.step limit) reader = some next) : next.Ordered := by
  induction tokens generalizing reader with
  | nil =>
    cases h
    exact ordered
  | cons token tokens ih =>
    obtain ⟨between, first, rest⟩ := Option.bind_eq_some_iff.mp h
    exact ih (ordered_step ordered first) rest

end Reader

/-- A value that a text writes is ordered. -/
theorem ordered_of_parse? {t : Text} (h : parse? t = some value) : value.Ordered := by
  have start : (Reader.value false []).Ordered := List.forall_mem_nil _
  simp only [parse?, ofTokens?] at h
  split at h
  · rename_i read
    cases h
    exact (Reader.ordered_foldlM start read).1
  · cases h

end RuleText.Json
