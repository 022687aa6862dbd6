import RuleText.Proofs.Damage.Summands

/-!
# Damage is read back from its text

The text of a group without tags is a formula, and its damage has as many dice of each
size and the same sum of constants and modifiers as the group (`evaluated_of_text`). The
terms may come out differently: a constant in front of dice becomes their modifier, and a
modifier behind more than one term becomes a constant.

That nothing is lost is known of all sums. What is shown here is that no step of the
evaluation fails: dice always find no others of their size, and numbers stay small as long
as the absolute values of all constants and modifiers fit together (`Gathers`).
-/

namespace RuleText.Damage

open Formula (Node Operator)

/-! ### Operations that succeed -/

section Success

variable {terms : List Term}

/-- The sum of the absolute values of all constants and modifiers. -/
def absFlat (terms : List Term) : Nat :=
  (terms.map fun t => t.flat.natAbs).sum

/-- The sizes of all dice. -/
def sizes (terms : List Term) : List Amount :=
  terms.filterMap Term.shape

theorem exists_addTerm (term : Term)
    (h : ∀ t ∈ terms, ∃ joined, (t.absorb term).result = .ok joined) :
    ∃ terms', Group.addTerm term terms = .ok terms' := by
  induction terms with
  | nil => exact ⟨[term], rfl⟩
  | cons t terms ih =>
    obtain ⟨⟨joined, first⟩, more⟩ := List.forall_mem_cons.mp h
    obtain ⟨terms', added⟩ := ih more
    rw [Group.addTerm]
    cases joined with
    | true => exact ⟨(t.absorb term).state :: terms, by simp only [first]⟩
    | false => exact ⟨t :: terms', by simp only [first, added, Except.map]⟩

theorem exists_absorb_constant {t : Term} {c : Amount} (fits : Amount.Fits (t.flat + c.toInt)) :
    ∃ joined, (t.absorb (.constant c)).result = .ok joined := by
  cases t with
  | constant a =>
    have sum : Amount.add? a c = some _ := if_pos fits
    exact ⟨true, by rw [Term.absorb, sum]⟩
  | dice d => exact ⟨false, rfl⟩

theorem exists_absorb_dice {t : Term} {d : Dice} (other : t.shape ≠ some d.size) :
    ∃ joined, (t.absorb (.dice d)).result = .ok joined := by
  cases t with
  | constant a => exact ⟨false, rfl⟩
  | dice a =>
    have apart : a.size ≠ d.size := fun same => other (congrArg some same)
    exact ⟨false, by rw [Term.absorb, if_neg apart]⟩

theorem exists_offset {t : Term} {n : Amount} (fits : Amount.Fits (t.flat + n.toInt)) :
    ∃ t', t.offset n = .ok t' := by
  cases t with
  | constant a =>
    have sum : Amount.add? a n = some _ := if_pos fits
    exact ⟨_, by rw [Term.offset, sum]; rfl⟩
  | dice d =>
    have sum : Amount.add? d.modifier n = some _ := if_pos fits
    exact ⟨_, by rw [Term.offset, sum]; rfl⟩

end Success

theorem absFlat_append (ts us : List Term) : absFlat (ts ++ us) = absFlat ts + absFlat us := by
  simp [absFlat]

theorem absFlat_cons (t : Term) (ts : List Term) :
    absFlat (t :: ts) = t.flat.natAbs + absFlat ts := by
  simp [absFlat]

theorem sizes_append (ts us : List Term) : sizes (ts ++ us) = sizes ts ++ sizes us :=
  List.filterMap_append

theorem natAbs_flat_le {t : Term} {terms : List Term} (h : t ∈ terms) :
    t.flat.natAbs ≤ absFlat terms := by
  obtain ⟨before, after, rfl⟩ := List.append_of_mem h
  rw [absFlat_append, absFlat_cons]
  omega

/-! ### Instances of one group without tags -/

/-- The instance of one group without tags. -/
def untagged (terms : List Term) : Instance :=
  ⟨[⟨terms, []⟩], false⟩

section Untagged

variable {terms terms' : List Term} {op : Operator} {n : Amount}

theorem mergeGroup_ofTerm (term : Term) (terms : List Term) :
    Instance.mergeGroup (.ofTerm term) [⟨terms, []⟩] =
      (Group.addTerm term terms).map fun terms => [⟨terms, []⟩] := by
  have same : Group.sameTags ⟨terms, []⟩ (.ofTerm term) = true := rfl
  rw [Instance.mergeGroup, if_pos same, Group.absorb, Group.ofTerm]
  cases added : Group.addTerm term terms with
  | error e => simp [added, bind, Except.bind, Except.map]
  | ok terms' => simp [added, bind, Except.bind, Except.map, pure, Except.pure]

theorem merge_untagged {term : Term} (added : Group.addTerm term terms = .ok terms') :
    (untagged terms).merge (untagged [term]) = .ok (untagged terms') := by
  have merged : Instance.mergeGroup (.ofTerm term) [⟨terms, []⟩] = .ok [⟨terms', []⟩] := by
    rw [mergeGroup_ofTerm, added]
    rfl
  refine map_eq_ok.mpr ⟨[⟨terms', []⟩], ?_, rfl⟩
  exact foldlM_cons_eq_ok.mpr ⟨_, merged, foldlM_nil_eq_ok.mpr rfl⟩

/-- The terms are those of before with a number added to one of them or put behind them. -/
structure TakesIn (n : Int) (terms terms' : List Term) : Prop where
  sizes_eq : sizes terms' = sizes terms
  absFlat_le : absFlat terms' ≤ absFlat terms + n.natAbs

theorem takesIn_of_offsets {t t' : Term} {k : Int} (h : Offsets k t t') : TakesIn k [t] [t'] := by
  have shape : t'.shape = t.shape := by cases h <;> rfl
  have flat : t'.flat = t.flat + 1 * k := additive_flat.offsets h
  refine ⟨by simp only [sizes, List.filterMap_cons, shape], ?_⟩
  rw [absFlat_cons, absFlat_cons]
  omega

theorem takesIn_of_addTerm {c : Amount} (added : Group.addTerm (.constant c) terms = .ok terms') :
    TakesIn c.toInt terms terms' := by
  obtain ⟨before, t, t', after, rfl, rfl, joins⟩ | ⟨rfl, -⟩ := of_addTerm added
  · have flat : t'.flat = t.flat + c.toInt := additive_flat.joins joins
    refine ⟨by simp only [sizes, List.filterMap_append, List.filterMap_cons, joins.shape], ?_⟩
    simp only [absFlat_append, absFlat_cons]
    omega
  · refine ⟨?_, ?_⟩
    · rw [sizes_append]
      exact List.append_nil _
    · rw [absFlat_append]
      exact Nat.le_refl _

theorem natAbs_signed (op : Operator) (k : Int) : (signed op k).natAbs = k.natAbs := by
  rw [signed]
  split
  · exact Int.natAbs_neg k
  · rfl

/-- Where there is no lone term, the number becomes a constant. -/
theorem shift_untagged {m : Amount} (several : ¬ ∃ t, terms = [t]) (number : signed? op n = .ok m)
    (added : Group.addTerm (.constant m) terms = .ok terms') :
    (untagged terms).shift op n = .ok (untagged terms') := by
  have apart : ¬ (untagged terms).Lone := by
    rintro ⟨t, tags, lone⟩
    exact several ⟨t, (Group.mk.inj (List.cons.inj lone).1).1⟩
  rw [shift_of_not_lone apart]
  refine bind_eq_ok.mpr ⟨m, number, map_eq_ok.mpr ⟨[⟨terms', []⟩], ?_, rfl⟩⟩
  show Instance.mergeGroup (.ofTerm (.constant m)) [⟨terms, []⟩] = _
  rw [mergeGroup_ofTerm, added]
  rfl

/-- Adding a small number succeeds. -/
theorem exists_shift (terms : List Term) (n : Amount) (additive : op = .add ∨ op = .sub)
    (small : ((absFlat terms + n.toInt.natAbs : Nat) : Int) ≤ Amount.greatest) :
    ∃ terms', (untagged terms).shift op n = .ok (untagged terms') ∧
      TakesIn (signed op n.toInt) terms terms' := by
  have same := natAbs_signed op n.toInt
  have fits : ∀ t ∈ terms, Amount.Fits (t.flat + signed op n.toInt) := by
    intro t ht
    have := natAbs_flat_le ht
    exact fits_of_natAbs_le (by omega)
  have opposite : Amount.Fits (signed op n.toInt) := fits_of_natAbs_le (by omega)
  obtain ⟨m, value⟩ : ∃ m : Amount, m.toInt = signed op n.toInt :=
    ⟨_, Amount.toInt_ofInt_of_fits opposite⟩
  have number : signed? op n = .ok m := signed?_eq_ok_iff.mpr value
  rw [← value] at fits ⊢
  by_cases lone : ∃ t, terms = [t]
  · obtain ⟨t, rfl⟩ := lone
    obtain ⟨t', moved⟩ := exists_offset (fits t List.mem_cons_self)
    refine ⟨[t'], ?_, takesIn_of_offsets (offset_eq_ok_iff.mp moved)⟩
    have applied : t.apply op n = .ok t' := by
      rw [term_apply_eq additive, number]
      exact moved
    exact map_eq_ok.mpr ⟨t', applied, rfl⟩
  · obtain ⟨terms', added⟩ := exists_addTerm (.constant m) fun t ht =>
      exists_absorb_constant (fits t ht)
    refine ⟨terms', ?_, takesIn_of_addTerm added⟩
    exact shift_untagged lone number added

end Untagged

/-! ### Sums of damage -/

/-- After some summands of a sum without tags: the value is a number, or damage of one
group with dice of the given sizes, and its constants and modifiers are small. -/
inductive Gathers : (v : Value) → (sizes : List Amount) → (bound : Nat) → Prop
  | number {n : Amount} {bound : Nat} : n.toInt.natAbs ≤ bound →
      Gathers (.number (.int n)) [] bound
  | damage {terms : List Term} {bound : Nat} : absFlat terms ≤ bound →
      Gathers (.damage (untagged terms)) (sizes terms) bound

/-- The value of a summand. -/
def Summand.value : Summand → Value
  | dice count size => .damage (untagged [.dice (.new count size)])
  | number n => .number (.int n)

namespace Gathers

variable {v : Value} {ss : List Amount} {bound : Nat}

theorem value (s : Summand) : Gathers s.value s.size?.toList s.flat.natAbs := by
  cases s with
  | dice count size =>
    exact .damage (Nat.le_refl (absFlat [.dice (.new count size)]))
  | number n => exact .number (Nat.le_refl _)

theorem of_terms {terms : List Term} (same : sizes terms = ss) (small : absFlat terms ≤ bound) :
    Gathers (.damage (untagged terms)) ss bound :=
  same ▸ .damage small

/-- Dice of another size are put behind all terms, or they take in the number before them. -/
theorem dice (h : Gathers v ss bound) (count : Amount) {size : Amount} (other : size ∉ ss)
    (small : (bound : Int) ≤ Amount.greatest) :
    ∃ v', Value.binary .add v (Summand.dice count size).value = .ok v' ∧
      Gathers v' (ss ++ [size]) bound := by
  let term : Term := .dice (.new count size)
  have flat : absFlat [term] = 0 := rfl
  cases h with
  | @number n _ le =>
    obtain ⟨terms, shifted, takes⟩ := exists_shift [term] n (.inl rfl)
      (by rw [flat]; omega)
    refine ⟨.damage (untagged terms), ?_, of_terms takes.sizes_eq ?_⟩
    · have applied := (toExcept_apply (.inl rfl)).trans shifted
      exact map_eq_ok.mpr ⟨_, applied, rfl⟩
    · have absFlat_le : absFlat terms ≤ absFlat [term] + n.toInt.natAbs := takes.absFlat_le
      omega
  | @damage terms _ le =>
    have apart : ∀ t ∈ terms, t.shape ≠ some size := fun t ht same =>
      other (List.mem_filterMap.mpr ⟨t, ht, same⟩)
    obtain ⟨terms', added⟩ := exists_addTerm term fun t ht =>
      exists_absorb_dice (apart t ht)
    refine ⟨.damage (untagged terms'), map_eq_ok.mpr ⟨_, merge_untagged added, rfl⟩, ?_⟩
    obtain ⟨before, t, t', after, rfl, rfl, joins⟩ | ⟨rfl, -⟩ := of_addTerm added
    · exact absurd joins.shape_eq (apart t (by simp))
    · exact of_terms (sizes_append terms [term]) (by rw [absFlat_append]; exact le)

/-- A small number is added or subtracted, wherever it ends up. -/
theorem addNumber (h : Gathers v ss bound) {n : Amount} {op : Operator}
    (additive : op = .add ∨ op = .sub)
    (small : ((bound + n.toInt.natAbs : Nat) : Int) ≤ Amount.greatest) :
    ∃ v', Value.binary op v (Summand.number n).value = .ok v' ∧
      Gathers v' ss (bound + n.toInt.natAbs) := by
  cases h with
  | @number m _ le =>
    have same := natAbs_signed op n.toInt
    have fits : Amount.Fits (m.toInt + signed op n.toInt) := fits_of_natAbs_le (by omega)
    have sum := Amount.toInt_ofInt_of_fits fits
    refine ⟨.number (.int (Int64.ofInt (m.toInt + signed op n.toInt))), ?_, .number (by omega)⟩
    obtain rfl | rfl := additive
    · have added : Amount.add? m n = some _ := if_pos fits
      exact map_eq_ok.mpr ⟨_, orOverflow_eq_ok.mpr (by rw [added]; rfl), rfl⟩
    · have subtracted : Amount.sub? m n = some _ := if_pos fits
      exact map_eq_ok.mpr ⟨_, orOverflow_eq_ok.mpr (by rw [subtracted]; rfl), rfl⟩
  | @damage terms _ le =>
    have same := natAbs_signed op n.toInt
    obtain ⟨terms', shifted, takes⟩ := exists_shift terms n additive (by omega)
    refine ⟨.damage (untagged terms'), ?_, of_terms takes.sizes_eq ?_⟩
    · have applied := (toExcept_apply additive).trans shifted
      exact map_eq_ok.mpr ⟨_, applied, rfl⟩
    · have absFlat_le := takes.absFlat_le
      omega

/-- The summands of a sum are gathered without an error, if dice have different sizes and
the numbers are small together. -/
theorem all {xs : List Addend} (h : Gathers v ss bound) (readable : ∀ x ∈ xs, x.Readable)
    (distinct : (ss ++ xs.filterMap fun x => x.summand.size?).Nodup)
    (small : ((bound + (xs.map fun x => x.summand.flat.natAbs).sum : Nat) : Int) ≤
      Amount.greatest) :
    ∃ v', xs.foldlM (fun v x => Value.binary x.op v x.summand.value) v = .ok v' ∧
      Gathers v' (ss ++ xs.filterMap fun x => x.summand.size?)
        (bound + (xs.map fun x => x.summand.flat.natAbs).sum) := by
  induction xs generalizing v ss bound with
  | nil => exact ⟨v, rfl, by simpa using h⟩
  | cons x xs ih =>
    obtain ⟨first, more⟩ := List.forall_mem_cons.mp readable
    obtain ⟨op, summand⟩ := x
    rw [List.map_cons, List.sum_cons, ← Nat.add_assoc] at small ⊢
    cases summand with
    | dice count size =>
      obtain rfl : op = .add := first.sign.resolve_right fun sub => nomatch sub.2
      have split : ss ++ ((⟨.add, .dice count size⟩ : Addend) :: xs).filterMap
          (fun x => x.summand.size?) = ss ++ [size] ++ xs.filterMap fun x => x.summand.size? := by
        simp [Summand.size?]
      rw [split] at distinct ⊢
      have other : size ∉ ss := by
        have apart := (List.nodup_append.mp (List.nodup_append.mp distinct).1).2.2
        exact fun mem => apart size mem size List.mem_cons_self rfl
      obtain ⟨u, combined, gathers⟩ := h.dice count other (by omega)
      obtain ⟨v', folds, gathers'⟩ := ih gathers more distinct small
      exact ⟨v', foldlM_cons_eq_ok.mpr ⟨u, combined, folds⟩, gathers'⟩
    | number n =>
      have split : ((⟨op, .number n⟩ : Addend) :: xs).filterMap (fun x => x.summand.size?) =
          xs.filterMap fun x => x.summand.size? := rfl
      rw [split] at distinct ⊢
      obtain ⟨u, combined, gathers⟩ := h.addNumber (first.sign.imp_right And.left)
        (n := n) (by simp only [Summand.flat] at small; omega)
      obtain ⟨v', folds, gathers'⟩ := ih gathers more distinct small
      exact ⟨v', foldlM_cons_eq_ok.mpr ⟨u, combined, folds⟩, gathers'⟩

end Gathers

/-- The value of a summand is that of its tree. -/
theorem evaluate_summand (data : RollData) {s : Summand} (h : s.Readable) :
    evaluate data s.node = .ok s.value := by
  cases s with
  | dice count size => rw [Summand.node, evaluate]; rfl
  | number n =>
    rw [Summand.node]
    split
    · have negated : Amount.neg? (opposite n) = some n := by
        refine Amount.fit?_eq_some_iff.mpr ?_
        rw [toInt_opposite h, Int.neg_neg]
      rw [evaluate, evaluate]
      refine bind_eq_ok.mpr ⟨_, rfl, ?_⟩
      exact bind_eq_ok.mpr ⟨.int n, orOverflow_eq_ok.mpr (by rw [negated]; rfl), rfl⟩
    · rw [evaluate]
      rfl

theorem evaluate_sumNode {data : RollData} {left : Node} {xs : List Addend} {v v' : Value}
    (readable : ∀ x ∈ xs, x.Readable) (h : evaluate data left = .ok v)
    (folds : xs.foldlM (fun v x => Value.binary x.op v x.summand.value) v = .ok v') :
    evaluate data (sumNode left xs) = .ok v' := by
  induction xs generalizing left v with
  | nil =>
    obtain rfl := foldlM_nil_eq_ok.mp folds
    exact h
  | cons x xs ih =>
    obtain ⟨first, more⟩ := List.forall_mem_cons.mp readable
    obtain ⟨u, combined, rest⟩ := foldlM_cons_eq_ok.mp folds
    refine ih more ?_ rest
    rw [evaluate]
    exact bind_eq_ok.mpr ⟨v, h, bind_eq_ok.mpr
      ⟨_, evaluate_summand data first.summand, combined⟩⟩

/-! ### Reading damage back -/

/-- Twice the exact average: a die counts one more than its sides, since its average is
half of that. -/
def Instance.twiceAverage (i : Instance) : Int :=
  i.diceSum (fun size => size.toInt + 1) + 2 * i.flat

theorem text_of_untagged {i : Instance} {terms : List Term} (h : i.groups = [⟨terms, []⟩]) :
    i.text = Group.magnitude ⟨terms, []⟩ := by
  simp [Instance.text, h, Text.joined, Group.text]

theorem sizes_addendsOfAll (terms : List Term) :
    (addendsOfAll terms).filterMap (fun x => x.summand.size?) = sizes terms := by
  rw [addendsOfAll, List.filterMap_flatMap, sizes, List.filterMap_eq_flatMap_toList]
  simp only [Term.sizes_addends]

/-- The sum that is read has a value, in which all of its terms are gathered. -/
theorem evaluate_treeOf (data : RollData) {t : Term} {ts : List Term} (h : Printable (t :: ts))
    (distinct : (sizes (t :: ts)).Nodup) (small : (absFlat (t :: ts) : Int) ≤ Amount.greatest) :
    ∃ v, evaluate data (treeOf t ts) = .ok v ∧
      Gathers v (sizes (t :: ts)) (absFlat (t :: ts)) := by
  obtain ⟨first, more⟩ := h.readable
  have sizes_eq : sizes (t :: ts) = t.lead.size?.toList ++
      (t.modifiers ++ addendsOfAll ts).filterMap fun x => x.summand.size? := by
    rw [← sizes_addendsOfAll]
    cases t <;> rfl
  have absFlat_eq : absFlat (t :: ts) = t.lead.flat.natAbs +
      ((t.modifiers ++ addendsOfAll ts).map fun x => x.summand.flat.natAbs).sum := by
    rw [absFlat, ← sum_addendsOfAll fun u hu => Term.natAbs_flat_addends (h.small u hu)]
    rfl
  rw [sizes_eq] at distinct ⊢
  rw [absFlat_eq] at small ⊢
  obtain ⟨v, folds, gathers⟩ := (Gathers.value t.lead).all more distinct small
  exact ⟨v, evaluate_sumNode more (evaluate_summand data first) folds, gathers⟩

theorem Gathers.toDamage {v : Value} {ss : List Amount} {bound : Nat} (h : Gathers v ss bound) :
    ∃ terms, v.toDamage = .ok (untagged terms) := by
  cases h with
  | @number n _ _ => exact ⟨[.constant n], rfl⟩
  | @damage terms _ _ => exact ⟨terms, rfl⟩

theorem nodup_sizes {terms : List Term} (h : (terms.map Term.shape).Nodup) :
    (sizes terms).Nodup := by
  have same : sizes terms = (terms.map Term.shape).filterMap id := by
    rw [List.filterMap_map]
    rfl
  rw [same]
  exact h.filterMap fun a a' size ha ha' =>
    (show a = some size from ha).trans (show a' = some size from ha').symm

/-- Damage without tags is read back from its text, up to where its constants and
modifiers stand.

The text of a well-formed instance of one group without tags is a formula, and with any
roll data its damage is again one group without tags. It has as many dice of each size and
the same sum of constants and modifiers, and so the same exact average. This takes
constants and modifiers whose absolute values fit together. -/
theorem evaluated_of_text (data : RollData) {i : Instance} {terms : List Term}
    (formed : i.WellFormed) (lone : i.groups = [⟨terms, []⟩])
    (small : (absFlat terms : Int) ≤ Amount.greatest) :
    ∃ j terms', Payload.ofText data i.text = .ok (.evaluated j) ∧ j.groups = [⟨terms', []⟩] ∧
      (∀ size, j.diceSum (only size) = i.diceSum (only size)) ∧ j.flat = i.flat ∧
      j.twiceAverage = i.twiceAverage := by
  have wellFormed : TermsWellFormed terms := formed.terms ⟨terms, []⟩ (by simp [lone])
  obtain ⟨t, ts, rfl⟩ := List.exists_cons_of_ne_nil wellFormed.ne_nil
  have printable : Printable (t :: ts) := by
    refine ⟨wellFormed.positive, fun u hu => ?_⟩
    have := natAbs_flat_le hu
    omega
  obtain ⟨v, value, gathers⟩ := evaluate_treeOf data printable (nodup_sizes wellFormed.nodup) small
  obtain ⟨terms', damage⟩ := gathers.toDamage
  have holds := holds_of_evaluate (isSum_treeOf data printable) value
  have groups : (untagged terms').groups = v.groups := groups_toDamage v damage
  have dice (weight : Amount → Int) : (untagged terms').diceSum weight = i.diceSum weight := by
    rw [Instance.diceSum, groups, holds.dice, diceSum_treeOf, Instance.diceSum, lone]
    simp
  have flat : (untagged terms').flat = i.flat := by
    rw [Instance.flat, groups, holds.flat, flat_treeOf data printable, Instance.flat, lone]
    simp
  have evaluated : Payload.ofText data i.text = .ok (.evaluated (untagged terms')) := by
    rw [Payload.ofText, text_of_untagged lone, parse_magnitude printable]
    exact map_eq_ok.mpr ⟨_, bind_eq_ok.mpr ⟨v, value, damage⟩, rfl⟩
  refine ⟨untagged terms', terms', evaluated, rfl, fun size => dice (only size), flat, ?_⟩
  rw [Instance.twiceAverage, Instance.twiceAverage, dice, flat]

/-- A constant, which becomes a part of the first modifier, and two kinds of dice. -/
def constantAndDice : Instance :=
  untagged [.constant (-5), .dice ⟨2, 6, -3⟩, .dice ⟨1, 8, 4⟩]

theorem text_constantAndDice : constantAndDice.text = "-5 + 2d6 - 3 + 1d8 + 4".toList := by
  decide +kernel

theorem wellFormed_constantAndDice : constantAndDice.WellFormed := by
  refine ⟨by decide, List.forall_mem_singleton.mpr ⟨by decide, ?_, by decide⟩⟩
  have six : Term.Positive (.dice ⟨2, 6, -3⟩) := ⟨by decide, by decide⟩
  have eight : Term.Positive (.dice ⟨1, 8, 4⟩) := ⟨by decide, by decide⟩
  exact List.forall_mem_cons.mpr ⟨trivial, List.forall_mem_cons.mpr
    ⟨six, List.forall_mem_singleton.mpr eight⟩⟩

theorem evaluated_constantAndDice :
    constantAndDice.WellFormed ∧
    ∃ j terms', Payload.ofText .empty "-5 + 2d6 - 3 + 1d8 + 4".toList = .ok (.evaluated j) ∧
      j.groups = [⟨terms', []⟩] ∧ j.diceSum (only 6) = 2 ∧ j.diceSum (only 8) = 1 ∧
      j.flat = -4 ∧ j.twiceAverage = 15 := by
  have small : (absFlat [.constant (-5), .dice ⟨2, 6, -3⟩, .dice ⟨1, 8, 4⟩] : Int) ≤
      Amount.greatest := by decide
  obtain ⟨j, terms', evaluated, lone, dice, flat, average⟩ :=
    evaluated_of_text .empty wellFormed_constantAndDice rfl small
  rw [text_constantAndDice] at evaluated
  exact ⟨wellFormed_constantAndDice, j, terms', evaluated, lone, dice 6, dice 8, flat, average⟩

end RuleText.Damage
