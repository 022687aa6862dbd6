import RuleText.Proofs.Formula.Reading

/-!
# Whatever is read is a phrase

A reader that succeeds has read a phrase of its symbol, with the tree of its
derivation. Readers call each other on fewer tokens, or on as many tokens but for a
lower level of the grammar; so the readers are taken level by level, from the atoms
up, under the hypothesis that all of them are sound for fewer tokens.

A loop is entered with a tree that has been read already. What it reads continues
the phrase of that tree, whatever the phrase was.
-/

namespace RuleText.Formula.Parser

/-- The tokens begin with a phrase, and `rest` is what follows it. -/
def Phrase (s : Symbol) (ts : List Token) (tree : s.Tree) (rest : List Token) : Prop :=
  ∃ used, ts = used ++ rest ∧ Derives s used tree

variable {ts rest : List Token} {node result : Node} {items tags : List Node}

/-! ### Tags -/

theorem sound_hyphenated {text t : Text} {stop : Nat}
    (read : Yields (hyphenated text stop ts) t rest) :
    ∃ pieces, ts = pieces ++ rest ∧ Hyphenated stop pieces ∧
      t = text ++ pieces.flatMap Token.text := by
  induction hn : ts.length using Nat.strongRecOn generalizing ts text stop with
  | ind n ih =>
    by_cases stops : Stops [.minus] ts
    · obtain ⟨rfl, rfl⟩ := ((idle_hyphenated text stop).yields stops).mp read
      exact ⟨[], rfl, .nil stop, by simp⟩
    · obtain ⟨minus, us, rfl, kind⟩ := exists_of_not_stops stops
      have minus_kind : minus.kind = .minus := by simpa using kind
      obtain ⟨name, us, rfl, named, rfl, touch, more⟩ :=
        (yields_hyphenated_minus minus_kind).mp read
      obtain ⟨pieces, rfl, hyphenated, rfl⟩ :=
        ih us.length (by subst hn; simp only [List.length_cons]; omega) more rfl
      refine ⟨minus :: name :: pieces, rfl, .cons minus_kind named touch hyphenated, ?_⟩
      simp

/-- Both readers of tags, for at most as many tokens. -/
theorem sound_tags_aux (n : Nat) (ts : List Token) (h : ts.length ≤ n) :
    (∀ node rest, Yields (tag ts) node rest → Phrase .tag ts node rest) ∧
      ∀ tags rest, Yields (tagList ts) tags rest → Phrase .tags ts tags rest := by
  induction n generalizing ts with
  | zero =>
    obtain rfl : ts = [] := List.eq_nil_of_length_eq_zero (Nat.le_zero.mp h)
    have nothing (node : Node) (rest : List Token) : ¬ Yields (tag []) node rest :=
      not_yields_tag stops_nil
    refine ⟨fun node rest read => absurd read (nothing node rest), fun tags rest read => ?_⟩
    obtain ⟨first, mid, more, read, -⟩ := yields_tagList.mp read
    exact absurd read (nothing first mid)
  | succ n ih =>
    have one (node : Node) (rest : List Token) (read : Yields (tag ts) node rest) :
        Phrase .tag ts node rest := by
      by_cases stops : Stops tagKinds ts
      · exact absurd read (not_yields_tag stops)
      obtain ⟨token, us, rfl, kind⟩ := exists_of_not_stops stops
      have shorter : us.length ≤ n := by simpa using h
      simp only [tagKinds, List.mem_cons, List.not_mem_nil, or_false] at kind
      rcases kind with kind | kind | kind
      · obtain ⟨t, inner, rfl⟩ := (yields_tag_name kind).mp read
        obtain ⟨pieces, rfl, hyphenated, rfl⟩ := sound_hyphenated inner
        exact ⟨token :: pieces, rfl, .tagName kind hyphenated⟩
      · obtain ⟨rfl, rfl⟩ := (yields_tag_reference kind).mp read
        exact ⟨[token], rfl, .tagReference kind⟩
      · obtain ⟨tags, closing, inner, closes, rfl⟩ := (yields_tag_leftParen kind).mp read
        obtain ⟨used, rfl, derives⟩ := (ih us shorter).2 tags _ inner
        refine ⟨token :: (used ++ [closing]), by simp, .tagGroup kind derives closes⟩
    refine ⟨one, fun tags rest read => ?_⟩
    obtain ⟨first, mid, more, inner, loop, rfl⟩ := yields_tagList.mp read
    have fewer := inner.1
    obtain ⟨used, rfl, derives⟩ := one first mid inner
    by_cases stops : Stops [.comma] mid
    · obtain ⟨rfl, rfl⟩ := (idle_moreTags.yields stops).mp loop
      exact ⟨used, rfl, .oneTag derives⟩
    · obtain ⟨comma, us, rfl, kind⟩ := exists_of_not_stops stops
      have comma_kind : comma.kind = .comma := by simpa using kind
      have shorter : us.length ≤ n := by
        simp only [List.length_append, List.length_cons] at h
        omega
      obtain ⟨used', rfl, derives'⟩ :=
        (ih us shorter).2 more rest ((yields_moreTags_comma comma_kind).mp loop)
      exact ⟨used ++ comma :: used', by simp, .moreTags derives comma_kind derives'⟩

theorem sound_tagList (read : Yields (tagList ts) tags rest) : Phrase .tags ts tags rest :=
  (sound_tags_aux ts.length ts (Nat.le_refl _)).2 tags rest read

/-! ### Operators -/

namespace OperatorLevel

variable {kinds : List Kind} {n : Nat} {before : List Token} {left : Node}
variable {operand whole : (ts : List Token) → Except Fault (Taken ts Node)}
variable {loop : Node → (ts : List Token) → Except Fault (Followed ts Node)}
variable {Operand Whole : List Token → Node → Prop}
variable (level : OperatorLevel kinds operand whole loop)
  (operands : ∀ {us node rest}, us.length ≤ n → Yields (operand us) node rest →
    ∃ used, us = used ++ rest ∧ Operand used node)
  (joined : ∀ {before used sign op left right}, Whole before left → sign.kind ∈ kinds →
    sign.kind.operator? = some op → Operand used right →
    Whole (before ++ sign :: used) (.binary left op right))

include level operands joined

/-- The tokens that a loop reads continue those of what is on the left. -/
theorem sound_loop (h : ts.length ≤ n) (derives : Whole before left)
    (read : Yields (loop left ts) node rest) :
    ∃ used, ts = used ++ rest ∧ Whole (before ++ used) node := by
  induction hk : ts.length using Nat.strongRecOn generalizing ts left before with
  | ind k ih =>
    subst hk
    by_cases stops : Stops kinds ts
    · obtain ⟨rfl, rfl⟩ := ((level.idle left).yields stops).mp read
      exact ⟨[], rfl, by simpa using derives⟩
    obtain ⟨sign, us, rfl, mem⟩ := exists_of_not_stops stops
    obtain ⟨op, stands⟩ := Option.isSome_iff_exists.mp (level.operators _ mem)
    obtain ⟨right, mid, inner, more⟩ := (level.yields_loop mem stands).mp read
    have fewer : us.length < (sign :: us).length := Nat.lt_succ_self _
    have fewer' := Nat.lt_trans inner.1 fewer
    obtain ⟨used, rfl, derives'⟩ := operands (Nat.le_trans fewer.le h) inner
    obtain ⟨used', rfl, whole⟩ := ih mid.length fewer' (Nat.le_trans fewer'.le h)
      (joined derives mem stands derives') more rfl
    refine ⟨sign :: (used ++ used'), by simp, ?_⟩
    simpa using whole

/-- A level reads phrases if they consist of one operand or of several with operators between
them. -/
theorem sound (single : ∀ {used node}, Operand used node → Whole used node)
    (h : ts.length ≤ n) (read : Yields (whole ts) node rest) :
    ∃ used, ts = used ++ rest ∧ Whole used node := by
  obtain ⟨left, mid, inner, more⟩ := level.yields.mp read
  have fewer := Nat.le_trans inner.1.le h
  obtain ⟨used, rfl, derives⟩ := operands h inner
  obtain ⟨used', rfl, derives'⟩ := level.sound_loop operands joined fewer (single derives) more
  exact ⟨used ++ used', by simp, derives'⟩

end OperatorLevel

/-! ### Formulas -/

/-- What the readers of formulas read from the tokens is a phrase. -/
structure SoundAt (ts : List Token) : Prop where
  formula {node : Node} {rest : List Token} : Yields (formula ts) node rest →
    Phrase .formula ts node rest
  addition {node : Node} {rest : List Token} : Yields (addition ts) node rest →
    Phrase .addition ts node rest
  signed {node : Node} {rest : List Token} : Yields (signed ts) node rest →
    Phrase .signed ts node rest
  atom {node : Node} {rest : List Token} : Yields (atom ts) node rest → Phrase .atom ts node rest

section Levels

variable {n : Nat} (below : ∀ us : List Token, us.length < n → SoundAt us)
variable {before : List Token}

include below

theorem sound_moreArguments {first : Node} (h : ts.length < n)
    (derives : Derives .addition before first) (read : Yields (moreArguments ts) items rest) :
    ∃ used, ts = used ++ rest ∧ Derives .items (before ++ used) (first :: items) := by
  induction hk : ts.length using Nat.strongRecOn generalizing ts items first before with
  | ind k ih =>
    subst hk
    by_cases stops : Stops [.comma] ts
    · obtain ⟨rfl, rfl⟩ := (idle_moreArguments.yields stops).mp read
      exact ⟨[], rfl, by simpa using .item derives⟩
    · obtain ⟨comma, us, rfl, kind⟩ := exists_of_not_stops stops
      have comma_kind : comma.kind = .comma := by simpa using kind
      have fewer : us.length < (comma :: us).length := Nat.lt_succ_self _
      obtain ⟨arg, mid, more, inner, loop, rfl⟩ := (yields_moreArguments_comma comma_kind).mp read
      have fewer' := Nat.lt_trans inner.1 fewer
      obtain ⟨used, rfl, next⟩ := (below us (Nat.lt_trans fewer h)).addition inner
      obtain ⟨used', rfl, derives'⟩ := ih mid.length fewer' (Nat.lt_trans fewer' h) next loop rfl
      exact ⟨comma :: (used ++ used'), by simp, .moreItems derives comma_kind derives'⟩

theorem sound_arguments {name opening : Token} (named : name.kind = .name)
    (opens : opening.kind = .leftParen) (h : ts.length < n)
    (read : Yields (arguments ts) items rest) :
    Phrase .atom (name :: opening :: ts) (.call name.text items) rest := by
  by_cases stops : Stops [.rightParen] ts
  · obtain ⟨first, mid, more, closing, inner, loop, closes, rfl⟩ := (yields_arguments stops).mp read
    have fewer := Nat.lt_trans inner.1 h
    obtain ⟨used, rfl, derives⟩ := (below ts h).addition inner
    obtain ⟨used', rfl, derives'⟩ := sound_moreArguments below fewer derives loop
    exact ⟨name :: opening :: (used ++ used' ++ [closing]), by simp,
      .call named opens derives' closes⟩
  · obtain ⟨closing, us, rfl, kind⟩ := exists_of_not_stops stops
    have closes : closing.kind = .rightParen := by simpa using kind
    obtain ⟨rfl, rfl⟩ := (yields_arguments_empty closes).mp read
    exact ⟨[name, opening, closing], rfl, .callEmpty named opens closes⟩

theorem sound_atom (h : ts.length ≤ n) (read : Yields (atom ts) node rest) :
    Phrase .atom ts node rest := by
  by_cases stops : Stops atomKinds ts
  · exact absurd read (not_yields_atom stops)
  obtain ⟨token, us, rfl, kind⟩ := exists_of_not_stops stops
  have fewer : us.length < n := h
  simp only [atomKinds, List.mem_cons, List.not_mem_nil, or_false] at kind
  rcases kind with kind | kind | kind | kind | kind
  · obtain ⟨m, writes, rfl, rfl⟩ := (yields_atom_integer kind).mp read
    exact ⟨[token], rfl, .integer kind writes⟩
  · obtain ⟨count, size, writes, rfl, rfl⟩ := (yields_atom_dice kind).mp read
    exact ⟨[token], rfl, .dice kind writes⟩
  · obtain ⟨rfl, rfl⟩ := (yields_atom_reference kind).mp read
    exact ⟨[token], rfl, .reference kind⟩
  · by_cases bare : Stops [.leftParen] us
    · obtain ⟨rfl, rfl⟩ := (yields_atom_name kind bare).mp read
      exact ⟨[token], rfl, .name kind⟩
    · obtain ⟨opening, vs, rfl, mem⟩ := exists_of_not_stops bare
      have opens : opening.kind = .leftParen := by simpa using mem
      obtain ⟨args, inner, rfl⟩ := (yields_atom_call kind opens).mp read
      exact sound_arguments below kind opens (Nat.lt_of_succ_lt fewer) inner
  · obtain ⟨inner, closing, formula, closes, rfl⟩ := (yields_atom_leftParen kind).mp read
    obtain ⟨used, rfl, derives⟩ := (below us fewer).formula formula
    exact ⟨token :: (used ++ [closing]), by simp, .parens kind derives closes⟩

theorem sound_suffixes (h : ts.length < n) (derives : Derives .value before node)
    (read : Yields (suffixes node ts) result rest) :
    ∃ used, ts = used ++ rest ∧ Derives .value (before ++ used) result := by
  induction hk : ts.length using Nat.strongRecOn generalizing ts node before with
  | ind k ih =>
    subst hk
    by_cases stops : Stops [.leftBracket, .dice, .name] ts
    · obtain ⟨rfl, rfl⟩ := ((idle_suffixes node).yields stops).mp read
      exact ⟨[], rfl, by simpa using derives⟩
    obtain ⟨token, us, rfl, kind⟩ := exists_of_not_stops stops
    have fewer : us.length < (token :: us).length := Nat.lt_succ_self _
    simp only [List.mem_cons, List.not_mem_nil, or_false] at kind
    rcases kind with kind | kind | kind
    · obtain ⟨tags, closing, mid, inner, closes, loop⟩ := (yields_suffixes_leftBracket kind).mp read
      have fewer' := Nat.lt_trans (Nat.lt_of_succ_lt inner.1) fewer
      obtain ⟨used, rfl, derives'⟩ := sound_tagList inner
      obtain ⟨used', rfl, more⟩ := ih mid.length fewer' (Nat.lt_trans fewer' h)
        (.tagged derives kind derives' closes) loop rfl
      refine ⟨token :: (used ++ closing :: used'), by simp, ?_⟩
      simpa using more
    · obtain ⟨digits, size, text, writes, loop⟩ := (yields_suffixes_dice kind).mp read
      obtain ⟨used, rfl, more⟩ := ih us.length fewer (Nat.lt_trans fewer h)
        (.sized derives kind text writes) loop rfl
      refine ⟨token :: used, rfl, ?_⟩
      simpa using more
    · obtain ⟨d, size, mid, inner, loop⟩ := (yields_suffixes_name kind).mp read
      have fewer' := Nat.lt_trans inner.1 fewer
      obtain ⟨used, rfl, derives'⟩ := (below us (Nat.lt_trans fewer h)).atom inner
      obtain ⟨used', rfl, more⟩ := ih mid.length fewer' (Nat.lt_trans fewer' h)
        (.sizedBy derives kind d derives') loop rfl
      refine ⟨token :: (used ++ used'), by simp, ?_⟩
      simpa using more

theorem sound_value (h : ts.length ≤ n) (read : Yields (value ts) node rest) :
    Phrase .value ts node rest := by
  obtain ⟨first, mid, inner, loop⟩ := yields_value.mp read
  have fewer := Nat.lt_of_lt_of_le inner.1 h
  obtain ⟨used, rfl, derives⟩ := sound_atom below h inner
  obtain ⟨used', rfl, derives'⟩ := sound_suffixes below fewer (.bare derives) loop
  exact ⟨used ++ used', by simp, derives'⟩

theorem sound_signed (h : ts.length ≤ n) (read : Yields (signed ts) node rest) :
    Phrase .signed ts node rest := by
  by_cases stops : Stops [.minus] ts
  · obtain ⟨used, rfl, derives⟩ := sound_value below h ((yields_signed_of_stops stops).mp read)
    exact ⟨used, rfl, .unsigned derives⟩
  · obtain ⟨minus, us, rfl, kind⟩ := exists_of_not_stops stops
    have minus_kind : minus.kind = .minus := by simpa using kind
    obtain ⟨inner, more, rfl⟩ := (yields_signed_minus minus_kind).mp read
    obtain ⟨used, rfl, derives⟩ := (below us h).signed more
    exact ⟨minus :: used, rfl, .negate minus_kind derives⟩

theorem sound_product (h : ts.length ≤ n) (read : Yields (product ts) node rest) :
    Phrase .product ts node rest := by
  refine operatorLevel_product.sound (sound_signed below) ?_ .factor h read
  intro before used sign op left right derives mem stands derives'
  exact .binaryProduct derives stands ((mem_productKinds stands).mp mem) derives'

theorem sound_addition (h : ts.length ≤ n) (read : Yields (addition ts) node rest) :
    Phrase .addition ts node rest := by
  refine operatorLevel_addition.sound (sound_product below) ?_ .summand h read
  intro before used sign op left right derives mem stands derives'
  exact .binarySum derives stands ((mem_sumKinds stands).mp mem) derives'

/-- The items after a first one, and perhaps a last comma. Where a comma follows the
first item, there is an item behind it or it is the last. -/
theorem sound_moreItems {first : Node} (h : ts.length < n)
    (derives : Derives .addition before first) (read : Yields (moreItems ts) items rest) :
    ∃ used trailing, ts = used ++ (trailing ++ rest) ∧
      Derives .items (before ++ used) (first :: items) ∧
      (trailing = [] ∧ (items = [] → Stops [.comma] ts) ∨
        ∃ comma : Token, trailing = [comma] ∧ comma.kind = .comma) := by
  induction hk : ts.length using Nat.strongRecOn generalizing ts items first before with
  | ind k ih =>
    subst hk
    by_cases stops : Stops [.comma] ts
    · obtain ⟨rfl, rfl⟩ := (idle_moreItems.yields stops).mp read
      exact ⟨[], [], rfl, by simpa using .item derives, .inl ⟨rfl, fun _ => stops⟩⟩
    obtain ⟨comma, us, rfl, kind⟩ := exists_of_not_stops stops
    have comma_kind : comma.kind = .comma := by simpa using kind
    have fewer : us.length < (comma :: us).length := Nat.lt_succ_self _
    by_cases last : AtEnd us
    · obtain ⟨rfl, rfl⟩ := (yields_moreItems_last comma_kind last).mp read
      exact ⟨[], [comma], rfl, by simpa using .item derives, .inr ⟨comma, rfl, comma_kind⟩⟩
    · obtain ⟨item, mid, more, inner, loop, rfl⟩ := (yields_moreItems_comma comma_kind last).mp read
      have fewer' := Nat.lt_trans inner.1 fewer
      obtain ⟨used, rfl, next⟩ := (below us (Nat.lt_trans fewer h)).addition inner
      obtain ⟨used', trailing, rfl, derives', ends⟩ :=
        ih mid.length fewer' (Nat.lt_trans fewer' h) next loop rfl
      refine ⟨comma :: (used ++ used'), trailing, by simp,
        .moreItems derives comma_kind derives', ?_⟩
      rcases ends with ⟨rfl, -⟩ | trails
      · exact .inl ⟨rfl, fun empty => nomatch empty⟩
      · exact .inr trails

theorem sound_formula (h : ts.length ≤ n) (read : Yields (formula ts) node rest) :
    Phrase .formula ts node rest := by
  obtain ⟨first, mid, inner, ends⟩ := yields_formula.mp read
  have fewer := Nat.lt_of_lt_of_le inner.1 h
  obtain ⟨used, rfl, derives⟩ := sound_addition below h inner
  rcases ends with ⟨-, rfl, rfl⟩ | ⟨goes, more, loop, rfl⟩
  · exact ⟨used, rfl, .single derives⟩
  obtain ⟨used', trailing, rfl, derives', trails⟩ := sound_moreItems below fewer derives loop
  rcases trails with ⟨rfl, nonempty⟩ | ⟨comma, rfl, kind⟩
  · have two : 2 ≤ (first :: more).length := by
      cases more with
      | nil => exact absurd (nonempty rfl) goes
      | cons second more => exact Nat.le_add_left 2 more.length
    exact ⟨used ++ used', by simp, .tuple derives' two⟩
  · exact ⟨used ++ used' ++ [comma], by simp, .trailing derives' kind⟩

end Levels

theorem soundAt (n : Nat) (ts : List Token) (h : ts.length < n) : SoundAt ts := by
  induction n generalizing ts with
  | zero => exact absurd h (Nat.not_lt_zero _)
  | succ n ih =>
    have atMost := Nat.le_of_lt_succ h
    exact
      { formula := sound_formula ih atMost
        addition := sound_addition ih atMost
        signed := sound_signed ih atMost
        atom := sound_atom ih atMost }

/-- A formula that is read is derived by the grammar. -/
theorem derives_of_yields_formula (read : Yields (formula ts) node []) :
    Derives .formula ts node := by
  obtain ⟨used, rfl, derives⟩ := (soundAt _ ts (Nat.lt_succ_self _)).formula read
  rwa [List.append_nil]

end RuleText.Formula.Parser
