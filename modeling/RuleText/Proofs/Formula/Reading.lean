import Mathlib.Logic.Basic
import RuleText.Formula.Parser
import RuleText.Proofs.Formula.Grammar
import RuleText.Proofs.Outcome

/-!
# What each reader does

Each function of the parser reads a phrase from the front of the tokens. For each of
them there is an equivalence that says when it succeeds (`Yields`) in terms of the
functions that it calls, one for each kind of token at which it goes its own way.
No later proof opens a function of the parser.
-/

namespace RuleText.Formula.Parser

section Yields

variable {α β γ : Type} {P Q : List Token → Prop}

/-- The reader succeeds with a result and leaves the tokens. -/
def Yields (read : Except Fault (α × { rest : List Token // P rest })) (a : α)
    (rest : List Token) : Prop :=
  ∃ h : P rest, read = .ok (a, ⟨rest, h⟩)

variable {a b : α} {ts rest : List Token}

theorem yields_ok {h : P ts} :
    Yields (Except.ok (a, ⟨ts, h⟩) : Except Fault (α × { rest // P rest })) b rest ↔
      a = b ∧ ts = rest := by
  constructor
  · rintro ⟨_, ⟨⟩⟩
    exact ⟨rfl, rfl⟩
  · rintro ⟨rfl, rfl⟩
    exact ⟨h, rfl⟩

theorem yields_pure {h : P ts} :
    Yields (pure (a, ⟨ts, h⟩) : Except Fault (α × { rest // P rest })) b rest ↔
      a = b ∧ ts = rest :=
  yields_ok

theorem not_yields_error {e : Fault} :
    ¬ Yields (Except.error e : Except Fault (α × { rest // P rest })) a rest := by
  rintro ⟨_, ⟨⟩⟩

/-- A reader after a computation that reads nothing. -/
theorem yields_bind_ok {first : Except Fault γ}
    {next : γ → Except Fault (β × { rest : List Token // Q rest })} {b : β} :
    Yields (first >>= next) b rest ↔ ∃ c, first = .ok c ∧ Yields (next c) b rest := by
  cases first with
  | error e =>
    constructor
    · rintro ⟨_, ⟨⟩⟩
    · rintro ⟨c, ⟨⟩, _⟩
  | ok c =>
    constructor
    · exact fun h => ⟨c, rfl, h⟩
    · rintro ⟨_, ⟨⟩, h⟩
      exact h

/-- One reader after another. -/
theorem yields_bind {read : Except Fault (α × { rest : List Token // P rest })}
    {next : α × { rest : List Token // P rest } →
      Except Fault (β × { rest : List Token // Q rest })}
    {b : β} :
    Yields (read >>= next) b rest ↔
      ∃ a mid, ∃ h : Yields read a mid, Yields (next (a, ⟨mid, h.1⟩)) b rest := by
  rw [yields_bind_ok]
  constructor
  · rintro ⟨⟨a, mid, h⟩, done, more⟩
    exact ⟨a, mid, ⟨h, done⟩, more⟩
  · rintro ⟨a, mid, ⟨h, done⟩, more⟩
    exact ⟨(a, ⟨mid, h⟩), done, more⟩

theorem expect_eq_ok {kind : Kind} {h : rest.length < ts.length} :
    expect kind ts = .ok ⟨rest, h⟩ ↔ ∃ token, ts = token :: rest ∧ token.kind = kind := by
  cases ts with
  | nil => simp at h
  | cons token ts =>
    by_cases same : token.kind = kind
    · simp [expect, same, and_assoc]
    · simp [expect, same, and_assoc]

/-- A reader after an expected token. -/
theorem yields_expect_bind {kind : Kind}
    {next : { rest : List Token // rest.length < ts.length } →
      Except Fault (α × { rest : List Token // P rest })} :
    Yields (expect kind ts >>= next) a rest ↔
      ∃ token mid, ∃ h : ts = token :: mid, token.kind = kind ∧
        Yields (next ⟨mid, h ▸ Nat.lt_succ_self _⟩) a rest := by
  rw [yields_bind_ok]
  constructor
  · rintro ⟨⟨mid, shorter⟩, done, more⟩
    obtain ⟨token, split, same⟩ := expect_eq_ok.mp done
    exact ⟨token, mid, split, same, more⟩
  · rintro ⟨token, mid, split, same, more⟩
    exact ⟨⟨mid, split ▸ Nat.lt_succ_self _⟩, expect_eq_ok.mpr ⟨token, split, same⟩, more⟩

end Yields

/-! ### The next token -/

/-- The tokens do not go on with one of the kinds. -/
def Stops (kinds : List Kind) (ts : List Token) : Prop :=
  ∀ token ∈ ts.head?, token.kind ∉ kinds

variable {kinds kinds' : List Kind} {token : Token} {ts rest : List Token}

theorem stops_nil : Stops kinds [] := by
  intro token h
  cases h

theorem stops_cons : Stops kinds (token :: ts) ↔ token.kind ∉ kinds := by
  simp [Stops]

theorem stops_of_mem (mem : token.kind ∈ kinds) (apart : ∀ kind ∈ kinds, kind ∉ kinds') :
    Stops kinds' (token :: ts) :=
  stops_cons.mpr (apart token.kind mem)

theorem Stops.mono (h : Stops kinds ts) (sub : kinds' ⊆ kinds) : Stops kinds' ts :=
  fun token ht mem => h token ht (sub mem)

theorem exists_of_not_stops (h : ¬ Stops kinds ts) :
    ∃ token us, ts = token :: us ∧ token.kind ∈ kinds := by
  cases ts with
  | nil => exact absurd stops_nil h
  | cons token us =>
    rw [stops_cons, not_not] at h
    exact ⟨token, us, rfl, h⟩

theorem startsWith_eq_true {kind : Kind} :
    startsWith kind ts = true ↔ ∃ token us, ts = token :: us ∧ token.kind = kind := by
  cases ts with
  | nil => simp [startsWith]
  | cons token us => simp [startsWith]

theorem startsWith_eq_false {kind : Kind} : startsWith kind ts = false ↔ Stops [kind] ts := by
  cases ts with
  | nil => simp [startsWith, stops_nil]
  | cons token us => simp [startsWith, stops_cons]

/-- Plus and minus stand for sums. -/
theorem mem_sumKinds {kind : Kind} {op : Operator} (stands : kind.operator? = some op) :
    kind ∈ [Kind.plus, .minus] ↔ op = .add ∨ op = .sub := by
  cases kind <;> cases stands <;> decide

/-- Star and slash stand for products. -/
theorem mem_productKinds {kind : Kind} {op : Operator} (stands : kind.operator? = some op) :
    kind ∈ [Kind.star, .slash] ↔ op = .mul ∨ op = .div := by
  cases kind <;> cases stands <;> decide

/-! ### Loops -/

/-- The reader reads nothing, with the result `a`, if the tokens do not go on with one of the
kinds. -/
def Idle {α : Type} (kinds : List Kind) (a : α)
    (read : (ts : List Token) → Except Fault (Followed ts α)) : Prop :=
  ∀ ts, Stops kinds ts → read ts = .ok (a, ⟨ts, Nat.le_refl _⟩)

section Idle

variable {α : Type} {a b : α} {read : (ts : List Token) → Except Fault (Followed ts α)}

theorem idle_of_cons (nil : read [] = .ok (a, ⟨[], Nat.le_refl _⟩))
    (cons : ∀ token ts, token.kind ∉ kinds →
      read (token :: ts) = .ok (a, ⟨token :: ts, Nat.le_refl _⟩)) :
    Idle kinds a read := by
  intro ts stops
  cases ts with
  | nil => exact nil
  | cons token ts => exact cons token ts (stops_cons.mp stops)

theorem Idle.yields (idle : Idle kinds a read) (stops : Stops kinds ts) :
    Yields (read ts) b rest ↔ a = b ∧ ts = rest := by
  rw [idle ts stops, yields_ok]

end Idle

/-- A level of the grammar with operators of the kinds: a first operand is read, and then a loop
reads an operand after each operator and joins it to what is on the left. -/
structure OperatorLevel (kinds : List Kind)
    (operand whole : (ts : List Token) → Except Fault (Taken ts Node))
    (loop : Node → (ts : List Token) → Except Fault (Followed ts Node)) : Prop where
  operators : ∀ kind ∈ kinds, kind.operator?.isSome
  first (ts : List Token) : whole ts = operand ts >>= fun left =>
    loop left.1 left.2.1 >>= fun node =>
      pure (node.1, ⟨node.2.1, Nat.lt_of_le_of_lt node.2.2 left.2.2⟩)
  idle (left : Node) : Idle kinds left (loop left)
  joins {op : Operator} (left : Node) (token : Token) (ts : List Token) : token.kind ∈ kinds →
    token.kind.operator? = some op → loop left (token :: ts) = operand ts >>= fun right =>
      loop (.binary left op right.1) right.2.1 >>= fun node =>
        pure (node.1, ⟨node.2.1, Nat.le_succ_of_le (Nat.le_trans node.2.2 right.2.2.le)⟩)

namespace OperatorLevel

variable {operand whole : (ts : List Token) → Except Fault (Taken ts Node)}
variable {loop : Node → (ts : List Token) → Except Fault (Followed ts Node)}
variable {op : Operator} {left node : Node}

theorem yields (level : OperatorLevel kinds operand whole loop) : Yields (whole ts) node rest ↔
    ∃ left mid, Yields (operand ts) left mid ∧ Yields (loop left mid) node rest := by
  rw [level.first]
  simp only [yields_bind, yields_pure, exists_prop, exists_eq_right_right, exists_eq_right]

theorem yields_loop (level : OperatorLevel kinds operand whole loop) (mem : token.kind ∈ kinds)
    (stands : token.kind.operator? = some op) : Yields (loop left (token :: ts)) node rest ↔
      ∃ right mid, Yields (operand ts) right mid ∧
        Yields (loop (.binary left op right) mid) node rest := by
  rw [level.joins left token ts mem stands]
  simp only [yields_bind, yields_pure, exists_prop, exists_eq_right_right, exists_eq_right]

end OperatorLevel

/-! ### Numbers and dice -/

theorem amount_eq_ok {digits : Text} {n : Amount} :
    amount token digits = .ok n ↔ Writes digits n := by
  unfold amount Writes
  rw [← Amount.fit?_eq_some_iff]
  cases Amount.fit? (Text.digitsValue digits) <;> simp

theorem diceSize_eq_ok {node : Node} :
    diceSize token = .ok node ↔
      ∃ digits size, token.text = 'd' :: digits ∧ Writes digits size ∧ .integer size = node := by
  unfold diceSize
  cases found : Text.after? ['d'] token.text with
  | none =>
    have other : ∀ digits, token.text ≠ 'd' :: digits := by
      intro digits same
      rw [same] at found
      simp [Text.after?] at found
    simp [other]
  | some digits =>
    have split : token.text = 'd' :: digits := Text.eq_of_after? found
    simp only [split, bind_eq_ok, amount_eq_ok, pure, Except.pure,
      Except.ok.injEq, List.cons.injEq, true_and]
    constructor
    · rintro ⟨size, writes, same⟩
      exact ⟨digits, size, rfl, writes, same⟩
    · rintro ⟨_, size, rfl, writes, same⟩
      exact ⟨size, writes, same⟩

theorem diceSides_eq_ok {digits : Text} {count : Amount} {node : Node} :
    (do
        let size ← amount token digits
        if count = 0 ∨ size = 0 then .error ⟨.zeroDice, some token⟩
        return .dice count size : Except Fault Node) = .ok node ↔
      ∃ size, Writes digits size ∧ count ≠ 0 ∧ size ≠ 0 ∧ .dice count size = node := by
  simp only [bind_eq_ok, amount_eq_ok]
  refine exists_congr fun size => and_congr_right fun _ => ?_
  by_cases zero : count = 0 ∨ size = 0
  · rw [if_pos zero]
    constructor
    · rintro ⟨⟩
    · rintro ⟨nonzero, nonzero', -⟩
      exact absurd zero (not_or.mpr ⟨nonzero, nonzero'⟩)
  · rw [if_neg zero]
    obtain ⟨nonzero, nonzero'⟩ := not_or.mp zero
    simp [pure, Except.pure, nonzero, nonzero']

/-- Reading dice whose text has been cut at its `d`. -/
theorem diceParts_eq_ok {counting digits : Text} {node : Node} :
    (do
        let count ← if counting = [] then .ok 1 else amount token counting
        let size ← amount token digits
        if count = 0 ∨ size = 0 then .error ⟨.zeroDice, some token⟩
        return .dice count size : Except Fault Node) = .ok node ↔
      ∃ count size, WritesCount counting count ∧ Writes digits size ∧ count ≠ 0 ∧ size ≠ 0 ∧
        .dice count size = node := by
  unfold WritesCount
  by_cases empty : counting = []
  · simp only [if_pos empty, exists_and_left, exists_eq_left]
    exact diceSides_eq_ok
  · simp only [if_neg empty, exists_and_left]
    refine bind_eq_ok.trans ?_
    exact exists_congr fun count => and_congr amount_eq_ok diceSides_eq_ok

theorem diceLiteral_eq_ok {node : Node} :
    diceLiteral token = .ok node ↔
      ∃ count size, WritesDice token.text count size ∧ .dice count size = node := by
  unfold diceLiteral
  cases found : Text.splitOnce 'd' token.text with
  | none =>
    constructor
    · intro h
      obtain ⟨count, size, -, writes, -, nonzero, -⟩ := diceParts_eq_ok.mp h
      have zero : size = 0 := Int64.toInt_inj.mp (show size.toInt = (0 : Amount).toInt from writes)
      exact absurd zero nonzero
    · rintro ⟨count, size, writes, -⟩
      generalize token.text = t at found writes
      obtain ⟨nod, -⟩ := writes
      rw [Text.splitOnce_append nod] at found
      cases found
  | some split =>
    obtain ⟨counting, digits⟩ := split
    obtain ⟨text, nod⟩ := Text.eq_of_splitOnce found
    refine diceParts_eq_ok.trans ?_
    rw [text]
    constructor
    · rintro ⟨count, size, counts, writes, nonzero, nonzero', same⟩
      exact ⟨count, size, .intro nod counts writes nonzero nonzero', same⟩
    · rintro ⟨count, size, writes, same⟩
      generalize split : counting ++ 'd' :: digits = t at writes
      obtain ⟨nod', counts, writes, nonzero, nonzero'⟩ := writes
      have cut := Text.splitOnce_append (b := digits) nod
      rw [split, Text.splitOnce_append nod'] at cut
      cases cut
      exact ⟨count, size, counts, writes, nonzero, nonzero', same⟩

/-! ### Tags -/

theorem idle_hyphenated (text : Text) (stop : Nat) : Idle [.minus] text (hyphenated text stop) := by
  refine idle_of_cons (by rw [hyphenated]) fun token ts other => ?_
  rw [hyphenated.eq_def]
  simp only [if_neg (List.mem_singleton.not.mp other)]

theorem yields_hyphenated_minus {text t : Text} {stop : Nat} (h : token.kind = .minus) :
    Yields (hyphenated text stop (token :: ts)) t rest ↔
      ∃ name us, ts = name :: us ∧ name.kind = .name ∧ token.start = stop ∧
        name.start = token.stop ∧
        Yields (hyphenated (text ++ token.text ++ name.text) name.stop us) t rest := by
  cases ts with
  | nil =>
    rw [hyphenated, if_pos h]
    simp [not_yields_error]
  | cons name us =>
    rw [hyphenated, if_pos h]
    by_cases named : name.kind = .name
    · by_cases touch : token.start = stop ∧ name.start = token.stop
      · simp only [if_pos named, if_pos touch, yields_bind, yields_pure, exists_prop,
          exists_eq_right_right, exists_eq_right]
        constructor
        · exact fun read => ⟨name, us, rfl, named, touch.1, touch.2, read⟩
        · rintro ⟨_, _, ⟨⟩, -, -, -, read⟩
          exact read
      · rw [if_pos named, if_neg touch]
        constructor
        · exact fun read => absurd read not_yields_error
        · rintro ⟨_, _, ⟨⟩, -, start, start', -⟩
          exact absurd ⟨start, start'⟩ touch
    · simp only [if_neg named]
      constructor
      · exact fun read => absurd read not_yields_error
      · rintro ⟨_, _, ⟨⟩, named', -⟩
        exact absurd named' named

variable {tags : List Node} {result : Node}

theorem yields_tag_name (h : token.kind = .name) :
    Yields (tag (token :: ts)) result rest ↔
      ∃ t, Yields (hyphenated token.text token.stop ts) t rest ∧ .name t = result := by
  rw [tag]
  simp only [h, yields_bind, yields_pure, exists_prop, exists_eq_right_right]

theorem yields_tag_reference (h : token.kind = .reference) :
    Yields (tag (token :: ts)) result rest ↔
      .reference (token.text.drop 1) = result ∧ ts = rest := by
  rw [tag]
  simp only [h, yields_ok]

theorem yields_tag_leftParen (h : token.kind = .leftParen) :
    Yields (tag (token :: ts)) result rest ↔
      ∃ tags closing, Yields (tagList ts) tags (closing :: rest) ∧ closing.kind = .rightParen ∧
        .tuple tags = result := by
  rw [tag]
  simp only [h, yields_bind, yields_expect_bind, yields_pure, exists_prop]
  constructor
  · rintro ⟨tags, _, read, closing, _, rfl, kind, same, rfl⟩
    exact ⟨tags, closing, read, kind, same⟩
  · rintro ⟨tags, closing, read, kind, same⟩
    exact ⟨tags, _, read, closing, rest, rfl, kind, same, rfl⟩

theorem not_yields_tag (h : Stops tagKinds ts) : ¬ Yields (tag ts) result rest := by
  cases ts with
  | nil =>
    rw [tag]
    exact not_yields_error
  | cons token ts =>
    have other := stops_cons.mp h
    rw [tag]
    split
    all_goals first | exact not_yields_error | simp_all [tagKinds]

theorem yields_tagList : Yields (tagList ts) tags rest ↔
    ∃ first mid more, Yields (tag ts) first mid ∧ Yields (moreTags mid) more rest ∧
      first :: more = tags := by
  rw [tagList]
  simp only [yields_bind, yields_pure, exists_prop, exists_eq_right_right]
  constructor
  · rintro ⟨first, mid, read, more, read', same⟩
    exact ⟨first, mid, more, read, read', same⟩
  · rintro ⟨first, mid, more, read, read', same⟩
    exact ⟨first, mid, read, more, read', same⟩

theorem idle_moreTags : Idle [.comma] [] moreTags := by
  refine idle_of_cons (by rw [moreTags]) fun token ts other => ?_
  rw [moreTags, if_neg (List.mem_singleton.not.mp other)]

theorem yields_moreTags_comma (h : token.kind = .comma) :
    Yields (moreTags (token :: ts)) tags rest ↔ Yields (tagList ts) tags rest := by
  rw [moreTags]
  simp only [if_pos h, yields_bind, yields_pure, exists_prop, exists_eq_right_right,
    exists_eq_right]

/-! ### Formulas -/

variable {node : Node} {items : List Node}

theorem yields_formula : Yields (formula ts) node rest ↔
    ∃ first mid, Yields (addition ts) first mid ∧
      (Stops [.comma] mid ∧ first = node ∧ mid = rest ∨
        ¬ Stops [.comma] mid ∧
          ∃ more, Yields (moreItems mid) more rest ∧ .tuple (first :: more) = node) := by
  rw [formula, yields_bind]
  refine exists_congr fun first => exists_congr fun mid => ?_
  -- What follows the first item decides whether it is one of a tuple.
  cases comma : startsWith .comma mid with
  | true =>
    have goes : ¬ Stops [.comma] mid := by simp [← startsWith_eq_false, comma]
    simp only [comma, if_true, yields_bind, yields_pure, exists_prop, exists_eq_right_right, goes,
      false_and, not_false_iff, true_and, false_or]
  | false =>
    have stops : Stops [.comma] mid := startsWith_eq_false.mp comma
    simp only [comma, Bool.false_eq_true, if_false, yields_pure, exists_prop, stops, true_and,
      not_true, false_and, or_false]

theorem idle_moreItems : Idle [.comma] [] moreItems := by
  refine idle_of_cons (by rw [moreItems]) fun token ts other => ?_
  rw [moreItems, if_neg (List.mem_singleton.not.mp other)]

/-- The end of a formula: no token, or a closing parenthesis. -/
def AtEnd (ts : List Token) : Prop :=
  ts = [] ∨ startsWith .rightParen ts = true

theorem yields_moreItems_last (h : token.kind = .comma) (last : AtEnd ts) :
    Yields (moreItems (token :: ts)) items rest ↔ [] = items ∧ ts = rest := by
  rw [moreItems]
  unfold AtEnd at last
  simp only [if_pos h, if_pos last, yields_ok]

theorem yields_moreItems_comma (h : token.kind = .comma) (more : ¬ AtEnd ts) :
    Yields (moreItems (token :: ts)) items rest ↔
      ∃ item mid items', Yields (addition ts) item mid ∧ Yields (moreItems mid) items' rest ∧
        item :: items' = items := by
  rw [moreItems]
  unfold AtEnd at more
  simp only [if_pos h, if_neg more, yields_bind, yields_pure, exists_prop, exists_eq_right_right]
  constructor
  · rintro ⟨item, mid, read, items', read', same⟩
    exact ⟨item, mid, items', read, read', same⟩
  · rintro ⟨item, mid, items', read, read', same⟩
    exact ⟨item, mid, read, items', read', same⟩

theorem operatorLevel_addition : OperatorLevel [.plus, .minus] product addition moreSummands where
  operators := by decide
  first ts := by rw [addition]
  idle left := by
    refine idle_of_cons (by rw [moreSummands]) fun token ts other => ?_
    rw [moreSummands]
    split
    · simp_all
    · simp_all
    · rfl
  joins {op} left token ts mem stands := by
    obtain ⟨kind, start, text⟩ := token
    rw [moreSummands]
    cases kind with
    | plus =>
      cases stands
      rfl
    | minus =>
      cases stands
      rfl
    | _ => simp at mem

theorem operatorLevel_product : OperatorLevel [.star, .slash] signed product moreFactors where
  operators := by decide
  first ts := by rw [product]
  idle left := by
    refine idle_of_cons (by rw [moreFactors]) fun token ts other => ?_
    rw [moreFactors]
    split
    · simp_all
    · simp_all
    · rfl
  joins {op} left token ts mem stands := by
    obtain ⟨kind, start, text⟩ := token
    rw [moreFactors]
    cases kind with
    | star =>
      cases stands
      rfl
    | slash =>
      cases stands
      rfl
    | _ => simp at mem

theorem yields_signed_minus (h : token.kind = .minus) :
    Yields (signed (token :: ts)) result rest ↔
      ∃ node, Yields (signed ts) node rest ∧ .negate node = result := by
  rw [signed]
  simp only [if_pos h, yields_bind, yields_pure, exists_prop, exists_eq_right_right]

theorem yields_signed_of_stops (h : Stops [.minus] ts) :
    Yields (signed ts) node rest ↔ Yields (value ts) node rest := by
  cases ts with
  | nil => rw [signed]
  | cons token ts =>
    have other : token.kind ≠ .minus := by simpa using stops_cons.mp h
    rw [signed, if_neg other]

theorem yields_value : Yields (value ts) result rest ↔
    ∃ first mid, Yields (atom ts) first mid ∧ Yields (suffixes first mid) result rest := by
  rw [value]
  simp only [yields_bind, yields_pure, exists_prop, exists_eq_right_right, exists_eq_right]

theorem idle_suffixes (node : Node) : Idle [.leftBracket, .dice, .name] node (suffixes node) := by
  refine idle_of_cons (by rw [suffixes]) fun token ts other => ?_
  rw [suffixes]
  split
  · simp_all
  · simp_all
  · simp_all
  · rfl

theorem yields_suffixes_leftBracket (h : token.kind = .leftBracket) :
    Yields (suffixes node (token :: ts)) result rest ↔
      ∃ tags closing mid, Yields (tagList ts) tags (closing :: mid) ∧
        closing.kind = .rightBracket ∧ Yields (suffixes (.tagged node tags) mid) result rest := by
  rw [suffixes]
  simp only [h, yields_bind, yields_expect_bind, yields_pure, exists_prop, exists_eq_right_right,
    exists_eq_right]
  constructor
  · rintro ⟨tags, _, read, closing, mid, rfl, kind, read'⟩
    exact ⟨tags, closing, mid, read, kind, read'⟩
  · rintro ⟨tags, closing, mid, read, kind, read'⟩
    exact ⟨tags, _, read, closing, mid, rfl, kind, read'⟩

theorem yields_suffixes_dice (h : token.kind = .dice) :
    Yields (suffixes node (token :: ts)) result rest ↔
      ∃ digits size, token.text = 'd' :: digits ∧ Writes digits size ∧
        Yields (suffixes (.diceCall node (.integer size)) ts) result rest := by
  rw [suffixes]
  simp only [h]
  rw [yields_bind_ok]
  simp only [yields_bind, yields_pure, exists_prop, exists_eq_right_right, exists_eq_right,
    diceSize_eq_ok]
  constructor
  · rintro ⟨_, ⟨digits, size, text, writes, rfl⟩, read⟩
    exact ⟨digits, size, text, writes, read⟩
  · rintro ⟨digits, size, text, writes, read⟩
    exact ⟨_, ⟨digits, size, text, writes, rfl⟩, read⟩

theorem yields_suffixes_name (h : token.kind = .name) :
    Yields (suffixes node (token :: ts)) result rest ↔ token.text = ['d'] ∧
      ∃ size mid, Yields (atom ts) size mid ∧
        Yields (suffixes (.diceCall node size) mid) result rest := by
  rw [suffixes]
  by_cases d : token.text = ['d']
  · simp only [h, d, if_true, yields_bind, yields_pure, exists_prop, exists_eq_right_right,
      exists_eq_right, true_and]
  · simp only [h, d, if_false, not_yields_error, false_and]

theorem not_yields_atom (h : Stops atomKinds ts) : ¬ Yields (atom ts) node rest := by
  cases ts with
  | nil =>
    rw [atom]
    exact not_yields_error
  | cons token ts =>
    have other := stops_cons.mp h
    rw [atom.eq_def]
    dsimp only
    split
    all_goals first | exact not_yields_error | simp_all [atomKinds]

theorem yields_atom_integer (h : token.kind = .integer) :
    Yields (atom (token :: ts)) node rest ↔
      ∃ n, Writes token.text n ∧ .integer n = node ∧ ts = rest := by
  rw [atom.eq_def]
  simp only [h, yields_bind_ok, yields_pure, amount_eq_ok]

theorem yields_atom_dice (h : token.kind = .dice) :
    Yields (atom (token :: ts)) node rest ↔
      ∃ count size, WritesDice token.text count size ∧ .dice count size = node ∧ ts = rest := by
  rw [atom.eq_def]
  simp only [h, yields_bind_ok, yields_pure, diceLiteral_eq_ok]
  constructor
  · rintro ⟨_, ⟨count, size, writes, rfl⟩, same, left⟩
    exact ⟨count, size, writes, same, left⟩
  · rintro ⟨count, size, writes, same, left⟩
    exact ⟨_, ⟨count, size, writes, rfl⟩, same, left⟩

theorem yields_atom_reference (h : token.kind = .reference) :
    Yields (atom (token :: ts)) node rest ↔
      .reference (token.text.drop 1) = node ∧ ts = rest := by
  rw [atom.eq_def]
  simp only [h, yields_ok]

theorem yields_atom_name (h : token.kind = .name) (stops : Stops [.leftParen] ts) :
    Yields (atom (token :: ts)) node rest ↔ .name token.text = node ∧ ts = rest := by
  rw [atom.eq_def]
  cases ts with
  | nil => simp only [h, yields_ok]
  | cons paren ts =>
    have other : paren.kind ≠ .leftParen := by simpa using stops_cons.mp stops
    simp only [h, if_neg other, yields_ok]

theorem yields_atom_call {opening : Token} (h : token.kind = .name)
    (paren : opening.kind = .leftParen) :
    Yields (atom (token :: opening :: ts)) node rest ↔
      ∃ args, Yields (arguments ts) args rest ∧ .call token.text args = node := by
  rw [atom.eq_def]
  simp only [h, if_pos paren, yields_bind, yields_pure, exists_prop, exists_eq_right_right]

theorem yields_atom_leftParen (h : token.kind = .leftParen) :
    Yields (atom (token :: ts)) node rest ↔
      ∃ inner closing, Yields (formula ts) inner (closing :: rest) ∧ closing.kind = .rightParen ∧
        .parens inner = node := by
  rw [atom.eq_def]
  simp only [h, yields_bind, yields_expect_bind, yields_pure, exists_prop]
  constructor
  · rintro ⟨inner, _, read, closing, _, rfl, kind, same, rfl⟩
    exact ⟨inner, closing, read, kind, same⟩
  · rintro ⟨inner, closing, read, kind, same⟩
    exact ⟨inner, _, read, closing, rest, rfl, kind, same, rfl⟩

theorem yields_arguments_empty (h : token.kind = .rightParen) :
    Yields (arguments (token :: ts)) items rest ↔ [] = items ∧ ts = rest := by
  have closes : startsWith .rightParen (token :: ts) = true :=
    startsWith_eq_true.mpr ⟨token, ts, rfl, h⟩
  rw [arguments]
  simp only [closes, if_true, yields_expect_bind, yields_pure]
  constructor
  · rintro ⟨_, _, ⟨⟩, -, same, left⟩
    exact ⟨same, left⟩
  · rintro ⟨same, left⟩
    exact ⟨token, ts, rfl, h, same, left⟩

theorem yields_arguments (h : Stops [.rightParen] ts) :
    Yields (arguments ts) items rest ↔
      ∃ first mid more closing, Yields (addition ts) first mid ∧
        Yields (moreArguments mid) more (closing :: rest) ∧ closing.kind = .rightParen ∧
        first :: more = items := by
  have opens : startsWith .rightParen ts = false := startsWith_eq_false.mpr h
  rw [arguments]
  simp only [opens, Bool.false_eq_true, if_false, yields_bind, yields_expect_bind, yields_pure,
    exists_prop]
  constructor
  · rintro ⟨first, mid, read, more, _, read', closing, _, rfl, kind, same, rfl⟩
    exact ⟨first, mid, more, closing, read, read', kind, same⟩
  · rintro ⟨first, mid, more, closing, read, read', kind, same⟩
    exact ⟨first, mid, read, more, _, read', closing, rest, rfl, kind, same, rfl⟩

theorem idle_moreArguments : Idle [.comma] [] moreArguments := by
  refine idle_of_cons (by rw [moreArguments]) fun token ts other => ?_
  rw [moreArguments, if_neg (List.mem_singleton.not.mp other)]

theorem yields_moreArguments_comma (h : token.kind = .comma) :
    Yields (moreArguments (token :: ts)) items rest ↔
      ∃ arg mid more, Yields (addition ts) arg mid ∧ Yields (moreArguments mid) more rest ∧
        arg :: more = items := by
  rw [moreArguments]
  simp only [if_pos h, yields_bind, yields_pure, exists_prop, exists_eq_right_right]
  constructor
  · rintro ⟨arg, mid, read, more, read', same⟩
    exact ⟨arg, mid, more, read, read', same⟩
  · rintro ⟨arg, mid, more, read, read', same⟩
    exact ⟨arg, mid, read, more, read', same⟩

theorem ofTokens_eq_ok : ofTokens ts = .ok node ↔ Yields (formula ts) node [] := by
  unfold ofTokens
  rw [bind_eq_ok]
  constructor
  · rintro ⟨⟨first, rest, h⟩, read, ends⟩
    cases rest with
    | nil =>
      cases ends
      exact ⟨h, read⟩
    | cons token rest => cases ends
  · rintro ⟨h, read⟩
    exact ⟨(node, ⟨[], h⟩), read, rfl⟩

/-- A text parses to a tree if all its tokens are read as a formula with this tree. -/
theorem parse_eq_ok_iff_yields {t : Text} :
    parse t = .ok node ↔ Yields (formula (Token.ofText t)) node [] := by
  rw [← ofTokens_eq_ok, parse]
  cases ofTokens (Token.ofText t) with
  | error fault => simp
  | ok tree => simp

end RuleText.Formula.Parser
