import RuleText.Proofs.Formula.Soundness

/-!
# Every phrase is read

A phrase at the front of the tokens is read as a whole, if the tokens behind it do
not go on with a kind that the reader would take for a part of it. For each symbol
`Complete` says which kinds those are and what its reader does. A phrase of a
left-recursive symbol is read by the loop of its reader, so there the statement is
that reading goes on behind the phrase as if its tree had just been read.

With soundness a text parses to a tree exactly if the grammar derives the tree from
its tokens (`parse_eq_ok_iff_derives`), so the grammar is unambiguous.
-/

namespace RuleText.Formula.Parser

/-- The kinds that go on with an atom or a value. -/
def valueKinds : List Kind := [.leftParen, .leftBracket, .dice, .name]

/-- The kinds that go on with a factor. -/
def factorKinds : List Kind := .star :: .slash :: valueKinds

/-- The kinds that go on with a summand. -/
def summandKinds : List Kind := .plus :: .minus :: factorKinds

/-- The kinds that go on with an item. -/
def itemKinds : List Kind := .comma :: summandKinds

/-- The tokens behind the last item: those behind the formula, perhaps after a comma. -/
inductive Trailing : List Token → List Token → Prop
  | bare (rest : List Token) : Trailing rest rest
  | comma {token : Token} (kind : token.kind = .comma) (rest : List Token) :
      Trailing (token :: rest) rest

/-- Items at the front of the tokens are read in a tuple and in a call. -/
def CompleteItems (ts : List Token) (items : List Node) : Prop :=
  ∃ first more, items = first :: more ∧
    (∀ last rest, AtEnd rest → Trailing last rest →
      ∃ mid, Yields (addition (ts ++ last)) first mid ∧ Yields (moreItems mid) more rest ∧
        (more = [] ∧ mid = last ∨ more ≠ [] ∧ ¬ Stops [.comma] mid)) ∧
    ∀ rest, Stops itemKinds rest →
      ∃ mid, Yields (addition (ts ++ rest)) first mid ∧ Yields (moreArguments mid) more rest

/-- A phrase at the front of the tokens is read. -/
def Complete : (s : Symbol) → List Token → s.Tree → Prop
  | .formula, ts, node => ∀ rest, AtEnd rest → Yields (formula (ts ++ rest)) node rest
  | .items, ts, items => CompleteItems ts items
  | .addition, ts, left => ∀ rest node rest', Stops factorKinds rest →
      Yields (moreSummands left rest) node rest' → Yields (addition (ts ++ rest)) node rest'
  | .product, ts, left => ∀ rest node rest', Stops valueKinds rest →
      Yields (moreFactors left rest) node rest' → Yields (product (ts ++ rest)) node rest'
  | .signed, ts, node => ∀ rest, Stops valueKinds rest → Yields (signed (ts ++ rest)) node rest
  | .value, ts, value => ∀ rest node rest', Stops [.leftParen] rest →
      Yields (suffixes value rest) node rest' → Yields (Parser.value (ts ++ rest)) node rest'
  | .atom, ts, node => ∀ rest, Stops [.leftParen] rest → Yields (atom (ts ++ rest)) node rest
  | .tags, ts, tags => ∀ rest, Stops [.minus, .comma] rest → Yields (tagList (ts ++ rest)) tags rest
  | .tag, ts, node => ∀ rest, Stops [.minus] rest → Yields (tag (ts ++ rest)) node rest

variable {ts us rest : List Token} {node left right : Node} {items tags : List Node}
variable {token opening closing : Token} {op : Operator}

/-! ### Tags -/

theorem complete_hyphenated {text : Text} {stop : Nat} {pieces : List Token}
    (h : Hyphenated stop pieces) (stops : Stops [.minus] rest) :
    Yields (hyphenated text stop (pieces ++ rest)) (text ++ pieces.flatMap Token.text) rest := by
  induction h generalizing text with
  | nil stop =>
    rw [List.nil_append, (idle_hyphenated text stop).yields stops]
    simp
  | @cons minus name pieces minus_kind named touch _ ih =>
    have read : Yields (hyphenated (text ++ minus.text ++ name.text) name.stop (pieces ++ rest))
        (text ++ minus.text ++ name.text ++ pieces.flatMap Token.text) rest := ih
    rw [List.cons_append, yields_hyphenated_minus minus_kind]
    refine ⟨name, pieces ++ rest, rfl, named, rfl, touch, ?_⟩
    simpa using read

theorem complete_tagName {pieces : List Token} (named : token.kind = .name)
    (h : Hyphenated token.stop pieces) :
    Complete .tag (token :: pieces) (.name ((token :: pieces).flatMap Token.text)) := by
  intro rest stops
  rw [List.cons_append, yields_tag_name named]
  exact ⟨_, complete_hyphenated h stops, rfl⟩

theorem complete_tagGroup (opens : opening.kind = .leftParen) (h : Complete .tags ts tags)
    (closes : closing.kind = .rightParen) :
    Complete .tag (opening :: (ts ++ [closing])) (.tuple tags) := by
  intro rest _
  have stops : Stops [.minus, .comma] (closing :: rest) := by
    rw [stops_cons, closes]
    decide
  rw [List.cons_append, List.append_assoc, yields_tag_leftParen opens]
  exact ⟨tags, closing, h (closing :: rest) stops, closes, rfl⟩

theorem complete_oneTag (h : Complete .tag ts node) : Complete .tags ts [node] := by
  intro rest stops
  rw [yields_tagList]
  refine ⟨node, rest, [], h rest (stops.mono (by decide)), ?_, rfl⟩
  rw [idle_moreTags.yields (stops.mono (by decide))]
  exact ⟨rfl, rfl⟩

theorem complete_moreTags (h : Complete .tag ts node) (comma : token.kind = .comma)
    (h' : Complete .tags us tags) : Complete .tags (ts ++ token :: us) (node :: tags) := by
  intro rest stops
  have goes : Stops [.minus] (token :: (us ++ rest)) := by
    rw [stops_cons, comma]
    decide
  rw [List.append_assoc, List.cons_append, yields_tagList]
  refine ⟨node, token :: (us ++ rest), tags, h _ goes, ?_, rfl⟩
  rw [yields_moreTags_comma comma]
  exact h' rest stops

/-! ### How phrases start -/

theorem not_stops_of_yields_value (read : Yields (value ts) node rest) : ¬ Stops atomKinds ts := by
  obtain ⟨first, mid, inner, -⟩ := yields_value.mp read
  exact fun stops => not_yields_atom stops inner

theorem stops_minus_of_yields_value (read : Yields (value ts) node rest) : Stops [.minus] ts := by
  obtain ⟨token, us, rfl, kind⟩ := exists_of_not_stops (not_stops_of_yields_value read)
  rw [stops_cons]
  intro minus
  rw [List.mem_singleton.mp minus] at kind
  exact absurd kind (by decide)

theorem atEnd_cons : AtEnd (token :: ts) ↔ token.kind = .rightParen := by
  unfold AtEnd
  rw [startsWith_eq_true]
  constructor
  · rintro (empty | ⟨_, _, same, kind⟩)
    · cases empty
    · cases same
      exact kind
  · exact fun kind => .inr ⟨token, ts, rfl, kind⟩

theorem not_atEnd_of_yields_addition (read : Yields (addition ts) node rest) : ¬ AtEnd ts := by
  obtain ⟨left, mid, read, -⟩ := operatorLevel_addition.yields.mp read
  obtain ⟨left', mid', read, -⟩ := operatorLevel_product.yields.mp read
  have starts : ¬ Stops (.minus :: atomKinds) ts := by
    intro stops
    have value := (yields_signed_of_stops (stops.mono (by decide))).mp read
    exact not_stops_of_yields_value value (stops.mono (by decide))
  obtain ⟨token, us, rfl, kind⟩ := exists_of_not_stops starts
  rw [atEnd_cons]
  intro closes
  rw [closes] at kind
  exact absurd kind (by decide)

theorem AtEnd.stops (h : AtEnd ts) : Stops itemKinds ts := by
  cases ts with
  | nil => exact stops_nil
  | cons token ts =>
    rw [stops_cons, atEnd_cons.mp h]
    decide

/-! ### Atoms and values -/

theorem complete_integer {n : Amount} (kind : token.kind = .integer)
    (writes : Writes token.text n) :
    Complete .atom [token] (.integer n) := by
  intro rest _
  exact (yields_atom_integer kind).mpr ⟨n, writes, rfl, rfl⟩

theorem complete_dice {count size : Amount} (kind : token.kind = .dice)
    (writes : WritesDice token.text count size) : Complete .atom [token] (.dice count size) := by
  intro rest _
  exact (yields_atom_dice kind).mpr ⟨count, size, writes, rfl, rfl⟩

theorem complete_callEmpty (named : token.kind = .name) (opens : opening.kind = .leftParen)
    (closes : closing.kind = .rightParen) :
    Complete .atom [token, opening, closing] (.call token.text []) := by
  intro rest _
  refine (yields_atom_call named opens).mpr ⟨[], ?_, rfl⟩
  exact (yields_arguments_empty closes).mpr ⟨rfl, rfl⟩

theorem complete_call (named : token.kind = .name) (opens : opening.kind = .leftParen)
    (h : Complete .items ts items) (closes : closing.kind = .rightParen) :
    Complete .atom (token :: opening :: (ts ++ [closing])) (.call token.text items) := by
  intro rest _
  obtain ⟨first, more, rfl, -, args⟩ := h
  have stops : Stops itemKinds (closing :: rest) := by
    rw [stops_cons, closes]
    decide
  obtain ⟨mid, read, loop⟩ := args _ stops
  have opens' : Stops [.rightParen] (ts ++ closing :: rest) := by
    have going := not_atEnd_of_yields_addition read
    generalize ts ++ closing :: rest = vs at going
    cases vs with
    | nil => exact stops_nil
    | cons token vs => simpa [stops_cons, atEnd_cons] using going
  have split : token :: opening :: (ts ++ [closing]) ++ rest =
      token :: opening :: (ts ++ closing :: rest) := by simp
  rw [split, yields_atom_call named opens]
  refine ⟨first :: more, ?_, rfl⟩
  rw [yields_arguments opens']
  exact ⟨first, mid, more, closing, read, loop, closes, rfl⟩

theorem complete_parens (opens : opening.kind = .leftParen) (h : Complete .formula ts node)
    (closes : closing.kind = .rightParen) :
    Complete .atom (opening :: (ts ++ [closing])) (.parens node) := by
  intro rest _
  have last : AtEnd (closing :: rest) := atEnd_cons.mpr closes
  rw [List.cons_append, List.append_assoc, yields_atom_leftParen opens]
  exact ⟨node, closing, h _ last, closes, rfl⟩

theorem complete_bare (h : Complete .atom ts node) : Complete .value ts node := by
  intro rest result rest' stops loop
  exact yields_value.mpr ⟨node, rest, h rest stops, loop⟩

theorem complete_tagged (h : Complete .value ts node) (opens : opening.kind = .leftBracket)
    (h' : Complete .tags us tags) (closes : closing.kind = .rightBracket) :
    Complete .value (ts ++ opening :: (us ++ [closing])) (.tagged node tags) := by
  intro rest result rest' _ loop
  have stops : Stops [.leftParen] (opening :: (us ++ closing :: rest)) := by
    rw [stops_cons, opens]
    decide
  have stops' : Stops [.minus, .comma] (closing :: rest) := by
    rw [stops_cons, closes]
    decide
  have split : ts ++ opening :: (us ++ [closing]) ++ rest =
      ts ++ opening :: (us ++ closing :: rest) := by simp
  rw [split]
  refine h _ result rest' stops ((yields_suffixes_leftBracket opens).mpr ?_)
  exact ⟨tags, closing, rest, h' _ stops', closes, loop⟩

theorem complete_sized {digits : Text} {size : Amount} (h : Complete .value ts node)
    (kind : token.kind = .dice) (text : token.text = 'd' :: digits) (writes : Writes digits size) :
    Complete .value (ts ++ [token]) (.diceCall node (.integer size)) := by
  intro rest result rest' _ loop
  have stops : Stops [.leftParen] (token :: rest) := by
    rw [stops_cons, kind]
    decide
  rw [List.append_assoc]
  refine h _ result rest' stops ((yields_suffixes_dice kind).mpr ?_)
  exact ⟨digits, size, text, writes, loop⟩

theorem complete_sizedBy {size : Node} (h : Complete .value ts node) (named : token.kind = .name)
    (d : token.text = ['d']) (h' : Complete .atom us size) :
    Complete .value (ts ++ token :: us) (.diceCall node size) := by
  intro rest result rest' stops loop
  have stops' : Stops [.leftParen] (token :: (us ++ rest)) := by
    rw [stops_cons, named]
    decide
  rw [List.append_assoc, List.cons_append]
  refine h _ result rest' stops' ((yields_suffixes_name named).mpr ⟨d, ?_⟩)
  exact ⟨size, rest, h' rest stops, loop⟩

/-! ### Sums and products -/

theorem complete_unsigned (h : Complete .value ts node) : Complete .signed ts node := by
  intro rest stops
  have loop : Yields (suffixes node rest) node rest :=
    ((idle_suffixes node).yields (stops.mono (by decide))).mpr ⟨rfl, rfl⟩
  have read := h rest node rest (stops.mono (by decide)) loop
  exact (yields_signed_of_stops (stops_minus_of_yields_value read)).mpr read

theorem complete_negate (kind : token.kind = .minus) (h : Complete .signed ts node) :
    Complete .signed (token :: ts) (.negate node) := by
  intro rest stops
  exact (yields_signed_minus kind).mpr ⟨node, h rest stops, rfl⟩

theorem complete_factor (h : Complete .signed ts node) : Complete .product ts node := by
  intro rest result rest' stops loop
  exact operatorLevel_product.yields.mpr ⟨node, rest, h rest stops, loop⟩

theorem complete_binaryProduct (h : Complete .product ts left)
    (stands : token.kind.operator? = some op) (scale : op = .mul ∨ op = .div)
    (h' : Complete .signed us right) :
    Complete .product (ts ++ token :: us) (.binary left op right) := by
  intro rest result rest' stops loop
  have mem := (mem_productKinds stands).mpr scale
  have stops' : Stops valueKinds (token :: (us ++ rest)) := stops_of_mem mem (by decide)
  rw [List.append_assoc, List.cons_append]
  refine h _ result rest' stops' ((operatorLevel_product.yields_loop mem stands).mpr ?_)
  exact ⟨right, rest, h' rest stops, loop⟩

theorem complete_summand (h : Complete .product ts node) : Complete .addition ts node := by
  intro rest result rest' stops loop
  have ends : Yields (moreFactors node rest) node rest :=
    ((operatorLevel_product.idle node).yields (stops.mono (by decide))).mpr ⟨rfl, rfl⟩
  exact operatorLevel_addition.yields.mpr
    ⟨node, rest, h rest node rest (stops.mono (by decide)) ends, loop⟩

theorem complete_binarySum (h : Complete .addition ts left)
    (stands : token.kind.operator? = some op) (sum : op = .add ∨ op = .sub)
    (h' : Complete .product us right) :
    Complete .addition (ts ++ token :: us) (.binary left op right) := by
  intro rest result rest' stops loop
  have mem := (mem_sumKinds stands).mpr sum
  have stops' : Stops factorKinds (token :: (us ++ rest)) := stops_of_mem mem (by decide)
  have ends : Yields (moreFactors right rest) right rest :=
    ((operatorLevel_product.idle right).yields (stops.mono (by decide))).mpr ⟨rfl, rfl⟩
  rw [List.append_assoc, List.cons_append]
  refine h _ result rest' stops' ((operatorLevel_addition.yields_loop mem stands).mpr ?_)
  exact ⟨right, rest, h' rest right rest (stops.mono (by decide)) ends, loop⟩

/-! ### Items -/

/-- An item is read as a whole. -/
theorem Complete.addition (h : Complete .addition ts node) (stops : Stops summandKinds rest) :
    Yields (Parser.addition (ts ++ rest)) node rest := by
  have ends : Yields (moreSummands node rest) node rest :=
    ((operatorLevel_addition.idle node).yields (stops.mono (by decide))).mpr ⟨rfl, rfl⟩
  exact h rest node rest (stops.mono (by decide)) ends

theorem complete_item (h : Complete .addition ts node) : Complete .items ts [node] := by
  refine ⟨node, [], rfl, fun last rest ends trailing => ?_, fun rest stops => ?_⟩
  · refine ⟨last, h.addition ?_, ?_, .inl ⟨rfl, rfl⟩⟩
    · cases trailing with
      | bare => exact ends.stops.mono (by decide)
      | comma kind =>
        rw [stops_cons, kind]
        decide
    · cases trailing with
      | bare => exact (idle_moreItems.yields (ends.stops.mono (by decide))).mpr ⟨rfl, rfl⟩
      | comma kind => exact (yields_moreItems_last kind ends).mpr ⟨rfl, rfl⟩
  · refine ⟨rest, h.addition (stops.mono (by decide)), ?_⟩
    exact (idle_moreArguments.yields (stops.mono (by decide))).mpr ⟨rfl, rfl⟩

theorem complete_moreItems (h : Complete .addition ts node) (comma : token.kind = .comma)
    (h' : Complete .items us items) : Complete .items (ts ++ token :: us) (node :: items) := by
  obtain ⟨second, more, rfl, tuple, args⟩ := h'
  have stops (vs : List Token) : Stops summandKinds (token :: vs) := by
    rw [stops_cons, comma]
    decide
  refine ⟨node, second :: more, rfl, fun last rest ends trailing => ?_, fun rest ends => ?_⟩
  · obtain ⟨mid, read, loop, -⟩ := tuple last rest ends trailing
    refine ⟨token :: (us ++ last), ?_, ?_, .inr ⟨List.cons_ne_nil _ _, ?_⟩⟩
    · rw [List.append_assoc, List.cons_append]
      exact h.addition (stops _)
    · rw [yields_moreItems_comma comma (not_atEnd_of_yields_addition read)]
      exact ⟨second, mid, more, read, loop, rfl⟩
    · simp [stops_cons, comma]
  · obtain ⟨mid, read, loop⟩ := args rest ends
    refine ⟨token :: (us ++ rest), ?_, ?_⟩
    · rw [List.append_assoc, List.cons_append]
      exact h.addition (stops _)
    · rw [yields_moreArguments_comma comma]
      exact ⟨second, mid, more, read, loop, rfl⟩

theorem complete_single (h : Complete .addition ts node) : Complete .formula ts node := by
  intro rest ends
  have stops := ends.stops
  exact yields_formula.mpr ⟨node, rest, h.addition (stops.mono (by decide)),
    .inl ⟨stops.mono (by decide), rfl, rfl⟩⟩

theorem complete_tuple (h : Complete .items ts items) (two : 2 ≤ items.length) :
    Complete .formula ts (.tuple items) := by
  intro rest ends
  obtain ⟨first, more, rfl, tuple, -⟩ := h
  obtain ⟨mid, read, loop, commas⟩ := tuple rest rest ends (.bare rest)
  rcases commas with ⟨rfl, -⟩ | ⟨-, goes⟩
  · exact absurd two (Nat.not_succ_le_self 1)
  · exact yields_formula.mpr ⟨first, mid, read, .inr ⟨goes, more, loop, rfl⟩⟩

theorem complete_trailing (h : Complete .items ts items) (comma : token.kind = .comma) :
    Complete .formula (ts ++ [token]) (.tuple items) := by
  intro rest ends
  obtain ⟨first, more, rfl, tuple, -⟩ := h
  obtain ⟨mid, read, loop, commas⟩ := tuple (token :: rest) rest ends (.comma comma rest)
  have goes : ¬ Stops [.comma] mid := by
    rcases commas with ⟨-, rfl⟩ | ⟨-, goes⟩
    · simp [stops_cons, comma]
    · exact goes
  rw [List.append_assoc]
  exact yields_formula.mpr ⟨first, mid, read, .inr ⟨goes, more, loop, rfl⟩⟩

/-! ### All phrases -/

theorem complete {s : Symbol} {tree : s.Tree} (h : Derives s ts tree) : Complete s ts tree := by
  induction h with
  | single _ ih => exact complete_single ih
  | tuple _ two ih => exact complete_tuple ih two
  | trailing _ comma ih => exact complete_trailing ih comma
  | item _ ih => exact complete_item ih
  | moreItems _ comma _ ih ih' => exact complete_moreItems ih comma ih'
  | summand _ ih => exact complete_summand ih
  | binarySum _ stands sum _ ih ih' => exact complete_binarySum ih stands sum ih'
  | factor _ ih => exact complete_factor ih
  | binaryProduct _ stands scale _ ih ih' => exact complete_binaryProduct ih stands scale ih'
  | negate kind _ ih => exact complete_negate kind ih
  | unsigned _ ih => exact complete_unsigned ih
  | bare _ ih => exact complete_bare ih
  | tagged _ opens _ closes ih ih' => exact complete_tagged ih opens ih' closes
  | sized _ kind text writes ih => exact complete_sized ih kind text writes
  | sizedBy _ named d _ ih ih' => exact complete_sizedBy ih named d ih'
  | integer kind writes => exact complete_integer kind writes
  | dice kind writes => exact complete_dice kind writes
  | reference kind => exact fun rest _ => (yields_atom_reference kind).mpr ⟨rfl, rfl⟩
  | name kind => exact fun rest stops => (yields_atom_name kind stops).mpr ⟨rfl, rfl⟩
  | callEmpty named opens closes => exact complete_callEmpty named opens closes
  | call named opens _ closes ih => exact complete_call named opens ih closes
  | parens opens _ closes ih => exact complete_parens opens ih closes
  | oneTag _ ih => exact complete_oneTag ih
  | moreTags _ comma _ ih ih' => exact complete_moreTags ih comma ih'
  | tagName named pieces => exact complete_tagName named pieces
  | tagReference kind => exact fun rest _ => (yields_tag_reference kind).mpr ⟨rfl, rfl⟩
  | tagGroup opens _ closes ih => exact complete_tagGroup opens ih closes

theorem yields_formula_iff_derives : Yields (formula ts) node [] ↔ Derives .formula ts node := by
  constructor
  · exact derives_of_yields_formula
  · intro h
    have read := complete h [] (.inl rfl)
    rwa [List.append_nil] at read

end Parser

theorem parse_eq_ok_iff {t : Text} {node : Node} :
    parse t = .ok node ↔ Derives .formula (Token.ofText t) node :=
  Parser.parse_eq_ok_iff_yields.trans Parser.yields_formula_iff_derives

/-- A text parses to a tree exactly if the grammar derives the tree from its tokens.
So no text has two trees. -/
theorem parse_eq_ok_iff_derives (t : Text) :
    (∀ node : Node, parse t = .ok node ↔ Derives .formula (Token.ofText t) node) ∧
      ∀ node node' : Node, Derives .formula (Token.ofText t) node →
        Derives .formula (Token.ofText t) node' → node = node' := by
  refine ⟨fun node => parse_eq_ok_iff, fun node node' h h' => ?_⟩
  have same := (parse_eq_ok_iff.mpr h).symm.trans (parse_eq_ok_iff.mpr h')
  exact Except.ok.inj same

/-- Tagged dice and a number. -/
def taggedDice : Node :=
  .binary (.tagged (.dice 1 6) [.name "fire".toList]) .add (.integer 2)

theorem parse_taggedDice :
    parse "d6[fire]+2".toList = .ok taggedDice ∧
      ∀ node : Node, Derives .formula (Token.ofText "d6[fire]+2".toList) node →
        node = taggedDice := by
  let die : Token := ⟨.dice, 0, "d6".toList⟩
  let opening : Token := ⟨.leftBracket, 2, ['[']⟩
  let word : Token := ⟨.name, 3, "fire".toList⟩
  let closing : Token := ⟨.rightBracket, 7, [']']⟩
  let sign : Token := ⟨.plus, 8, ['+']⟩
  let number : Token := ⟨.integer, 9, ['2']⟩
  have tokens : Token.ofText "d6[fire]+2".toList =
      [die] ++ opening :: ([word] ++ [closing]) ++ sign :: [number] := by decide +kernel
  have dice : Derives .value [die] (.dice 1 6) :=
    .bare (.dice rfl (writesDice_one rfl (by decide)))
  have fire : Derives .tags [word] [.name "fire".toList] := .oneTag (.tagName rfl (.nil _))
  have two : Derives .product [number] (.integer 2) :=
    .product_of_value (.bare (.integer rfl rfl))
  have tagged : Derives .addition ([die] ++ opening :: ([word] ++ [closing])) _ :=
    .addition_of_value (.tagged dice rfl fire rfl)
  have derives : Derives .formula (Token.ofText "d6[fire]+2".toList) taggedDice := by
    rw [tokens]
    exact .single (.binarySum tagged rfl (.inl rfl) two)
  obtain ⟨parses, unique⟩ := parse_eq_ok_iff_derives "d6[fire]+2".toList
  exact ⟨(parses taggedDice).mpr derives, fun node h => unique node taggedDice h derives⟩

end RuleText.Formula
