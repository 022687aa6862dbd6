import RuleText.Proofs.Formula.Alike
import RuleText.Proofs.Formula.Completeness

/-!
# Blanks between tokens

The parser asks for the place of a token only to see whether the pieces of a hyphenated tag touch.
Reader by reader and level by level, two runs on tokens that differ only in their places go hand
in hand until one of them stops at a detached tag. So blanks between tokens do not change a
formula: both texts have the same tree, or they are refused for the same cause at the same piece
of text (`parse_of_same_tokens`).
-/

namespace RuleText.Formula

namespace Parser

variable {ts ts' : List Token}

/-! ### Loops -/

section Loops

variable {kinds : List Kind}

/-- Two lists of tokens that go on with one of the kinds. -/
theorem exists_alike_of_not_stops (goes : ¬ Stops kinds ts) (h : AllAlike ts ts') :
    ∃ kind start start' text us us', ts = ⟨kind, start, text⟩ :: us ∧
      ts' = ⟨kind, start', text⟩ :: us' ∧ kind ∈ kinds ∧ AllAlike us us' := by
  cases h with
  | nil => exact absurd stops_nil goes
  | @cons _ _ us us' same more =>
    have mem := not_not.mp (stops_cons.not.mp goes)
    cases same with
    | intro kind start start' text =>
      exact ⟨kind, start, start', text, us, us', rfl, rfl, mem, more⟩

theorem stops_of_alike (stops : Stops kinds ts) (h : AllAlike ts ts') : Stops kinds ts' := by
  cases h with
  | nil => exact stops_nil
  | cons same _ =>
    have other := stops_cons.mp stops
    cases same
    exact stops_cons.mpr other

theorem Idle.agree {α : Type} {a : α} {read : (ts : List Token) → Except Fault (Followed ts α)}
    (idle : Idle kinds a read) (stops : Stops kinds ts) (h : AllAlike ts ts') :
    Agree Together (read ts) (read ts') := by
  rw [idle ts stops, idle ts' (stops_of_alike stops h)]
  exact .gives ⟨rfl, h⟩

namespace OperatorLevel

variable {n : Nat} {operand whole : (ts : List Token) → Except Fault (Taken ts Node)}
variable {loop : Node → (ts : List Token) → Except Fault (Followed ts Node)}
variable (level : OperatorLevel kinds operand whole loop)
  (operands : ∀ us us' : List Token, us.length ≤ n → AllAlike us us' →
    Agree Together (operand us) (operand us'))

include level operands

theorem agree_loop (left : Node) (atMost : ts.length ≤ n) (h : AllAlike ts ts') :
    Agree Together (loop left ts) (loop left ts') := by
  obtain ⟨k, length⟩ : ∃ k, ts.length = k := ⟨_, rfl⟩
  induction k using Nat.strongRecOn generalizing left ts ts' with
  | ind k ih =>
    by_cases stops : Stops kinds ts
    · exact (level.idle left).agree stops h
    obtain ⟨kind, start, start', text, us, us', rfl, rfl, mem, more⟩ :=
      exists_alike_of_not_stops stops h
    obtain ⟨op, stands⟩ := Option.isSome_iff_exists.mp (level.operators kind mem)
    rw [List.length_cons] at length atMost
    rw [level.joins left ⟨kind, start, text⟩ us mem stands,
      level.joins left ⟨kind, start', text⟩ us' mem stands]
    refine (operands us us' (by omega) more).bind_read fun right rest rest' less _ alike => ?_
    have loop := ih rest.length (by omega) (.binary left op right) (by omega) alike rfl
    exact loop.bind_read fun node _ _ _ _ alike => .gives ⟨rfl, alike⟩

theorem agree (atMost : ts.length ≤ n) (h : AllAlike ts ts') :
    Agree Together (whole ts) (whole ts') := by
  rw [level.first, level.first]
  refine (operands ts ts' atMost h).bind_read fun left rest rest' less _ alike => ?_
  have loop := level.agree_loop operands left (Nat.le_trans less.le atMost) alike
  exact loop.bind_read fun node _ _ _ _ alike => .gives ⟨rfl, alike⟩

end OperatorLevel

end Loops

/-! ### Tags -/

/-- The pieces of a tag touch in both texts, or one of the tags is detached. -/
theorem agree_hyphenated (text : Text) (stop stop' : Nat) (h : AllAlike ts ts') :
    Agree Together (hyphenated text stop ts) (hyphenated text stop' ts') := by
  obtain ⟨n, length⟩ : ∃ n, ts.length = n := ⟨_, rfl⟩
  induction n using Nat.strongRecOn generalizing ts ts' text stop stop' with
  | ind n ih =>
    cases h with
    | nil =>
      rw [hyphenated, hyphenated]
      exact .gives ⟨rfl, .nil⟩
    | cons same more =>
      cases same with
      | intro kind start start' sign =>
        by_cases minus : kind = .minus
        · cases more with
          | nil =>
            rw [hyphenated, hyphenated, if_pos minus, if_pos minus]
            exact .fails ⟨rfl, .none⟩
          | cons same more =>
            cases same with
            | intro kind' place place' piece =>
              rw [hyphenated, hyphenated, if_pos minus, if_pos minus]
              by_cases named : kind' = .name
              · rw [if_pos named, if_pos named]
                -- A run in which the pieces do not touch stops at a detached tag.
                split
                · split
                  · refine .bind_read (ih _ ?_ _ _ _ more rfl) fun t _ _ _ _ left => ?_
                    · simp only [← length, List.length_cons]
                      omega
                    · exact .gives ⟨rfl, left⟩
                  · exact .detached' _ rfl
                · exact .detached _ rfl
              · rw [if_neg named, if_neg named]
                exact .fails (.unexpected [.name] (.cons (.intro ..) more))
        · rw [hyphenated.eq_def, hyphenated.eq_def]
          simp only [if_neg minus]
          exact .gives ⟨rfl, .cons (.intro ..) more⟩

/-- Pieces that touch are one slice of the text. -/
theorem slice_append_pieces {t : Text} {pieces : List Token} {start stop : Nat}
    (stands : ∀ a ∈ pieces, t.slice a.start a.stop = a.text) (touch : Hyphenated stop pieces)
    (le : start ≤ stop) : t.slice start stop ++ pieces.flatMap Token.text =
      t.slice start ((pieces.map Token.stop).getLastD stop) := by
  induction touch with
  | nil stop => exact List.append_nil _
  | @cons minus name pieces _ _ next _ ih =>
    obtain ⟨sign, more⟩ := List.forall_mem_cons.mp stands
    obtain ⟨word, more⟩ := List.forall_mem_cons.mp more
    have signed : minus.start ≤ minus.stop := Nat.le_add_right _ _
    have named : minus.stop ≤ name.stop := next ▸ Nat.le_add_right _ _
    rw [List.map_cons, List.map_cons, List.getLastD_cons, List.getLastD_cons,
      ← ih more (le.trans (signed.trans named)), List.flatMap_cons, List.flatMap_cons, ← sign,
      ← word, next, ← List.append_assoc, ← List.append_assoc, t.slice_append_slice le signed,
      t.slice_append_slice (le.trans signed) named]

/-- The name of a tag is what stands in the formula from the start of its first piece to the end
of its last one. -/
theorem slice_of_tag {t name : Text} {rest : List Token}
    (stands : ∀ a ∈ ts, t.slice a.start a.stop = a.text)
    (read : Yields (tag ts) (.name name) rest) :
    ∃ first pieces, ts = first :: (pieces ++ rest) ∧
      name = t.slice first.start (pieces.getLastD first).stop := by
  by_cases stops : Stops tagKinds ts
  · exact absurd read (not_yields_tag stops)
  obtain ⟨first, us, rfl, kind⟩ := exists_of_not_stops stops
  simp only [tagKinds, List.mem_cons, List.not_mem_nil, or_false] at kind
  obtain ⟨here, more⟩ := List.forall_mem_cons.mp stands
  rcases kind with kind | kind | kind
  · obtain ⟨text, inner, same⟩ := (yields_tag_name kind).mp read
    obtain rfl := Node.name.inj same
    obtain ⟨pieces, rfl, touch, rfl⟩ := sound_hyphenated inner
    have last : (pieces.getLastD first).stop = (pieces.map Token.stop).getLastD first.stop := by
      rw [List.getLastD_eq_getLast?, List.getLastD_eq_getLast?, List.getLast?_map, Option.getD_map]
    refine ⟨first, pieces, rfl, ?_⟩
    rw [← here, last]
    exact slice_append_pieces (fun a ha => more a (List.mem_append_left _ ha)) touch
      (Nat.le_add_right _ _)
  · cases ((yields_tag_reference kind).mp read).1
  · obtain ⟨_, _, _, _, same⟩ := (yields_tag_leftParen kind).mp read
    cases same

section Tags

variable (below : ∀ us us' : List Token, us.length < ts.length → AllAlike us us' →
  Agree Together (tagList us) (tagList us'))

include below

theorem agree_tag (h : AllAlike ts ts') : Agree Together (tag ts) (tag ts') := by
  cases h with
  | nil =>
    rw [tag]
    exact .fails (.unexpected tagKinds .nil)
  | cons same more =>
    have unexpected := Fault.Alike.unexpected tagKinds (.cons same more)
    cases same with
    | intro kind start start' text =>
      rw [tag, tag]
      cases kind with
      | name =>
        refine (agree_hyphenated text _ _ more).bind_read fun t _ _ _ _ left => ?_
        exact .gives ⟨rfl, left⟩
      | reference => exact .gives ⟨rfl, more⟩
      | leftParen =>
        refine (below _ _ (Nat.lt_succ_self _) more).bind_read fun tags _ _ _ _ left => ?_
        refine (agree_expect .rightParen left).bind fun _ _ left => ?_
        exact .gives ⟨rfl, left⟩
      | _ => exact .fails unexpected

theorem agree_moreTags (h : AllAlike ts ts') :
    Agree Together (moreTags ts) (moreTags ts') := by
  by_cases stops : Stops [.comma] ts
  · exact idle_moreTags.agree stops h
  obtain ⟨kind, start, start', text, us, us', rfl, rfl, mem, more⟩ :=
    exists_alike_of_not_stops stops h
  rw [moreTags, moreTags]
  simp only [if_pos (List.mem_singleton.mp mem)]
  refine (below us us' (Nat.lt_succ_self _) more).bind_read fun tags _ _ _ _ left => ?_
  exact .gives ⟨rfl, left⟩

end Tags

theorem agree_tagList (h : AllAlike ts ts') : Agree Together (tagList ts) (tagList ts') := by
  obtain ⟨n, length⟩ : ∃ n, ts.length = n := ⟨_, rfl⟩
  induction n using Nat.strongRecOn generalizing ts ts' with
  | ind n ih =>
    have below : ∀ us us' : List Token, us.length < n → AllAlike us us' →
        Agree Together (tagList us) (tagList us') :=
      fun us us' fewer alike => ih us.length fewer alike rfl
    subst length
    rw [tagList, tagList]
    refine (agree_tag below h).bind_read fun first rest rest' fewer _ left => ?_
    have below' := fun us us' shorter => below us us' (Nat.lt_trans shorter fewer)
    exact (agree_moreTags below' left).bind_read fun more _ _ _ _ left => .gives ⟨rfl, left⟩

/-! ### Formulas -/

/-- The readers of formulas go hand in hand from tokens that differ only in places. -/
structure AgreeAt (ts ts' : List Token) : Prop where
  formula : Agree Together (formula ts) (formula ts')
  addition : Agree Together (addition ts) (addition ts')
  signed : Agree Together (signed ts) (signed ts')
  atom : Agree Together (atom ts) (atom ts')

-- The induction is on the number of tokens. Under the hypothesis for fewer tokens the readers are
-- taken from the atoms up, as they call each other on all their tokens in this order.
section Levels

variable {n : Nat}
  (below : ∀ us us' : List Token, us.length < n → AllAlike us us' → AgreeAt us us')

include below

theorem agree_moreArguments (fewer : ts.length < n) (h : AllAlike ts ts') :
    Agree Together (moreArguments ts) (moreArguments ts') := by
  obtain ⟨k, length⟩ : ∃ k, ts.length = k := ⟨_, rfl⟩
  induction k using Nat.strongRecOn generalizing ts ts' with
  | ind k ih =>
    by_cases stops : Stops [.comma] ts
    · exact idle_moreArguments.agree stops h
    obtain ⟨kind, start, start', text, us, us', rfl, rfl, mem, more⟩ :=
      exists_alike_of_not_stops stops h
    rw [List.length_cons] at length fewer
    rw [moreArguments, moreArguments]
    simp only [if_pos (List.mem_singleton.mp mem)]
    refine (below us us' (by omega) more).addition.bind_read fun arg rest rest' less _ left => ?_
    have loop := ih rest.length (by omega) (by omega) left rfl
    exact loop.bind_read fun args _ _ _ _ left => .gives ⟨rfl, left⟩

theorem agree_arguments (fewer : ts.length < n) (h : AllAlike ts ts') :
    Agree Together (arguments ts) (arguments ts') := by
  rw [arguments, arguments, startsWith_alike .rightParen h]
  split
  · exact (agree_expect .rightParen h).bind fun _ _ left => .gives ⟨rfl, left⟩
  · refine (below ts ts' fewer h).addition.bind_read fun first rest rest' less _ left => ?_
    have loop := agree_moreArguments below (Nat.lt_trans less fewer) left
    refine loop.bind_read fun more _ _ _ _ left => ?_
    exact (agree_expect .rightParen left).bind fun _ _ left => .gives ⟨rfl, left⟩

theorem agree_atom (atMost : ts.length ≤ n) (h : AllAlike ts ts') :
    Agree Together (atom ts) (atom ts') := by
  cases h with
  | nil =>
    rw [atom]
    exact .fails (.unexpected atomKinds .nil)
  | cons same more =>
    have unexpected := Fault.Alike.unexpected atomKinds (.cons same more)
    have integer := agree_amount same
    have dice := agree_diceLiteral same
    cases same with
    | intro kind start start' text =>
      rw [atom.eq_def, atom.eq_def]
      cases kind with
      | integer => exact (integer text).bind_value fun m => .gives ⟨rfl, more⟩
      | dice => exact dice.bind_value fun node => .gives ⟨rfl, more⟩
      | reference => exact .gives ⟨rfl, more⟩
      | name =>
        cases more with
        | nil => exact .gives ⟨rfl, .nil⟩
        | cons same more =>
          cases same with
          | intro kind place place' sign =>
            by_cases opens : kind = .leftParen
            · simp only [if_pos opens]
              have arguments := agree_arguments below (Nat.lt_of_succ_lt atMost) more
              exact arguments.bind_read fun args _ _ _ _ left => .gives ⟨rfl, left⟩
            · simp only [if_neg opens]
              exact .gives ⟨rfl, .cons (.intro ..) more⟩
      | leftParen =>
        refine (below _ _ atMost more).formula.bind_read fun node _ _ _ _ left => ?_
        exact (agree_expect .rightParen left).bind fun _ _ left => .gives ⟨rfl, left⟩
      | _ => exact .fails unexpected

theorem agree_suffixes (node : Node) (fewer : ts.length < n) (h : AllAlike ts ts') :
    Agree Together (suffixes node ts) (suffixes node ts') := by
  obtain ⟨k, length⟩ : ∃ k, ts.length = k := ⟨_, rfl⟩
  induction k using Nat.strongRecOn generalizing node ts ts' with
  | ind k ih =>
    cases h with
    | nil =>
      rw [suffixes]
      exact .gives ⟨rfl, .nil⟩
    | cons same more =>
      have size := agree_diceSize same
      have fewer' := Nat.lt_of_succ_lt fewer
      have again {us us' : List Token} (node : Node) (le : us.length < k) (left : AllAlike us us') :
          Agree Together (suffixes node us) (suffixes node us') :=
        ih us.length le node (by omega) left rfl
      cases same with
      | intro kind start start' text =>
        rw [List.length_cons] at length
        rw [suffixes, suffixes]
        cases kind with
        | leftBracket =>
          refine (agree_tagList more).bind_read fun tags rest rest' less _ left => ?_
          refine (agree_expect .rightBracket left).bind fun closed closed' left => ?_
          have less' := closed.2
          have loop := again (.tagged node tags) (by omega) left
          exact loop.bind_read fun node _ _ _ _ left => .gives ⟨rfl, left⟩
        | dice =>
          refine size.bind_value fun size => ?_
          have loop := again (.diceCall node size) (by omega) more
          exact loop.bind_read fun node _ _ _ _ left => .gives ⟨rfl, left⟩
        | name =>
          dsimp only
          split
          · refine (below _ _ fewer' more).atom.bind_read fun size rest rest' less _ left => ?_
            have loop := again (.diceCall node size) (by omega) left
            exact loop.bind_read fun node _ _ _ _ left => .gives ⟨rfl, left⟩
          · exact .fails ⟨rfl, .some (.intro ..)⟩
        | _ => exact .gives ⟨rfl, .cons (.intro ..) more⟩

theorem agree_value (atMost : ts.length ≤ n) (h : AllAlike ts ts') :
    Agree Together (value ts) (value ts') := by
  rw [value, value]
  refine (agree_atom below atMost h).bind_read fun node rest rest' less _ left => ?_
  have loop := agree_suffixes below node (Nat.lt_of_lt_of_le less atMost) left
  exact loop.bind_read fun node _ _ _ _ left => .gives ⟨rfl, left⟩

theorem agree_signed (atMost : ts.length ≤ n) (h : AllAlike ts ts') :
    Agree Together (signed ts) (signed ts') := by
  have value := agree_value below atMost h
  cases h with
  | nil =>
    rw [signed]
    exact value
  | cons same more =>
    cases same with
    | intro kind start start' text =>
      rw [signed, signed]
      by_cases minus : kind = .minus
      · simp only [if_pos minus]
        exact (below _ _ atMost more).signed.bind_read fun node _ _ _ _ left => .gives ⟨rfl, left⟩
      · simp only [if_neg minus]
        exact value

theorem agree_product (atMost : ts.length ≤ n) (h : AllAlike ts ts') :
    Agree Together (product ts) (product ts') :=
  operatorLevel_product.agree (fun _ _ => agree_signed below) atMost h

theorem agree_addition (atMost : ts.length ≤ n) (h : AllAlike ts ts') :
    Agree Together (addition ts) (addition ts') :=
  operatorLevel_addition.agree (fun _ _ => agree_product below) atMost h

theorem agree_moreItems (fewer : ts.length < n) (h : AllAlike ts ts') :
    Agree Together (moreItems ts) (moreItems ts') := by
  obtain ⟨k, length⟩ : ∃ k, ts.length = k := ⟨_, rfl⟩
  induction k using Nat.strongRecOn generalizing ts ts' with
  | ind k ih =>
    by_cases stops : Stops [.comma] ts
    · exact idle_moreItems.agree stops h
    obtain ⟨kind, start, start', text, us, us', rfl, rfl, mem, more⟩ :=
      exists_alike_of_not_stops stops h
    rw [List.length_cons] at length fewer
    rw [moreItems, moreItems]
    simp only [if_pos (List.mem_singleton.mp mem)]
    by_cases last : us = [] ∨ startsWith .rightParen us = true
    · rw [if_pos last, if_pos ((atEnd_alike more).mp last)]
      exact .gives ⟨rfl, more⟩
    · rw [if_neg last, if_neg fun last' => last ((atEnd_alike more).mpr last')]
      refine (below us us' (by omega) more).addition.bind_read fun item rest rest' less _ left => ?_
      have loop := ih rest.length (by omega) (by omega) left rfl
      exact loop.bind_read fun items _ _ _ _ left => .gives ⟨rfl, left⟩

theorem agree_formula (atMost : ts.length ≤ n) (h : AllAlike ts ts') :
    Agree Together (formula ts) (formula ts') := by
  rw [formula, formula]
  refine (agree_addition below atMost h).bind_read fun first rest rest' less _ left => ?_
  dsimp only
  rw [startsWith_alike .comma left]
  split
  · have loop := agree_moreItems below (Nat.lt_of_lt_of_le less atMost) left
    exact loop.bind_read fun more _ _ _ _ left => .gives ⟨rfl, left⟩
  · exact .gives ⟨rfl, left⟩

end Levels

theorem agreeAt (n : Nat) (ts ts' : List Token) (h : ts.length < n) (alike : AllAlike ts ts') :
    AgreeAt ts ts' := by
  induction n generalizing ts ts' with
  | zero => exact absurd h (Nat.not_lt_zero _)
  | succ n ih =>
    have atMost := Nat.le_of_lt_succ h
    exact
      { formula := agree_formula ih atMost alike
        addition := agree_addition ih atMost alike
        signed := agree_signed ih atMost alike
        atom := agree_atom ih atMost alike }

theorem agree_ofTokens (h : AllAlike ts ts') : Agree Eq (ofTokens ts) (ofTokens ts') := by
  have formula := (agreeAt _ ts ts' (Nat.lt_succ_self _) h).formula
  refine formula.bind_read fun node _ _ _ _ left => ?_
  cases left with
  | nil => exact .gives rfl
  | cons same more => exact .fails (.unexpected [] (.cons same more))

end Parser

/-! ### Texts with the same tokens -/

theorem Fault.Alike.slice {f f' : Fault} (h : f.Alike f') (t t' : Text) :
    (f.toError t).slice = (f'.toError t').slice := by
  obtain ⟨cause, token⟩ := f
  obtain ⟨cause', token'⟩ := f'
  obtain ⟨-, tokens⟩ := h
  cases tokens with
  | none => rfl
  | some same => exact Parser.text_eq_of_alike same

/-- The text is no formula because pieces of a hyphenated tag do not touch. -/
def Detached (t : Text) : Prop :=
  ∃ e, parse t = .error e ∧ e.cause = .detachedTag

theorem detached_of_fault {t : Text} {f : Fault} (h : Parser.ofTokens (Token.ofText t) = .error f)
    (cause : f.cause = .detachedTag) : Detached t :=
  ⟨f.toError t, by rw [parse, h], (cause_toError f t).trans cause⟩

theorem not_parse_of_detached {t : Text} (h : Detached t) (node : Node) : parse t ≠ .ok node := by
  obtain ⟨e, failed, -⟩ := h
  rw [failed]
  exact nofun

/-- The two runs have the same tree or like errors, unless one of them stops at a detached tag. -/
theorem outcomes_of_content {t t' : Text}
    (same : (Token.ofText t).map Token.content = (Token.ofText t').map Token.content) :
    (Detached t ∨ Detached t') ∨ (∃ node, parse t = .ok node ∧ parse t' = .ok node) ∨
      ∃ e e', parse t = .error e ∧ parse t' = .error e' ∧ e.cause = e'.cause ∧
        e.slice = e'.slice := by
  have agree := Parser.agree_ofTokens (allAlike_of_content same)
  generalize run : Parser.ofTokens (Token.ofText t) = result,
    run' : Parser.ofTokens (Token.ofText t') = result' at agree
  cases agree with
  | detached _ cause => exact .inl (.inl (detached_of_fault run cause))
  | detached' _ cause => exact .inl (.inr (detached_of_fault run' cause))
  | gives same =>
    subst same
    exact .inr (.inl ⟨_, by rw [parse, run], by rw [parse, run']⟩)
  | @fails f f' alike =>
    have cause : (f.toError t).cause = (f'.toError t').cause := by
      rw [cause_toError, cause_toError, alike.cause]
    exact .inr (.inr ⟨f.toError t, f'.toError t', by rw [parse, run], by rw [parse, run'], cause,
      alike.slice t t'⟩)

/-- Blanks between tokens do not change a formula.

If two texts have the same tokens, apart from their places, they differ only in blanks. If
neither has a detached tag, they are the same formula, or both are refused for the same cause at
the same piece of text. What the one text is as a formula the other one is too, unless it has a
detached tag. -/
theorem parse_of_same_tokens {t t' : Text}
    (same : (Token.ofText t).map Token.content = (Token.ofText t').map Token.content) :
    t.filter (· ∉ blanks) = t'.filter (· ∉ blanks) ∧
    (¬ Detached t → ¬ Detached t' →
      (∃ node, parse t = .ok node ∧ parse t' = .ok node) ∨
      ∃ e e', parse t = .error e ∧ parse t' = .error e' ∧ e.cause = e'.cause ∧
        e.slice = e'.slice) ∧
    ∀ node, (parse t = .ok node → parse t' = .ok node ∨ Detached t') ∧
      (parse t' = .ok node → parse t = .ok node ∨ Detached t) := by
  refine ⟨filter_eq_of_content same, fun whole whole' => ?_, fun node => ⟨fun read => ?_,
    fun read => ?_⟩⟩
  · exact (outcomes_of_content same).resolve_left (not_or.mpr ⟨whole, whole'⟩)
  · obtain (detached | detached) | ⟨node', run, run'⟩ | ⟨e, e', run, -⟩ := outcomes_of_content same
    · exact absurd read (not_parse_of_detached detached node)
    · exact .inr detached
    · obtain rfl := Except.ok.inj (run.symm.trans read)
      exact .inl run'
    · cases run.symm.trans read
  · obtain (detached | detached) | ⟨node', run, run'⟩ | ⟨e, e', -, run', -⟩ :=
      outcomes_of_content same
    · exact .inr detached
    · exact absurd read (not_parse_of_detached detached node)
    · obtain rfl := Except.ok.inj (run'.symm.trans read)
      exact .inl run
    · cases run'.symm.trans read

/-- A number and a tag of two pieces that do not touch. -/
theorem not_parse_spacedTag (node : Node) : parse "2 [a - b] + d6".toList ≠ .ok node := by
  have tokens : Token.ofText "2 [a - b] + d6".toList =
      [⟨.integer, 0, ['2']⟩, ⟨.leftBracket, 2, ['[']⟩, ⟨.name, 3, ['a']⟩, ⟨.minus, 5, ['-']⟩,
        ⟨.name, 7, ['b']⟩, ⟨.rightBracket, 8, [']']⟩, ⟨.plus, 10, ['+']⟩,
        ⟨.dice, 12, "d6".toList⟩] := by decide +kernel
  rw [Ne, Parser.parse_eq_ok_iff_yields, tokens, Parser.yields_formula]
  rintro ⟨_, _, whole, -⟩
  obtain ⟨_, _, product, -⟩ := Parser.operatorLevel_addition.yields.mp whole
  obtain ⟨_, _, signed, -⟩ := Parser.operatorLevel_product.yields.mp product
  rw [Parser.yields_signed_of_stops (Parser.stops_cons.mpr (by decide)), Parser.yields_value]
    at signed
  obtain ⟨_, _, atom, suffixes⟩ := signed
  obtain ⟨_, -, -, rfl⟩ := (Parser.yields_atom_integer rfl).mp atom
  obtain ⟨_, _, _, list, -, -⟩ := (Parser.yields_suffixes_leftBracket rfl).mp suffixes
  obtain ⟨_, _, _, tag, -, -⟩ := Parser.yields_tagList.mp list
  obtain ⟨_, hyphenated, -⟩ := (Parser.yields_tag_name rfl).mp tag
  obtain ⟨_, _, -, -, touching, -⟩ := (Parser.yields_hyphenated_minus rfl).mp hyphenated
  exact absurd touching (by decide)

/-- Blanks in a hyphenated tag detach it, whatever they do elsewhere. -/
theorem detached_spacedTag :
    (Token.ofText "2[a-b]+d6".toList).map Token.content =
      (Token.ofText "2 [a - b] + d6".toList).map Token.content ∧
    parse "2[a-b]+d6".toList =
      .ok (.binary (.tagged (.integer 2) [.name "a-b".toList]) .add (.dice 1 6)) ∧
    Detached "2 [a - b] + d6".toList := by
  have same : (Token.ofText "2[a-b]+d6".toList).map Token.content =
      (Token.ofText "2 [a - b] + d6".toList).map Token.content := by decide +kernel
  let two : Token := ⟨.integer, 0, ['2']⟩
  let opening : Token := ⟨.leftBracket, 1, ['[']⟩
  let name : Token := ⟨.name, 2, ['a']⟩
  let minus : Token := ⟨.minus, 3, ['-']⟩
  let name' : Token := ⟨.name, 4, ['b']⟩
  let closing : Token := ⟨.rightBracket, 5, [']']⟩
  let sign : Token := ⟨.plus, 6, ['+']⟩
  let die : Token := ⟨.dice, 7, "d6".toList⟩
  have tokens : Token.ofText "2[a-b]+d6".toList =
      [two] ++ opening :: ([name, minus, name'] ++ [closing]) ++ sign :: [die] := by
    decide +kernel
  have pieces : Hyphenated minus.start [minus, name'] := .cons rfl rfl rfl (.nil _)
  have number : Derives .value [two] (.integer 2) := .bare (.integer rfl rfl)
  have word : Derives .tags [name, minus, name'] [.name "a-b".toList] :=
    .oneTag (.tagName rfl pieces)
  have tagged : Derives .addition ([two] ++ opening :: ([name, minus, name'] ++ [closing])) _ :=
    .addition_of_value (.tagged number rfl word rfl)
  have dice : Derives .product [die] (.dice 1 6) :=
    .product_of_value (.bare (.dice rfl (writesDice_one rfl (by decide))))
  have read : parse "2[a-b]+d6".toList =
      .ok (.binary (.tagged (.integer 2) [.name "a-b".toList]) .add (.dice 1 6)) := by
    rw [parse_eq_ok_iff, tokens]
    exact .single (.binarySum tagged rfl (.inl rfl) dice)
  exact ⟨same, read,
    (((parse_of_same_tokens same).2.2 _).1 read).resolve_left (not_parse_spacedTag _)⟩

end RuleText.Formula
