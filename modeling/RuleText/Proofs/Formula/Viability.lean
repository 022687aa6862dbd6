import RuleText.Proofs.Formula.Refusal

/-!
# Expected tokens can come

The parts that are awaited stand in an order (`Ordered`), which feeding a token keeps: those that
begin something stand first or nowhere, and behind the items of a tuple there is a closing
parenthesis, if anything. So a kind that is expected where a token is refused is not refused by
the parts before the one that expects it (`Refuses.feed_expected`).

Whatever is awaited can be completed: the first part is begun if it has to be, then all open
parentheses and brackets are closed (`Ordered.outcome_completion`).
-/

namespace RuleText.Formula

open Formula.Parser

/-! ### The order of awaited parts -/

namespace Awaited

/-- The parts with which something begins. They are awaited first or not at all. -/
def leading : List Awaited :=
  [signed, atom, arguments, item, tag, piece]

/-- One part may be awaited right before another. -/
def Precedes (part next : Awaited) : Prop :=
  next ∉ leading ∧ (part = items ∨ part = item → next = closeParen)

instance (part next : Awaited) : Decidable (part.Precedes next) :=
  inferInstanceAs (Decidable (_ ∧ _))

end Awaited

/-- Neighbours among the awaited parts may stand so. -/
def Ordered (awaited : List Awaited) : Prop :=
  awaited.IsChain Awaited.Precedes

section Ordered

variable {part : Awaited} {awaited next more : List Awaited} {token : Token} {ts : List Token}

theorem ordered_successors (part : Awaited) : ∀ next ∈ part.successors, Ordered next ∧
    ∀ last ∈ next.getLast?, (last = .items ∨ last = .item) → (part = .items ∨ part = .item) := by
  unfold Ordered
  cases part <;> decide

theorem Ordered.feed (h : Ordered awaited) (fed : feed awaited token = .ok next) :
    Ordered next := by
  induction awaited with
  | nil => cases fed
  | cons part more ih =>
    obtain ⟨first, behind⟩ := List.isChain_cons.mp h
    obtain ⟨new, taken, rfl⟩ | ⟨-, fed⟩ := feed_cons_eq_ok.mp fed
    · obtain ⟨ordered, ends⟩ := ordered_successors part new (Awaited.take_mem taken)
      refine List.isChain_append.mpr ⟨ordered, behind, fun last mem part' mem' => ?_⟩
      obtain ⟨waits, closes⟩ := first part' mem'
      exact ⟨waits, fun tuple => closes (ends last mem tuple)⟩
    · exact ih behind fed

theorem Reaches.ordered (h : Reaches awaited ts next) (start : Ordered awaited) : Ordered next := by
  induction h with
  | refl => exact start
  | step fed _ ih => exact ih (start.feed fed)

theorem ordered_wholeFormula : Ordered wholeFormula := by
  unfold Ordered
  decide

/-- Only the first part is one of those that may not be left out. -/
theorem Ordered.waits (h : Ordered (part :: more)) : ∀ next ∈ more, next ∉ Awaited.leading := by
  induction more generalizing part with
  | nil => simp
  | cons next more ih =>
    obtain ⟨first, behind⟩ := List.isChain_cons_cons.mp h
    exact List.forall_mem_cons.mpr ⟨first.1, ih behind⟩

end Ordered

/-! ### Expected kinds can come -/

section Expected

variable {part : Awaited} {awaited next more : List Awaited} {kind : Kind} {kinds : List Kind}
  {token : Token} {ts : List Token} {fault : Fault}

theorem Awaited.known_kinds (part : Awaited) :
    ∀ kind ∈ part.kinds, kind ≠ .unknown ∧ kind ≠ .minus := by
  cases part <;> decide

/-- A part begins with each of the kinds that it expects. -/
theorem Awaited.take_expected (mem : kind ∈ part.kinds) (sample : token.content = kind.content) :
    ∃ next, part.take token = .ok (some next) := by
  obtain ⟨found, start, text⟩ := token
  obtain ⟨rfl, rfl⟩ : found = kind ∧ text = kind.sample := Prod.mk.inj sample
  cases part with
  | signed | atom | arguments | item =>
    simp only [kinds, atomKinds, List.mem_cons, List.not_mem_nil, or_false] at mem
    obtain rfl | rfl | rfl | rfl | rfl := mem <;> exact ⟨_, rfl⟩
  | tag =>
    simp only [kinds, tagKinds, List.mem_cons, List.not_mem_nil, or_false] at mem
    obtain rfl | rfl | rfl := mem <;> exact ⟨_, rfl⟩
  | piece | suffixes | closeParen | closeBracket =>
    obtain rfl := List.mem_singleton.mp mem
    exact ⟨_, rfl⟩
  | _ => cases mem

/-- A part that may be left out does not refuse what closes others, nor a bracket that opens,
unless it is an item. -/
theorem Awaited.take_closing (skips : part.missing = none) (other : part ≠ .item)
    (closing : kind = .leftBracket ∨ kind = .rightParen ∨ kind = .rightBracket)
    (same : token.kind = kind) : ∃ taken, part.take token = .ok taken := by
  subst same
  cases part with
  | signed | atom | arguments | tag | piece | closeParen | closeBracket => cases skips
  | item => exact absurd rfl other
  | items | call | moreArguments | moreTags | hyphens => exact ⟨_, rfl⟩
  | suffixes | factors | summands =>
    rw [take]
    obtain closing | closing | closing := closing <;> rw [closing] <;> exact ⟨_, rfl⟩

theorem Awaited.eq_kinds (h : part.meet ts = .error fault)
    (said : fault.cause.expected? = some kinds) : kinds = part.kinds := by
  obtain rfl | ⟨token, -, bad⟩ := (complains_of_meet h).2
  · rw [Fault.expected?_unexpected] at said
    exact (Option.some.inj said).symm
  · rw [bad.expected?] at said
    cases said

theorem Refuses.kinds_eq (h : Refuses awaited ts fault)
    (said : fault.cause.expected? = some kinds) :
    kinds = [] ∨ ∃ part ∈ awaited, kinds = part.kinds := by
  induction h with
  | surplus token ts =>
    rw [Fault.expected?_unexpected] at said
    exact .inl (Option.some.inj said).symm
  | @here part more ts fault met =>
    exact .inr ⟨part, List.mem_cons_self, Awaited.eq_kinds met said⟩
  | behind _ _ ih =>
    obtain empty | ⟨part, mem, eq⟩ := ih said
    · exact .inl empty
    · exact .inr ⟨part, List.mem_cons_of_mem _ mem, eq⟩

theorem Refuses.known (h : Refuses awaited ts fault)
    (said : fault.cause.expected? = some kinds) :
    ∀ kind ∈ kinds, kind ≠ .unknown ∧ kind ≠ .minus := by
  obtain rfl | ⟨part, -, rfl⟩ := h.kinds_eq said
  · nofun
  · exact part.known_kinds

theorem Awaited.closing_kinds (waits : part ∉ leading) :
    ∀ kind ∈ part.kinds, kind = .leftBracket ∨ kind = .rightParen ∨ kind = .rightBracket := by
  cases part with
  | signed | atom | arguments | item | tag | piece => exact absurd (by decide) waits
  | _ => decide

/-- A part that is left out before a token does not refuse what is expected behind it. -/
theorem Ordered.take_expected (h : Ordered (part :: more)) (left_out : part.meet ts = .ok none)
    (refuses : Refuses more ts fault) (said : fault.cause.expected? = some kinds)
    (mem : kind ∈ kinds) (same : token.kind = kind) : ∃ taken, part.take token = .ok taken := by
  have skips := Awaited.missing_of_meet left_out
  obtain empty | ⟨part', mem', eq⟩ := refuses.kinds_eq said
  · rw [empty] at mem
    cases mem
  have closing := Awaited.closing_kinds (h.waits part' mem') kind (eq ▸ mem)
  by_cases tuple : part = .item
  · subst tuple
    -- Behind the items of a tuple there is a parenthesis, which is not left out.
    have paren : kind = .rightParen := by
      cases refuses with
      | surplus => cases mem'
      | @here next more _ _ met =>
        obtain ⟨first, -⟩ := List.isChain_cons_cons.mp h
        obtain rfl := first.2 (.inr rfl)
        rw [Awaited.eq_kinds met said] at mem
        exact List.mem_singleton.mp mem
      | @behind next more _ _ met _ =>
        obtain ⟨first, -⟩ := List.isChain_cons_cons.mp h
        obtain rfl := first.2 (.inr rfl)
        cases Awaited.missing_of_meet met
    exact ⟨none, if_pos (same.trans paren)⟩
  · exact Awaited.take_closing skips tuple closing same

/-- Where a token is refused, every kind that is expected can come instead. -/
theorem Refuses.feed_expected (h : Refuses awaited ts fault) (ordered : Ordered awaited)
    (said : fault.cause.expected? = some kinds) (mem : kind ∈ kinds)
    (sample : token.content = kind.content) : ∃ next, feed awaited token = .ok next := by
  induction h with
  | surplus token ts =>
    rw [Fault.expected?_unexpected] at said
    cases said
    cases mem
  | @here part more ts fault met =>
    rw [Awaited.eq_kinds met said] at mem
    obtain ⟨next, taken⟩ := Awaited.take_expected mem sample
    exact ⟨next ++ more, feed_cons_eq_ok.mpr (.inl ⟨next, taken, rfl⟩)⟩
  | @behind part more ts fault met refuses ih =>
    have same : token.kind = kind := congrArg Prod.fst sample
    obtain ⟨taken, first⟩ := ordered.take_expected met refuses said mem same
    cases taken with
    | some next => exact ⟨next ++ more, feed_cons_eq_ok.mpr (.inl ⟨next, first, rfl⟩)⟩
    | none =>
      obtain ⟨next, fed⟩ := ih (List.IsChain.tail ordered) said
      exact ⟨next, feed_cons_eq_ok.mpr (.inr ⟨first, fed⟩)⟩

/-- Where nothing is expected, the formula can end. -/
theorem Refuses.ends (h : Refuses awaited ts fault) (said : fault.cause.expected? = some []) :
    outcome awaited [] = none := by
  induction h with
  | surplus => rfl
  | here met => exact absurd (Awaited.eq_kinds met said).symm (Awaited.complains_of_meet met).1
  | behind met _ ih => exact (outcome_of_left_out (Awaited.missing_of_meet met)).trans (ih said)

end Expected

/-! ### A completion -/

/-- The kind that closes a part, if it has to be closed. -/
def Awaited.closer? : Awaited → Option Kind
  | closeParen => some .rightParen
  | closeBracket => some .rightBracket
  | _ => none

section Completion

variable {part : Awaited} {awaited more : List Awaited} {kind : Kind} {token : Token}
  {ts : List Token}

theorem Awaited.take_closer (closes : part.closer? = some kind) (same : token.kind = kind) :
    part.take token = .ok (some []) := by
  cases part <;> cases closes <;> exact required_of_kind same

/-- A part that neither leads nor closes is left out before what closes another. -/
theorem Awaited.skip_closer (waits : part ∉ leading) (stays : part.closer? = none)
    (closer : token.kind = .rightParen ∨ token.kind = .rightBracket) :
    part.take token = .ok none := by
  cases part with
  | signed | atom | arguments | item | tag | piece => exact absurd (by decide) waits
  | closeParen | closeBracket => cases stays
  | suffixes | factors | summands =>
    rw [take]
    obtain closer | closer := closer <;> rw [closer]
  | items | call | moreArguments | moreTags | hyphens =>
    obtain closer | closer := closer <;>
      exact optionally_of_ne (by rw [closer]; decide)

theorem mem_closers (mem : kind ∈ awaited.filterMap Awaited.closer?) :
    kind = .rightParen ∨ kind = .rightBracket := by
  obtain ⟨part, -, closes⟩ := List.mem_filterMap.mp mem
  cases part <;> cases closes <;> simp

/-- Where no part leads, it is enough to close what is open. -/
theorem outcome_closers (waits : ∀ part ∈ awaited, part ∉ Awaited.leading)
    (closes : ts.map Token.kind = awaited.filterMap Awaited.closer?) :
    outcome awaited ts = none := by
  induction awaited generalizing ts with
  | nil =>
    obtain rfl := List.map_eq_nil_iff.mp closes
    rfl
  | cons part more ih =>
    obtain ⟨first, behind⟩ := List.forall_mem_cons.mp waits
    cases closer : part.closer? with
    | some kind =>
      rw [List.filterMap_cons_some closer] at closes
      obtain ⟨token, ts, rfl, same, closes⟩ := List.map_eq_cons_iff.mp closes
      exact (outcome_of_take (Awaited.take_closer closer same)).trans (ih behind closes)
    | none =>
      rw [List.filterMap_cons_none closer] at closes
      have done := ih behind closes
      cases ts with
      | nil =>
        have skipped : part.meet [⟨.rightParen, 0, [')']⟩] = .ok none :=
          Awaited.skip_closer first closer (.inl rfl)
        exact (outcome_of_left_out (Awaited.missing_of_meet skipped)).trans done
      | cons token ts =>
        have mem : token.kind ∈ more.filterMap Awaited.closer? := closes ▸ List.mem_cons_self
        exact (outcome_of_skip (Awaited.skip_closer first closer (mem_closers mem))).trans done

/-- The token with which a leading part is begun, and what is awaited instead then. -/
def Awaited.begin : Awaited → Kind × List Awaited
  | arguments => (.rightParen, [])
  | item => (.integer, [suffixes, factors, summands, items])
  | tag | piece => (.name, [hyphens])
  | atom => (.integer, [])
  | _ => (.integer, [suffixes])

theorem Awaited.take_begin (leads : part ∈ leading)
    (sample : token.content = part.begin.1.content) :
    part.take token = .ok (some part.begin.2) := by
  obtain ⟨found, start, text⟩ := token
  obtain ⟨rfl, rfl⟩ : found = part.begin.1 ∧ text = part.begin.1.sample := Prod.mk.inj sample
  cases part with
  | signed | atom | arguments | item | tag | piece => rfl
  | _ => exact absurd leads (by decide)

theorem Awaited.waits_begin (part : Awaited) :
    (∀ next ∈ part.begin.2, next ∉ leading) ∧ part.begin.2.filterMap closer? = [] := by
  cases part <;> decide

theorem Awaited.known_begin (part : Awaited) :
    part.begin.1 ≠ .unknown ∧ part.begin.1 ≠ .minus := by
  cases part <;> decide

/-- The kinds of the tokens with which a formula is completed. -/
def completion : List Awaited → List Kind
  | [] => []
  | part :: more =>
    if part ∈ Awaited.leading then part.begin.1 :: more.filterMap Awaited.closer?
    else (part :: more).filterMap Awaited.closer?

theorem known_completion (awaited : List Awaited) :
    ∀ kind ∈ completion awaited, kind ≠ .unknown ∧ kind ≠ .minus := by
  have closer {parts : List Awaited} {kind : Kind} (mem : kind ∈ parts.filterMap Awaited.closer?) :
      kind ≠ .unknown ∧ kind ≠ .minus := by
    obtain rfl | rfl := mem_closers mem <;> decide
  cases awaited with
  | nil => nofun
  | cons part more =>
    rw [completion]
    split
    · exact List.forall_mem_cons.mpr ⟨part.known_begin, fun _ => closer⟩
    · exact fun _ => closer

theorem Ordered.outcome_completion (h : Ordered awaited)
    (samples : ts.map Token.content = (completion awaited).map Kind.content) :
    outcome awaited ts = none := by
  cases awaited with
  | nil =>
    obtain rfl := List.map_eq_nil_iff.mp samples
    rfl
  | cons part more =>
    have waits := h.waits
    rw [completion] at samples
    split at samples
    · next leads =>
      obtain ⟨token, ts, rfl, sample, samples⟩ := List.map_eq_cons_iff.mp samples
      obtain ⟨waits', open'⟩ := part.waits_begin
      have behind : ∀ next ∈ part.begin.2 ++ more, next ∉ Awaited.leading :=
        List.forall_mem_append.mpr ⟨waits', waits⟩
      refine (outcome_of_take (Awaited.take_begin leads sample)).trans (outcome_closers behind ?_)
      rw [List.filterMap_append, open', List.nil_append]
      exact map_kind_of_content samples
    · next stays =>
      exact outcome_closers (List.forall_mem_cons.mpr ⟨stays, waits⟩) (map_kind_of_content samples)

/-- What is expected can come and be completed. -/
theorem Refuses.exists_completion {fault : Fault} {kinds : List Kind}
    (h : Refuses awaited ts fault) (ordered : Ordered awaited)
    (said : fault.cause.expected? = some kinds) (mem : kind ∈ kinds) :
    ∃ more, (∀ k ∈ kind :: more, k ≠ .unknown ∧ k ≠ .minus) ∧
      ∀ ts, ts.map Token.content = (kind :: more).map Kind.content → outcome awaited ts = none := by
  have sample : Token.content ⟨kind, 0, kind.sample⟩ = kind.content := rfl
  obtain ⟨next, fed⟩ := h.feed_expected ordered said mem sample
  refine ⟨completion next, List.forall_mem_cons.mpr ⟨h.known said kind mem, known_completion next⟩,
    fun ts samples => ?_⟩
  obtain ⟨token, ts, rfl, same, samples⟩ := List.map_eq_cons_iff.mp samples
  have fed := feed_of_alike (.of_content (sample.trans same.symm)) fed
  exact (outcome_of_feed fed).trans ((ordered.feed fed).outcome_completion samples)

end Completion

end RuleText.Formula
