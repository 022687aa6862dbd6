import RuleText.Proofs.Formula.Prediction

/-!
# Where tokens are refused

Tokens are fed up to a place where what is awaited refuses those that are left, or the end
(`exists_refuses`). There the first part that is not left out complains of the kind that it
finds, or of a number in the token.

What a part does before any tokens is said once (`Awaited.replies`): it is replaced by one of a
few lists, or it may be left out, or it complains. Whether tokens are taken does not depend on
their places (`Reaches.of_alike`).
-/

namespace RuleText.Formula

open Formula.Parser

/-! ### Where feeding stops -/

/-- Feeding the tokens leads from what is awaited to what is awaited behind them. -/
inductive Reaches : List Awaited → List Token → List Awaited → Prop
  | refl (awaited : List Awaited) : Reaches awaited [] awaited
  | step {awaited next last : List Awaited} {token : Token} {ts : List Token} :
      feed awaited token = .ok next → Reaches next ts last → Reaches awaited (token :: ts) last

/-- What a part does before the tokens that are left, or at the end if there are none. -/
def Awaited.meet (part : Awaited) : List Token → Except Fault (Option (List Awaited))
  | [] =>
    match part.missing with
    | some fault => .error fault
    | none => .ok none
  | token :: _ => part.take token

namespace Awaited

variable {part : Awaited} {fault : Fault}

theorem meet_nil_eq_error : part.meet [] = .error fault ↔ part.missing = some fault := by
  rw [meet]
  cases part.missing <;> simp

theorem meet_nil_eq_ok : part.meet [] = .ok none ↔ part.missing = none := by
  rw [meet]
  cases part.missing <;> simp

end Awaited

/-- The first part that is not left out refuses the tokens that are left. Where all parts are
left out, there must be no token. -/
inductive Refuses : List Awaited → List Token → Fault → Prop
  | surplus (token : Token) (ts : List Token) :
      Refuses [] (token :: ts) (Fault.unexpected [] [token])
  | here {part : Awaited} {more : List Awaited} {ts : List Token} {fault : Fault} :
      part.meet ts = .error fault → Refuses (part :: more) ts fault
  | behind {part : Awaited} {more : List Awaited} {ts : List Token} {fault : Fault} :
      part.meet ts = .ok none → Refuses more ts fault → Refuses (part :: more) ts fault

section Feeding

variable {part : Awaited} {awaited next more : List Awaited} {token : Token}
  {ts rest : List Token} {fault : Fault}

theorem feed_cons_eq_ok : feed (part :: more) token = .ok next ↔
    (∃ new, part.take token = .ok (some new) ∧ new ++ more = next) ∨
      part.take token = .ok none ∧ feed more token = .ok next := by
  rw [feed]
  cases part.take token with
  | error fault => simp
  | ok taken => cases taken <;> simp

theorem feed_cons_eq_error : feed (part :: more) token = .error fault ↔
    part.take token = .error fault ∨
      part.take token = .ok none ∧ feed more token = .error fault := by
  rw [feed]
  cases part.take token with
  | error fault => simp
  | ok taken => cases taken <;> simp

theorem outcome_of_feed (h : feed awaited token = .ok next) :
    outcome awaited (token :: ts) = outcome next ts := by
  rw [outcome, h]

theorem Reaches.outcome_append (h : Reaches awaited ts next) (rest : List Token) :
    outcome awaited (ts ++ rest) = outcome next rest := by
  induction h with
  | refl => rfl
  | step fed _ ih => exact (outcome_of_feed fed).trans ih

/-- Tokens that are not refused at the end are not refused before. -/
theorem exists_reaches (h : outcome awaited (ts ++ rest) = none) :
    ∃ next, Reaches awaited ts next := by
  induction ts generalizing awaited with
  | nil => exact ⟨awaited, .refl awaited⟩
  | cons token ts ih =>
    cases fed : feed awaited token with
    | error fault =>
      rw [List.cons_append, outcome, fed] at h
      cases h
    | ok next =>
      rw [List.cons_append, outcome_of_feed fed] at h
      obtain ⟨last, reaches⟩ := ih h
      exact ⟨last, .step fed reaches⟩

/-- The parts refuse a token where it cannot be fed. -/
theorem refuses_iff_feed : Refuses awaited (token :: ts) fault ↔
    feed awaited token = .error fault := by
  induction awaited with
  | nil =>
    constructor
    · rintro ⟨⟩
      rfl
    · rintro ⟨⟩
      exact .surplus token ts
  | cons part more ih =>
    rw [feed_cons_eq_error, ← ih]
    constructor
    · intro h
      cases h with
      | here met => exact .inl met
      | behind met refuses => exact .inr ⟨met, refuses⟩
    · rintro (met | ⟨met, refuses⟩)
      · exact .here met
      · exact .behind met refuses

/-- The parts refuse the end where one of them is missing. -/
theorem refuses_iff_outcome : Refuses awaited [] fault ↔ outcome awaited [] = some fault := by
  induction awaited with
  | nil =>
    constructor
    · rintro ⟨⟩
    · rintro ⟨⟩
  | cons part more ih =>
    constructor
    · intro h
      cases h with
      | here met => exact outcome_of_missing (Awaited.meet_nil_eq_error.mp met)
      | behind met refuses =>
        exact (outcome_of_left_out (Awaited.meet_nil_eq_ok.mp met)).trans (ih.mp refuses)
    · intro h
      cases missed : part.missing with
      | some fault' =>
        obtain rfl := Option.some.inj ((outcome_of_missing missed).symm.trans h)
        exact .here (Awaited.meet_nil_eq_error.mpr missed)
      | none =>
        rw [outcome_of_left_out missed] at h
        exact .behind (Awaited.meet_nil_eq_ok.mpr missed) (ih.mpr h)

/-- Where the outcome is a fault, the tokens are fed up to the place where they are refused. -/
theorem exists_refuses (h : outcome awaited ts = some fault) :
    ∃ before rest next, ts = before ++ rest ∧ Reaches awaited before next ∧
      Refuses next rest fault := by
  induction ts generalizing awaited with
  | nil => exact ⟨[], [], awaited, rfl, .refl awaited, refuses_iff_outcome.mpr h⟩
  | cons token ts ih =>
    cases fed : feed awaited token with
    | error fault' =>
      rw [outcome, fed] at h
      cases h
      exact ⟨[], token :: ts, awaited, rfl, .refl awaited, refuses_iff_feed.mpr fed⟩
    | ok next =>
      rw [outcome_of_feed fed] at h
      obtain ⟨before, rest, last, rfl, reaches, refuses⟩ := ih h
      exact ⟨token :: before, rest, last, rfl, .step fed reaches, refuses⟩

end Feeding

/-! ### What a part does -/

namespace Awaited

/-- What a value with its signs may be replaced by. -/
def beginnings : List (List Awaited) :=
  [[signed], [suffixes], [call, suffixes], [signed, factors, summands, items, closeParen, suffixes]]

/-- What a part may be replaced by. -/
def successors : Awaited → List (List Awaited)
  | signed => beginnings
  | atom => [[], [call], [signed, factors, summands, items, closeParen]]
  | arguments => [] :: beginnings.map (· ++ [factors, summands, moreArguments, closeParen])
  | item => beginnings.map (· ++ [factors, summands, items])
  | tag => [[], [hyphens], [tag, moreTags, closeParen]]
  | piece => [[hyphens]]
  | suffixes => [[suffixes], [atom, suffixes], [tag, moreTags, closeBracket, suffixes]]
  | factors => [[signed, factors]]
  | summands => [[signed, factors, summands]]
  | items => [[item]]
  | call => [[arguments]]
  | moreArguments => [[signed, factors, summands, moreArguments]]
  | moreTags => [[tag, moreTags]]
  | hyphens => [[piece]]
  | closeParen | closeBracket => [[]]

end Awaited

/-- The kinds that a cause says to be expected. -/
def ParseError.Cause.expected? : ParseError.Cause → Option (List Kind)
  | unexpectedToken _ expected => some expected
  | unexpectedString expected => some expected
  | _ => none

/-- The kinds that are said to be expected where a part refuses a token. -/
def Awaited.kinds : Awaited → List Kind
  | signed | atom | arguments | item => atomKinds
  | tag => tagKinds
  | piece => [.name]
  | suffixes => [.leftBracket]
  | closeParen => [.rightParen]
  | closeBracket => [.rightBracket]
  | _ => []

/-- A number in the token is too large, or dice have a zero. -/
def BadNumber (token : Token) (fault : Fault) : Prop :=
  fault = ⟨.invalidNumber, some token⟩ ∨ fault = ⟨.zeroDice, some token⟩

section Faults

variable {token : Token} {fault : Fault} {digits : Text} {ts : List Token}

theorem Fault.expected?_unexpected (kinds : List Kind) (ts : List Token) :
    (Fault.unexpected kinds ts).cause.expected? = some kinds := by
  cases ts with
  | nil => rfl
  | cons token ts =>
    rw [Fault.unexpected]
    split <;> rfl

theorem BadNumber.expected? (h : BadNumber token fault) : fault.cause.expected? = none := by
  obtain rfl | rfl := h <;> rfl

theorem Parser.badNumber_of_amount (h : amount token digits = .error fault) :
    BadNumber token fault := by
  unfold amount at h
  split at h <;> cases h
  exact .inl rfl

theorem Parser.badNumber_of_diceSides {count : Amount}
    (h : (do
        let size ← amount token digits
        if count = 0 ∨ size = 0 then .error ⟨.zeroDice, some token⟩
        return Node.dice count size : Except Fault Node) = .error fault) :
    BadNumber token fault := by
  obtain failed | ⟨size, -, rest⟩ := bind_eq_error.mp h
  · exact badNumber_of_amount failed
  · split at rest <;> cases rest
    exact .inr rfl

theorem Parser.badNumber_of_diceLiteral (h : diceLiteral token = .error fault) :
    BadNumber token fault := by
  unfold diceLiteral at h
  obtain ⟨counting, digits⟩ := (Text.splitOnce 'd' token.text).getD ([], [])
  dsimp only at h
  split at h
  · exact badNumber_of_diceSides h
  · obtain failed | ⟨count, -, rest⟩ := bind_eq_error.mp h
    · exact badNumber_of_amount failed
    · exact badNumber_of_diceSides rest

theorem Parser.diceSize_eq_error (h : diceSize token = .error fault) :
    fault = ⟨.unexpectedToken (some .dice) [.leftBracket], some token⟩ ∨ BadNumber token fault := by
  unfold diceSize at h
  split at h
  · obtain failed | ⟨size, -, ⟨⟩⟩ := bind_eq_error.mp h
    exact .inr (badNumber_of_amount failed)
  · cases h
    exact .inl rfl

end Faults

/-- The tokens are refused because other kinds are expected, or for a number in the first. -/
def Complains (kinds : List Kind) (ts : List Token) (fault : Fault) : Prop :=
  fault = Fault.unexpected kinds ts ∨ ∃ token ∈ ts.head?, BadNumber token fault

namespace Awaited

/-- What a part does before tokens or at the end: it is replaced, it may be left out, or it
refuses them. -/
inductive Replies (part : Awaited) (ts : List Token) : Except Fault (Option (List Awaited)) → Prop
  | takes {next : List Awaited} : next ∈ part.successors → Replies part ts (.ok (some next))
  | skips : part.missing = none → Replies part ts (.ok none)
  | refuses {fault : Fault} : part.kinds ≠ [] → Complains part.kinds ts fault →
      Replies part ts (.error fault)

section Replies

variable {part : Awaited} {token : Token} {ts : List Token} {next : List Awaited}

theorem beginAtom_replies (token : Token) (ts : List Token) :
    atom.Replies (token :: ts) ((beginAtom token).map some) := by
  obtain ⟨kind, start, text⟩ := token
  unfold beginAtom
  cases kind with
  | integer =>
    dsimp only
    cases read : amount ⟨.integer, start, text⟩ text with
    | ok n => exact .takes (by simp [successors])
    | error fault => exact .refuses (by decide) (.inr ⟨_, rfl, badNumber_of_amount read⟩)
  | dice =>
    dsimp only
    cases read : diceLiteral ⟨.dice, start, text⟩ with
    | ok node => exact .takes (by simp [successors])
    | error fault => exact .refuses (by decide) (.inr ⟨_, rfl, badNumber_of_diceLiteral read⟩)
  | reference | name | leftParen => exact .takes (by simp [successors])
  | _ => exact .refuses (by decide) (.inl rfl)

/-- A part that begins as a value with its signs does. -/
theorem beginSigned_replies {f : List Awaited → List Awaited}
    (mem : ∀ next ∈ beginnings, f next ∈ part.successors) (kinds : part.kinds = atomKinds) :
    part.Replies (token :: ts) ((beginSigned token).map fun next => some (f next)) := by
  have begins : part.kinds ≠ [] := by
    rw [kinds]
    decide
  unfold beginSigned
  by_cases minus : token.kind = .minus
  · rw [if_pos minus]
    exact .takes (mem [signed] (by simp [beginnings]))
  · rw [if_neg minus]
    have atom := beginAtom_replies token ts
    cases begun : beginAtom token with
    | error fault =>
      rw [begun] at atom
      cases atom with
      | refuses _ complains => exact .refuses begins (kinds ▸ complains)
    | ok next =>
      rw [begun] at atom
      cases atom with
      | takes among =>
        refine .takes (mem (next ++ [suffixes]) ?_)
        simp only [successors, List.mem_cons, List.not_mem_nil, or_false] at among
        obtain rfl | rfl | rfl := among <;> simp [beginnings]

theorem optionally_replies {kind : Kind} (next : List Awaited) (mem : next ∈ part.successors)
    (left_out : part.missing = none) : part.Replies (token :: ts) (optionally kind next token) := by
  unfold optionally
  split
  · exact .takes mem
  · exact .skips left_out

theorem required_replies {kind : Kind} (next : List Awaited) (mem : next ∈ part.successors)
    (kinds : part.kinds = [kind]) : part.Replies (token :: ts) (required kind next token) := by
  unfold required
  split
  · exact .takes mem
  · exact .refuses (kinds ▸ List.cons_ne_nil kind []) (.inl (kinds ▸ rfl))

theorem take_replies (part : Awaited) (token : Token) (ts : List Token) :
    part.Replies (token :: ts) (part.take token) := by
  cases part with
  | signed => exact beginSigned_replies (f := id) (fun _ mem => mem) rfl
  | atom => exact beginAtom_replies token ts
  | arguments =>
    rw [take]
    split
    · exact .takes List.mem_cons_self
    · exact beginSigned_replies (fun _ mem => List.mem_cons_of_mem _ (List.mem_map_of_mem mem)) rfl
  | item =>
    rw [take]
    split
    · exact .skips rfl
    · exact beginSigned_replies (fun _ mem => List.mem_map_of_mem mem) rfl
  | tag =>
    rw [take]
    split
    · exact .takes (by simp [successors])
    · exact .takes (by simp [successors])
    · exact .takes (by simp [successors])
    · exact .refuses (by decide) (.inl rfl)
  | suffixes =>
    obtain ⟨kind, start, text⟩ := token
    cases kind with
    | leftBracket => exact .takes (by simp [successors])
    | dice =>
      rw [take]
      dsimp only
      cases read : diceSize ⟨.dice, start, text⟩ with
      | ok node => exact .takes (by simp [successors])
      | error fault =>
        obtain rfl | bad := diceSize_eq_error read
        · exact .refuses (by decide) (.inl rfl)
        · exact .refuses (by decide) (.inr ⟨_, rfl, bad⟩)
    | name =>
      rw [take]
      dsimp only
      split
      · exact .takes (by simp [successors])
      · exact .refuses (by decide) (.inl rfl)
    | _ => exact .skips rfl
  | factors | summands =>
    rw [take]
    split
    · exact .takes (by simp [successors])
    · exact .takes (by simp [successors])
    · exact .skips rfl
  | items | call | moreArguments | moreTags | hyphens =>
    exact optionally_replies _ List.mem_cons_self rfl
  | piece | closeParen | closeBracket => exact required_replies _ List.mem_cons_self rfl

theorem replies (part : Awaited) (ts : List Token) : part.Replies ts (part.meet ts) := by
  cases ts with
  | nil =>
    cases missed : part.missing with
    | none =>
      rw [meet_nil_eq_ok.mpr missed]
      exact .skips missed
    | some fault =>
      rw [meet_nil_eq_error.mpr missed]
      cases part <;> cases missed <;> exact .refuses (by decide) (.inl rfl)
  | cons token ts => exact part.take_replies token ts

theorem take_mem (h : part.take token = .ok (some next)) : next ∈ part.successors := by
  have replies := part.take_replies token []
  rw [h] at replies
  cases replies with
  | takes mem => exact mem

theorem missing_of_meet (h : part.meet ts = .ok none) : part.missing = none := by
  have replies := part.replies ts
  rw [h] at replies
  cases replies with
  | skips left_out => exact left_out

theorem complains_of_meet {fault : Fault} (h : part.meet ts = .error fault) :
    part.kinds ≠ [] ∧ Complains part.kinds ts fault := by
  have replies := part.replies ts
  rw [h] at replies
  cases replies with
  | refuses begins complains => exact ⟨begins, complains⟩

end Replies

end Awaited

/-! ### What is said about tokens that are refused -/

section Refuses

variable {awaited : List Awaited} {rest : List Token} {fault : Fault}

/-- The fault is told about the first of the tokens that are left. -/
theorem Refuses.complains (h : Refuses awaited rest fault) :
    ∃ kinds, Complains kinds rest fault := by
  induction h with
  | surplus token ts => exact ⟨[], .inl rfl⟩
  | here met => exact ⟨_, (Awaited.complains_of_meet met).2⟩
  | behind _ _ ih => exact ih

theorem Fault.token_unexpected (kinds : List Kind) (ts : List Token) :
    (Fault.unexpected kinds ts).token = ts.head? := by
  cases ts with
  | nil => rfl
  | cons token ts =>
    rw [Fault.unexpected]
    split <;> rfl

theorem Refuses.token (h : Refuses awaited rest fault) : fault.token = rest.head? := by
  obtain ⟨kinds, rfl | ⟨token, mem, rfl | rfl⟩⟩ := h.complains
  · exact Fault.token_unexpected kinds rest
  all_goals exact mem.symm

theorem Refuses.missing (h : Refuses awaited rest fault) :
    rest = [] ↔ ∃ expected, fault.cause = .unexpectedToken none expected := by
  obtain ⟨kinds, rfl | ⟨token, mem, rfl | rfl⟩⟩ := h.complains
  · cases rest with
    | nil => simp [Fault.unexpected]
    | cons token rest =>
      rw [Fault.unexpected]
      split <;> simp
  all_goals
    cases rest with
    | nil => cases mem
    | cons token rest => simp

end Refuses

/-! ### Tokens in other places -/

section Places

variable {part : Awaited} {awaited next : List Awaited} {token token' : Token}
  {ts ts' : List Token} {node : Node} {taken : Option (List Awaited)}

theorem Parser.diceLiteral_of_text (h : diceLiteral token = .ok node)
    (same : token.text = token'.text) : diceLiteral token' = .ok node := by
  rw [diceLiteral_eq_ok] at h ⊢
  rwa [← same]

theorem Parser.diceSize_of_text (h : diceSize token = .ok node)
    (same : token.text = token'.text) : diceSize token' = .ok node := by
  rw [diceSize_eq_ok] at h ⊢
  rwa [← same]

namespace Awaited

theorem beginAtom_of_alike (same : token.Alike token') (h : beginAtom token = .ok next) :
    beginAtom token' = .ok next := by
  obtain ⟨kind, start, start', text⟩ := same
  cases kind with
  | integer =>
    obtain ⟨n, read, rfl⟩ := map_eq_ok.mp h
    exact map_eq_ok.mpr ⟨n, amount_eq_ok.mpr (amount_eq_ok.mp read), rfl⟩
  | dice =>
    obtain ⟨node, read, rfl⟩ := map_eq_ok.mp h
    exact map_eq_ok.mpr ⟨node, diceLiteral_of_text read rfl, rfl⟩
  | reference | name | leftParen => exact h
  | _ => cases h

theorem beginSigned_of_alike (same : token.Alike token') (h : beginSigned token = .ok next) :
    beginSigned token' = .ok next := by
  have kind : token.kind = token'.kind := by cases same; rfl
  unfold beginSigned at h ⊢
  rw [← kind]
  by_cases minus : token.kind = .minus
  · rwa [if_pos minus] at h ⊢
  · rw [if_neg minus] at h ⊢
    obtain ⟨new, begun, rfl⟩ := map_eq_ok.mp h
    exact map_eq_ok.mpr ⟨new, beginAtom_of_alike same begun, rfl⟩

theorem map_beginSigned_of_alike (same : token.Alike token')
    {f : List Awaited → Option (List Awaited)} (h : (beginSigned token).map f = .ok taken) :
    (beginSigned token').map f = .ok taken := by
  obtain ⟨new, begun, rfl⟩ := map_eq_ok.mp h
  exact map_eq_ok.mpr ⟨new, beginSigned_of_alike same begun, rfl⟩

theorem take_of_alike (same : token.Alike token') (h : part.take token = .ok taken) :
    part.take token' = .ok taken := by
  have kind_eq : token.kind = token'.kind := by cases same; rfl
  cases part with
  | signed => exact map_beginSigned_of_alike same h
  | atom =>
    obtain ⟨new, begun, rfl⟩ := map_eq_ok.mp h
    exact map_eq_ok.mpr ⟨new, beginAtom_of_alike same begun, rfl⟩
  | arguments | item =>
    rw [take] at h ⊢
    rw [← kind_eq]
    by_cases closes : token.kind = .rightParen
    · rwa [if_pos closes] at h ⊢
    · rw [if_neg closes] at h ⊢
      exact map_beginSigned_of_alike same h
  | suffixes =>
    obtain ⟨kind, start, start', text⟩ := same
    cases kind with
    | dice =>
      obtain ⟨node, read, rfl⟩ := map_eq_ok.mp h
      exact map_eq_ok.mpr ⟨node, diceSize_of_text read rfl, rfl⟩
    | name =>
      rw [take] at h ⊢
      by_cases d : text = ['d']
      · subst d
        exact h
      · simp only [if_neg d] at h
        cases h
    | _ => exact h
  | _ =>
    obtain ⟨kind, start, start', text⟩ := same
    cases kind <;> first | exact h | cases h

end Awaited

theorem feed_of_alike (same : token.Alike token') (h : feed awaited token = .ok next) :
    feed awaited token' = .ok next := by
  induction awaited with
  | nil => cases h
  | cons part more ih =>
    refine feed_cons_eq_ok.mpr ((feed_cons_eq_ok.mp h).imp ?_ ?_)
    · rintro ⟨new, taken, eq⟩
      exact ⟨new, Awaited.take_of_alike same taken, eq⟩
    · rintro ⟨skipped, fed⟩
      exact ⟨Awaited.take_of_alike same skipped, ih fed⟩

theorem Reaches.of_alike (h : Reaches awaited ts next) (same : AllAlike ts ts') :
    Reaches awaited ts' next := by
  induction h generalizing ts' with
  | refl awaited =>
    cases same
    exact .refl awaited
  | step fed _ ih =>
    cases same with
    | cons first more => exact .step (feed_of_alike first fed) (ih more)

end Places

end RuleText.Formula
