import RuleText.Proofs.Formula.Layout
import RuleText.Proofs.Formula.Reading

/-!
# What is awaited

While a formula is read, the tokens so far determine which parts are still awaited, the nearest
one first. The next token begins the first of these parts that is not left out for it, or it is
refused. So the tokens can be fed one after the other into a list of awaited parts, and what
becomes of the whole list of tokens is said by `outcome`, without any reader.

Each reader of the parser does the same as the parts that it reads (`Follows`), whatever is
awaited behind them. Only a detached piece of a tag is noticed by the readers alone, because the
list of awaited parts does not tell where a token stands.
-/

namespace RuleText.Formula

/-! ### Feeding tokens -/

/-- A part of a formula that is awaited. The parts from `suffixes` on may be left out, except
for the closing ones. -/
inductive Awaited where
  /-- A value with its signs. -/
  | signed
  | atom
  /-- The arguments of a call and its closing parenthesis. -/
  | arguments
  /-- An item of a tuple after a comma, which may be left out at the end. -/
  | item
  | tag
  /-- A name after the hyphen of a tag. -/
  | piece
  | suffixes
  | factors
  | summands
  | items
  /-- The parentheses of a call after a name. -/
  | call
  | moreArguments
  | moreTags
  | hyphens
  | closeParen
  | closeBracket
deriving DecidableEq, Repr

namespace Awaited

open Formula.Parser

/-- What is awaited behind the token that begins an atom. -/
def beginAtom (token : Token) : Except Fault (List Awaited) :=
  match token.kind with
  | .integer => (amount token token.text).map fun _ => []
  | .dice => (diceLiteral token).map fun _ => []
  | .reference => .ok []
  | .name => .ok [call]
  | .leftParen => .ok [signed, factors, summands, items, closeParen]
  | _ => .error (Fault.unexpected atomKinds [token])

/-- What is awaited behind the token that begins a value with its signs. -/
def beginSigned (token : Token) : Except Fault (List Awaited) :=
  if token.kind = .minus then .ok [signed] else (beginAtom token).map (· ++ [suffixes])

/-- A part that begins with a token of the kind, or is left out. -/
def optionally (kind : Kind) (next : List Awaited) (token : Token) :
    Except Fault (Option (List Awaited)) :=
  .ok (if token.kind = kind then some next else none)

/-- A part that begins with a token of the kind and is not left out. -/
def required (kind : Kind) (next : List Awaited) (token : Token) :
    Except Fault (Option (List Awaited)) :=
  if token.kind = kind then .ok (some next) else .error (Fault.unexpected [kind] [token])

theorem optionally_of_kind {kind : Kind} {next : List Awaited} {token : Token}
    (h : token.kind = kind) : optionally kind next token = .ok (some next) := by
  rw [optionally, if_pos h]

theorem optionally_of_ne {kind : Kind} {next : List Awaited} {token : Token}
    (h : token.kind ≠ kind) : optionally kind next token = .ok none := by
  rw [optionally, if_neg h]

theorem required_of_kind {kind : Kind} {next : List Awaited} {token : Token}
    (h : token.kind = kind) : required kind next token = .ok (some next) := by
  rw [required, if_pos h]

theorem required_of_ne {kind : Kind} {next : List Awaited} {token : Token}
    (h : token.kind ≠ kind) :
    required kind next token = .error (Fault.unexpected [kind] [token]) := by
  rw [required, if_neg h]

/-- What is awaited instead of a part when a token begins it; none if the part is left out
before this token. -/
def take : Awaited → Token → Except Fault (Option (List Awaited))
  | signed, token => (beginSigned token).map some
  | atom, token => (beginAtom token).map some
  | arguments, token =>
    if token.kind = .rightParen then .ok (some [])
    else (beginSigned token).map fun next =>
      some (next ++ [factors, summands, moreArguments, closeParen])
  | item, token =>
    if token.kind = .rightParen then .ok none
    else (beginSigned token).map fun next => some (next ++ [factors, summands, items])
  | tag, token =>
    match token.kind with
    | .name => .ok (some [hyphens])
    | .reference => .ok (some [])
    | .leftParen => .ok (some [tag, moreTags, closeParen])
    | _ => .error (Fault.unexpected tagKinds [token])
  | piece, token => required .name [hyphens] token
  | suffixes, token =>
    match token.kind with
    | .leftBracket => .ok (some [tag, moreTags, closeBracket, suffixes])
    | .dice => (diceSize token).map fun _ => some [suffixes]
    | .name =>
      if token.text = ['d'] then .ok (some [atom, suffixes])
      else .error ⟨.unexpectedToken (some .name) [.leftBracket], some token⟩
    | _ => .ok none
  | factors, token =>
    match token.kind with
    | .star | .slash => .ok (some [signed, factors])
    | _ => .ok none
  | summands, token =>
    match token.kind with
    | .plus | .minus => .ok (some [signed, factors, summands])
    | _ => .ok none
  | items, token => optionally .comma [item] token
  | call, token => optionally .leftParen [arguments] token
  | moreArguments, token => optionally .comma [signed, factors, summands, moreArguments] token
  | moreTags, token => optionally .comma [tag, moreTags] token
  | hyphens, token => optionally .minus [piece] token
  | closeParen, token => required .rightParen [] token
  | closeBracket, token => required .rightBracket [] token

theorem take_atom {γ : Type} {leaf : Except Fault γ} {next : List Awaited} {token : Token}
    (h : beginAtom token = leaf.map fun _ => next) :
    atom.take token = leaf.map fun _ => some next := by
  rw [take, h]
  cases leaf <;> rfl

theorem take_factors (token : Token) : factors.take token = .ok (
    if token.kind ∈ [.star, .slash] then some ([signed] ++ [factors]) else none) := by
  obtain ⟨kind, start, text⟩ := token
  cases kind <;> rfl

theorem take_summands (token : Token) : summands.take token = .ok (
    if token.kind ∈ [.plus, .minus] then some ([signed, factors] ++ [summands]) else none) := by
  obtain ⟨kind, start, text⟩ := token
  cases kind <;> rfl

/-- The fault if the formula ends where a part is awaited; none if the part may be left out. -/
def missing : Awaited → Option Fault
  | signed | atom | arguments => some (Fault.unexpected atomKinds [])
  | tag => some (Fault.unexpected tagKinds [])
  | piece => some (Fault.unexpected [.name] [])
  | closeParen => some (Fault.unexpected [.rightParen] [])
  | closeBracket => some (Fault.unexpected [.rightBracket] [])
  | _ => none

end Awaited

/-- What is awaited after a token. Parts that are left out for it are skipped. -/
def feed : List Awaited → Token → Except Fault (List Awaited)
  | [], token => .error (Fault.unexpected [] [token])
  | part :: more, token =>
    match part.take token with
    | .error fault => .error fault
    | .ok (some next) => .ok (next ++ more)
    | .ok none => feed more token

/-- The fault that is met when tokens are fed; none if they end where nothing more has to
come. -/
def outcome : List Awaited → List Token → Option Fault
  | awaited, [] => awaited.findSome? Awaited.missing
  | awaited, token :: ts =>
    match feed awaited token with
    | .error fault => some fault
    | .ok next => outcome next ts

/-- What is awaited at the beginning of a formula. -/
def wholeFormula : List Awaited :=
  [.signed, .factors, .summands, .items]

section Outcome

variable {part : Awaited} {next awaited : List Awaited} {token : Token} {ts : List Token}
  {fault : Fault}

theorem outcome_of_take (h : part.take token = .ok (some next)) :
    outcome (part :: awaited) (token :: ts) = outcome (next ++ awaited) ts := by
  simp only [outcome, feed, h]

theorem outcome_of_skip (h : part.take token = .ok none) :
    outcome (part :: awaited) (token :: ts) = outcome awaited (token :: ts) := by
  simp only [outcome, feed, h]

theorem outcome_of_refuse (h : part.take token = .error fault) :
    outcome (part :: awaited) (token :: ts) = some fault := by
  simp only [outcome, feed, h]

theorem outcome_of_missing (h : part.missing = some fault) :
    outcome (part :: awaited) [] = some fault := by
  simp only [outcome, List.findSome?_cons, h]

theorem outcome_of_left_out (h : part.missing = none) :
    outcome (part :: awaited) [] = outcome awaited [] := by
  simp only [outcome, List.findSome?_cons, h]

end Outcome

/-! ### Readers and awaited parts -/

/-- A reader does what the parts do that it reads, whatever is awaited behind them. It gives the
tokens that are left for what is behind, or fails where the tokens are refused, or stops at a
piece of a tag that does not touch. -/
inductive Follows {α : Type} {P : List Token → Prop} (parts : List Awaited) (ts : List Token) :
    Except Fault (α × { rest // P rest }) → Prop
  | gives {a : α} {rest : List Token} {h : P rest} : rest <:+ ts →
      (∀ awaited, outcome (parts ++ awaited) ts = outcome awaited rest) →
      Follows parts ts (.ok (a, ⟨rest, h⟩))
  | fails {fault : Fault} : (∀ awaited, outcome (parts ++ awaited) ts = some fault) →
      Follows parts ts (.error fault)
  | detached {name : Token} : name ∈ ts → ¬ Tight ts →
      Follows parts ts (.error ⟨.detachedTag, some name⟩)

namespace Follows

variable {α β : Type} {P Q : List Token → Prop} {part : Awaited} {parts next more : List Awaited}
  {token : Token} {ts : List Token} {fault : Fault}
  {read : Except Fault (α × { rest // P rest })}

/-- Nothing is read. -/
theorem done {a : α} {h : P ts} : Follows (P := P) [] ts (.ok (a, ⟨ts, h⟩)) :=
  .gives List.suffix_rfl fun _ => rfl

/-- A token begins the first part. -/
theorem take (h : part.take token = .ok (some next)) (behind : Follows (next ++ more) ts read) :
    Follows (part :: more) (token :: ts) read := by
  cases behind with
  | gives within same =>
    refine .gives (within.trans (List.suffix_cons token ts)) fun awaited => ?_
    rw [List.cons_append, outcome_of_take h, ← List.append_assoc, same]
  | fails same =>
    refine .fails fun awaited => ?_
    rw [List.cons_append, outcome_of_take h, ← List.append_assoc, same]
  | detached mem loose =>
    refine .detached (List.mem_cons_of_mem _ mem) fun tight => ?_
    exact loose (tight.suffix (List.suffix_cons token ts))

/-- The first part is left out. -/
theorem skip (h : part.take token = .ok none) (behind : Follows more (token :: ts) read) :
    Follows (part :: more) (token :: ts) read := by
  cases behind with
  | gives within same =>
    exact .gives within fun awaited => (outcome_of_skip h).trans (same awaited)
  | fails same => exact .fails fun awaited => (outcome_of_skip h).trans (same awaited)
  | detached mem loose => exact .detached mem loose

theorem refuse (h : part.take token = .error fault) :
    Follows (P := P) (α := α) (part :: more) (token :: ts) (.error fault) :=
  .fails fun _ => outcome_of_refuse h

theorem missing (h : part.missing = some fault) :
    Follows (P := P) (α := α) (part :: more) [] (.error fault) :=
  .fails fun _ => outcome_of_missing h

theorem leftOut (h : part.missing = none) (behind : Follows more [] read) :
    Follows (part :: more) [] read := by
  cases behind with
  | gives within same =>
    exact .gives within fun awaited => (outcome_of_left_out h).trans (same awaited)
  | fails same => exact .fails fun awaited => (outcome_of_left_out h).trans (same awaited)
  | detached mem loose => exact .detached mem loose

/-- A reader goes first. -/
theorem bind {f : α × { rest // P rest } → Except Fault (β × { rest // Q rest })}
    (first : Follows parts ts read)
    (second : ∀ a rest h, rest <:+ ts → Follows more rest (f (a, ⟨rest, h⟩))) :
    Follows (parts ++ more) ts (read >>= f) := by
  cases first with
  | @gives a rest h within same =>
    have behind := second a rest h within
    have whole (awaited : List Awaited) :
        outcome (parts ++ more ++ awaited) ts = outcome (more ++ awaited) rest := by
      rw [List.append_assoc, same]
    show Follows (parts ++ more) ts (f (a, ⟨rest, h⟩))
    generalize f (a, ⟨rest, h⟩) = result at behind
    cases behind with
    | gives within' same' => exact .gives (within'.trans within) fun K => (whole K).trans (same' K)
    | fails same' => exact .fails fun K => (whole K).trans (same' K)
    | detached mem loose =>
      exact .detached (within.subset mem) fun tight => loose (tight.suffix within)
  | fails same => exact .fails fun K => by rw [List.append_assoc, same]
  | detached mem loose => exact .detached mem loose

/-- A reader whose result is only put together. -/
theorem map {f : α × { rest // P rest } → Except Fault (β × { rest // Q rest })}
    (first : Follows parts ts read)
    (same : ∀ a rest h, ∃ b h', f (a, ⟨rest, h⟩) = .ok (b, ⟨rest, h'⟩)) :
    Follows parts ts (read >>= f) := by
  rw [← List.append_nil parts]
  refine first.bind fun a rest h _ => ?_
  obtain ⟨b, h', eq⟩ := same a rest h
  rw [eq]
  exact .done

/-- The text of a token is read before it begins the first part. -/
theorem take_leaf {γ : Type} {leaf : Except Fault γ} {f : γ → Except Fault (α × { rest // P rest })}
    (h : part.take token = leaf.map fun _ => some next)
    (behind : ∀ c, Follows (next ++ more) ts (f c)) :
    Follows (part :: more) (token :: ts) (leaf >>= f) := by
  cases leaf with
  | error fault => exact .refuse h
  | ok c => exact .take h (behind c)

/-- A closing part goes first. -/
theorem expect {kind : Kind} (takes : ∀ token, part.take token = Awaited.required kind [] token)
    (ends : part.missing = some (Fault.unexpected [kind] []))
    {f : { rest : List Token // rest.length < ts.length } → Except Fault (α × { rest // P rest })}
    (behind : ∀ rest h, rest <:+ ts → Follows more rest (f ⟨rest, h⟩)) :
    Follows (part :: more) ts (Parser.expect kind ts >>= f) := by
  cases ts with
  | nil => exact .missing ends
  | cons token rest =>
    by_cases same : token.kind = kind
    · have found : Parser.expect kind (token :: rest) = .ok ⟨rest, Nat.lt_succ_self _⟩ := by
        rw [Parser.expect, if_pos same]
      rw [found]
      have taken := (takes token).trans (Awaited.required_of_kind same)
      exact .take taken (behind rest _ (List.suffix_cons token rest))
    · have missed : Parser.expect kind (token :: rest) =
          .error (Fault.unexpected [kind] [token]) := by
        rw [Parser.expect, if_neg same]
        rfl
      rw [missed]
      exact .refuse ((takes token).trans (Awaited.required_of_ne same))

/-- Other parts with the same outcome. -/
theorem congr {parts' : List Awaited} (h : Follows parts ts read)
    (same : ∀ awaited, outcome (parts' ++ awaited) ts = outcome (parts ++ awaited) ts) :
    Follows parts' ts read := by
  cases h with
  | gives within eq => exact .gives within fun awaited => (same awaited).trans (eq awaited)
  | fails eq => exact .fails fun awaited => (same awaited).trans (eq awaited)
  | detached mem loose => exact .detached mem loose

/-- A part that begins as a value with its signs does. -/
theorem of_signed (more : List Awaited)
    (takes : ∀ token ∈ ts.head?, part.take token =
      (Awaited.beginSigned token).map fun next => some (next ++ more))
    (ends : ts = [] → part.missing = some (Fault.unexpected Parser.atomKinds []))
    (h : Follows (.signed :: more) ts read) : Follows [part] ts read := by
  refine h.congr fun awaited => ?_
  cases ts with
  | nil =>
    have missing := ends rfl
    exact (outcome_of_missing missing).trans (outcome_of_missing rfl).symm
  | cons token rest =>
    have takes := takes token rfl
    have signed : Awaited.signed.take token = (Awaited.beginSigned token).map some := rfl
    cases begins : Awaited.beginSigned token with
    | error fault =>
      rw [begins] at takes signed
      exact (outcome_of_refuse takes).trans (outcome_of_refuse signed).symm
    | ok next =>
      rw [begins] at takes signed
      rw [List.singleton_append, List.cons_append, outcome_of_take takes, outcome_of_take signed,
        List.append_assoc]

/-- A value without a sign. -/
theorem of_atom (h : Follows [.atom, .suffixes] ts read)
    (unsigned : ∀ token ∈ ts.head?, token.kind ≠ .minus) : Follows [.signed] ts read := by
  refine h.congr fun awaited => ?_
  cases ts with
  | nil => rfl
  | cons token rest =>
    have atom : Awaited.atom.take token = (Awaited.beginAtom token).map some := rfl
    have signed : Awaited.signed.take token =
        ((Awaited.beginAtom token).map (· ++ [.suffixes])).map some := by
      rw [Awaited.take, Awaited.beginSigned, if_neg (unsigned token rfl)]
    cases begins : Awaited.beginAtom token with
    | error fault =>
      rw [begins] at atom signed
      exact (outcome_of_refuse signed).trans (outcome_of_refuse atom).symm
    | ok next =>
      rw [begins] at atom signed
      rw [List.singleton_append, List.cons_append, outcome_of_take signed, outcome_of_take atom,
        List.append_assoc]

end Follows

/-! ### The readers -/

namespace Parser

variable {ts : List Token}

/-! ### Loops -/

section Loops

variable {kinds : List Kind} {part : Awaited} {parts : List Awaited}

theorem Idle.follows {α : Type} {a : α} {read : (ts : List Token) → Except Fault (Followed ts α)}
    (idle : Idle kinds a read) (stops : Stops kinds ts) (ends : part.missing = none)
    (skips : ∀ token, token.kind ∉ kinds → part.take token = .ok none) :
    Follows [part] ts (read ts) := by
  rw [idle ts stops]
  cases ts with
  | nil => exact .leftOut ends .done
  | cons token rest => exact .skip (skips token (stops_cons.mp stops)) .done

/-- A part that begins with a token of one kind. -/
theorem Idle.follows_optional {α : Type} {a : α} {kind : Kind} {next : List Awaited}
    {read : (ts : List Token) → Except Fault (Followed ts α)} (idle : Idle [kind] a read)
    (stops : Stops [kind] ts) (ends : part.missing = none)
    (takes : ∀ token, part.take token = Awaited.optionally kind next token) :
    Follows [part] ts (read ts) :=
  idle.follows stops ends fun token other =>
    (takes token).trans (Awaited.optionally_of_ne (List.mem_singleton.not.mp other))

namespace OperatorLevel

variable {n : ℕ} {operand whole : (ts : List Token) → Except Fault (Taken ts Node)}
variable {loop : Node → (ts : List Token) → Except Fault (Followed ts Node)}
variable (level : OperatorLevel kinds operand whole loop) (ends : part.missing = none)
  (takes : ∀ token, part.take token =
    .ok (if token.kind ∈ kinds then some (parts ++ [part]) else none))
  (operands : ∀ us : List Token, us.length ≤ n → Follows parts us (operand us))

include level ends takes operands

theorem follows_loop (left : Node) (atMost : ts.length ≤ n) :
    Follows [part] ts (loop left ts) := by
  obtain ⟨k, length⟩ : ∃ k, ts.length = k := ⟨_, rfl⟩
  induction k using Nat.strongRecOn generalizing left ts with
  | ind k ih =>
    by_cases stops : Stops kinds ts
    · refine (level.idle left).follows stops ends fun token other => ?_
      rw [takes, if_neg other]
    obtain ⟨token, rest, rfl, mem⟩ := exists_of_not_stops stops
    obtain ⟨op, stands⟩ := Option.isSome_iff_exists.mp (level.operators _ mem)
    have begins : part.take token = .ok (some (parts ++ [part])) := by rw [takes, if_pos mem]
    rw [List.length_cons] at length atMost
    rw [level.joins left token rest mem stands]
    refine .take begins ?_
    rw [List.append_nil]
    refine (operands rest (by omega)).bind fun right behind less _ => ?_
    have loop := ih behind.length (by omega) (.binary left op right) (by omega) rfl
    exact loop.map fun _ _ _ => ⟨_, _, rfl⟩

theorem follows (atMost : ts.length ≤ n) : Follows (parts ++ [part]) ts (whole ts) := by
  rw [level.first]
  refine (operands ts atMost).bind fun left behind less _ => ?_
  have loop := level.follows_loop ends takes operands left (Nat.le_trans less.le atMost)
  exact loop.map fun _ _ _ => ⟨_, _, rfl⟩

end OperatorLevel

end Loops

/-! ### Tags and formulas -/

/-- The hyphenated names behind a name, from the part on that the name begins. -/
theorem follows_hyphenated {part : Awaited} {name : Token} {stop : ℕ} (text : Text)
    (begins : part.take name = .ok (some [.hyphens])) (touches : name.stop = stop) :
    Follows [part] (name :: ts) (hyphenated text stop ts) := by
  obtain ⟨n, length⟩ : ∃ n, ts.length = n := ⟨_, rfl⟩
  induction n using Nat.strongRecOn generalizing ts part name stop text with
  | ind n ih =>
    cases ts with
    | nil =>
      rw [hyphenated]
      exact .take begins (.leftOut rfl .done)
    | cons minus rest =>
      by_cases hyphen : minus.kind = .minus
      · have hyphens : Awaited.hyphens.take minus = .ok (some [.piece]) :=
          Awaited.optionally_of_kind hyphen
        cases rest with
        | nil =>
          rw [hyphenated, if_pos hyphen]
          exact .take begins (.take hyphens (.missing rfl))
        | cons next rest =>
          rw [hyphenated, if_pos hyphen]
          by_cases named : next.kind = .name
          · have piece : Awaited.piece.take next = .ok (some [.hyphens]) :=
              Awaited.required_of_kind named
            rw [if_pos named]
            split
            · have fewer : rest.length < n := by
                simp only [← length, List.length_cons]
                omega
              have further := ih _ fewer (text ++ minus.text ++ next.text) piece rfl rfl
              exact .take begins (.take hyphens (further.map fun _ _ _ => ⟨_, _, rfl⟩))
            · next apart =>
              refine .detached (by simp) fun tight => apart ?_
              obtain ⟨first, rest⟩ := List.isChain_cons_cons.mp tight
              obtain ⟨second, -⟩ := List.isChain_cons_cons.mp rest
              exact ⟨(first (.inr hyphen)).symm.trans touches, (second (.inl hyphen)).symm⟩
          · rw [if_neg named]
            exact .take begins (.take hyphens (.refuse (Awaited.required_of_ne named)))
      · rw [hyphenated.eq_def]
        simp only [if_neg hyphen]
        exact .take begins (.skip (Awaited.optionally_of_ne hyphen) .done)

section Tags

variable (below : ∀ us : List Token, us.length < ts.length →
  Follows [.tag, .moreTags] us (tagList us))

include below

theorem follows_tag : Follows [.tag] ts (tag ts) := by
  cases ts with
  | nil =>
    rw [tag]
    exact .missing rfl
  | cons token rest =>
    obtain ⟨kind, start, text⟩ := token
    rw [tag]
    cases kind with
    | name => exact (follows_hyphenated text rfl rfl).map fun _ _ _ => ⟨_, _, rfl⟩
    | reference => exact .take rfl .done
    | leftParen =>
      refine .take rfl ((below rest (Nat.lt_succ_self _)).bind fun tags left _ _ => ?_)
      exact .expect (fun _ => rfl) rfl fun _ _ _ => .done
    | _ => exact .refuse rfl

theorem follows_moreTags : Follows [.moreTags] ts (moreTags ts) := by
  by_cases stops : Stops [.comma] ts
  · exact idle_moreTags.follows_optional stops rfl fun _ => rfl
  obtain ⟨token, rest, rfl, mem⟩ := exists_of_not_stops stops
  have comma : token.kind = .comma := List.mem_singleton.mp mem
  rw [moreTags, if_pos comma]
  refine .take (Awaited.optionally_of_kind comma) ?_
  exact (below rest (Nat.lt_succ_self _)).map fun _ _ _ => ⟨_, _, rfl⟩

end Tags

theorem follows_tagList : Follows [.tag, .moreTags] ts (tagList ts) := by
  obtain ⟨n, length⟩ : ∃ n, ts.length = n := ⟨_, rfl⟩
  induction n using Nat.strongRecOn generalizing ts with
  | ind n ih =>
    have below : ∀ us : List Token, us.length < n → Follows [.tag, .moreTags] us (tagList us) :=
      fun us fewer => ih us.length fewer rfl
    subst length
    rw [tagList]
    refine (follows_tag below).bind fun first rest fewer _ => ?_
    have below' := fun us shorter => below us (Nat.lt_trans shorter fewer)
    exact (follows_moreTags below').map fun _ _ _ => ⟨_, _, rfl⟩

/-- The readers of formulas follow what they read. -/
structure FollowsAt (ts : List Token) : Prop where
  formula : Follows wholeFormula ts (formula ts)
  addition : Follows [.signed, .factors, .summands] ts (addition ts)
  signed : Follows [.signed] ts (signed ts)
  atom : Follows [.atom] ts (atom ts)

-- The induction is on the number of tokens. Under the hypothesis for fewer tokens the readers are
-- taken from the atoms up, as they call each other on all their tokens in this order.
section Levels

variable {n : ℕ} (below : ∀ us : List Token, us.length < n → FollowsAt us)

include below

theorem follows_moreArguments (fewer : ts.length < n) :
    Follows [.moreArguments] ts (moreArguments ts) := by
  obtain ⟨k, length⟩ : ∃ k, ts.length = k := ⟨_, rfl⟩
  induction k using Nat.strongRecOn generalizing ts with
  | ind k ih =>
    by_cases stops : Stops [.comma] ts
    · exact idle_moreArguments.follows_optional stops rfl fun _ => rfl
    obtain ⟨token, rest, rfl, mem⟩ := exists_of_not_stops stops
    have comma : token.kind = .comma := List.mem_singleton.mp mem
    rw [List.length_cons] at length fewer
    rw [moreArguments, if_pos comma]
    refine .take (Awaited.optionally_of_kind comma) ?_
    refine (below rest (by omega)).addition.bind fun arg left less _ => ?_
    exact (ih left.length (by omega) (by omega) rfl).map fun _ _ _ => ⟨_, _, rfl⟩

theorem follows_arguments (fewer : ts.length < n) :
    Follows [.arguments] ts (arguments ts) := by
  rw [arguments]
  split
  · next closes =>
    obtain ⟨token, rest, rfl, kind⟩ := startsWith_eq_true.mp closes
    have taken : Awaited.arguments.take token = .ok (some []) := by
      rw [Awaited.take, if_pos kind]
    rw [expect, if_pos kind]
    exact .take taken .done
  · next opens =>
    have other := startsWith_eq_false.mp (Bool.eq_false_iff.mpr opens)
    refine .of_signed [.factors, .summands, .moreArguments, .closeParen] (fun token mem => ?_)
      (fun _ => rfl) ?_
    · rw [Awaited.take, if_neg (List.mem_singleton.not.mp (other token mem))]
    · refine (below ts fewer).addition.bind fun first left less _ => ?_
      refine (follows_moreArguments below (Nat.lt_trans less fewer)).bind fun more left _ _ => ?_
      exact .expect (fun _ => rfl) rfl fun _ _ _ => .done

theorem follows_atom (atMost : ts.length ≤ n) : Follows [.atom] ts (atom ts) := by
  cases ts with
  | nil =>
    rw [atom]
    exact .missing rfl
  | cons token rest =>
    obtain ⟨kind, start, text⟩ := token
    rw [atom.eq_def]
    cases kind with
    | integer => exact .take_leaf (Awaited.take_atom rfl) fun _ => .done
    | dice => exact .take_leaf (Awaited.take_atom rfl) fun _ => .done
    | reference => exact .take rfl .done
    | name =>
      cases rest with
      | nil => exact .take rfl (.leftOut rfl .done)
      | cons paren rest =>
        by_cases opens : paren.kind = .leftParen
        · simp only [if_pos opens]
          refine .take rfl (.take (Awaited.optionally_of_kind opens) ?_)
          exact (follows_arguments below (Nat.lt_of_succ_lt atMost)).map fun _ _ _ => ⟨_, _, rfl⟩
        · simp only [if_neg opens]
          exact .take rfl (.skip (Awaited.optionally_of_ne opens) .done)
    | leftParen =>
      refine .take rfl ((below rest atMost).formula.bind fun node left _ _ => ?_)
      exact .expect (fun _ => rfl) rfl fun _ _ _ => .done
    | _ => exact .refuse rfl

theorem follows_suffixes (node : Node) (fewer : ts.length < n) :
    Follows [.suffixes] ts (suffixes node ts) := by
  obtain ⟨k, length⟩ : ∃ k, ts.length = k := ⟨_, rfl⟩
  induction k using Nat.strongRecOn generalizing node ts with
  | ind k ih =>
    cases ts with
    | nil =>
      rw [suffixes]
      exact .leftOut rfl .done
    | cons token rest =>
      have fewer' := Nat.lt_of_succ_lt fewer
      have again {us : List Token} (node : Node) (le : us.length < k) :
          Follows [.suffixes] us (suffixes node us) :=
        ih us.length le node (by omega) rfl
      obtain ⟨kind, start, text⟩ := token
      rw [List.length_cons] at length
      rw [suffixes]
      cases kind with
      | leftBracket =>
        refine .take rfl (follows_tagList.bind fun tags left less _ => ?_)
        refine .expect (fun _ => rfl) rfl fun left less' _ => ?_
        exact (again (.tagged node tags) (by omega)).map fun _ _ _ => ⟨_, _, rfl⟩
      | dice =>
        refine .take_leaf rfl fun size => ?_
        exact (again (.diceCall node size) (by omega)).map fun _ _ _ => ⟨_, _, rfl⟩
      | name =>
        by_cases dice : text = ['d']
        · have begins : Awaited.suffixes.take ⟨.name, start, text⟩ =
              .ok (some [.atom, .suffixes]) := if_pos dice
          simp only [if_pos dice]
          refine .take begins ((below rest fewer').atom.bind fun size left less _ => ?_)
          exact (again (.diceCall node size) (by omega)).map fun _ _ _ => ⟨_, _, rfl⟩
        · simp only [if_neg dice]
          exact .refuse (if_neg dice)
      | _ => exact .skip rfl .done

theorem follows_value (atMost : ts.length ≤ n) : Follows [.atom, .suffixes] ts (value ts) := by
  rw [value]
  refine (follows_atom below atMost).bind fun node left less _ => ?_
  have loop := follows_suffixes below node (Nat.lt_of_lt_of_le less atMost)
  exact loop.map fun _ _ _ => ⟨_, _, rfl⟩

theorem follows_signed (atMost : ts.length ≤ n) : Follows [.signed] ts (signed ts) := by
  have value := follows_value below atMost
  cases ts with
  | nil =>
    rw [signed]
    exact value.of_atom fun token mem => absurd mem (Option.not_mem_none token)
  | cons token rest =>
    rw [signed]
    by_cases minus : token.kind = .minus
    · have begins : Awaited.signed.take token = .ok (some [.signed]) := by
        rw [Awaited.take, Awaited.beginSigned, if_pos minus]
        rfl
      simp only [if_pos minus]
      exact .take begins ((below rest atMost).signed.map fun _ _ _ => ⟨_, _, rfl⟩)
    · simp only [if_neg minus]
      exact value.of_atom fun _ mem => Option.mem_some.mp mem ▸ minus

theorem follows_product (atMost : ts.length ≤ n) :
    Follows [.signed, .factors] ts (product ts) :=
  operatorLevel_product.follows rfl Awaited.take_factors (fun _ => follows_signed below) atMost

theorem follows_addition (atMost : ts.length ≤ n) :
    Follows [.signed, .factors, .summands] ts (addition ts) :=
  operatorLevel_addition.follows rfl Awaited.take_summands (fun _ => follows_product below) atMost

theorem follows_moreItems (fewer : ts.length < n) : Follows [.items] ts (moreItems ts) := by
  obtain ⟨k, length⟩ : ∃ k, ts.length = k := ⟨_, rfl⟩
  induction k using Nat.strongRecOn generalizing ts with
  | ind k ih =>
    by_cases stops : Stops [.comma] ts
    · exact idle_moreItems.follows_optional stops rfl fun _ => rfl
    obtain ⟨token, rest, rfl, mem⟩ := exists_of_not_stops stops
    have comma : token.kind = .comma := List.mem_singleton.mp mem
    rw [List.length_cons] at length fewer
    rw [moreItems, if_pos comma]
    refine .take (Awaited.optionally_of_kind comma) ?_
    split
    · next last =>
      obtain rfl | closes := last
      · exact .leftOut rfl .done
      · obtain ⟨paren, rest, rfl, kind⟩ := startsWith_eq_true.mp closes
        exact .skip (if_pos kind) .done
    · next further =>
      obtain ⟨some_token, opens⟩ := not_or.mp further
      have other := startsWith_eq_false.mp (Bool.eq_false_iff.mpr opens)
      refine .of_signed [.factors, .summands, .items] (fun token mem => ?_)
        (fun none => absurd none some_token) ?_
      · exact if_neg (List.mem_singleton.not.mp (other token mem))
      · refine (below rest (by omega)).addition.bind fun item left less _ => ?_
        exact (ih left.length (by omega) (by omega) rfl).map fun _ _ _ => ⟨_, _, rfl⟩

theorem follows_formula (atMost : ts.length ≤ n) : Follows wholeFormula ts (formula ts) := by
  rw [formula]
  refine (follows_addition below atMost).bind fun first left less _ => ?_
  dsimp only
  split
  · have loop := follows_moreItems below (Nat.lt_of_lt_of_le less atMost)
    exact loop.map fun _ _ _ => ⟨_, _, rfl⟩
  · next other =>
    have stops := startsWith_eq_false.mp (Bool.eq_false_iff.mpr other)
    cases left with
    | nil => exact .leftOut rfl .done
    | cons token rest =>
      exact .skip (Awaited.optionally_of_ne (List.mem_singleton.not.mp (stops token rfl))) .done

end Levels

theorem followsAt (n : ℕ) (ts : List Token) (h : ts.length < n) : FollowsAt ts := by
  induction n generalizing ts with
  | zero => exact absurd h (Nat.not_lt_zero _)
  | succ n ih =>
    have atMost := Nat.le_of_lt_succ h
    exact
      { formula := follows_formula ih atMost
        addition := follows_addition ih atMost
        signed := follows_signed ih atMost
        atom := follows_atom ih atMost }

/-- What becomes of all tokens is said by the parts that are awaited. -/
theorem outcome_of_ofTokens (ts : List Token) :
    (∃ node, ofTokens ts = .ok node ∧ outcome wholeFormula ts = none) ∨
    (∃ fault, ofTokens ts = .error fault ∧ outcome wholeFormula ts = some fault) ∨
    ∃ name ∈ ts, ofTokens ts = .error ⟨.detachedTag, some name⟩ ∧ ¬ Tight ts := by
  have formula := (followsAt _ ts (Nat.lt_succ_self _)).formula
  rw [ofTokens]
  generalize Parser.formula ts = read at formula
  cases formula with
  | @gives node rest h within same =>
    have whole : outcome wholeFormula ts = outcome [] rest := same []
    cases rest with
    | nil => exact .inl ⟨node, rfl, whole⟩
    | cons token rest => exact .inr (.inl ⟨_, rfl, whole⟩)
  | fails same => exact .inr (.inl ⟨_, rfl, same []⟩)
  | detached mem loose => exact .inr (.inr ⟨_, mem, rfl, loose⟩)

end Parser

end RuleText.Formula
