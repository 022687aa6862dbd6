import RuleText.Proofs.Formula.Viability

/-!
# Errors are reported at the right place

The error of a text that is no formula is reported at one of its tokens, or at the end. If it
says what is expected, no formula has the tokens up to this one, and if besides no minus sign of
the text has a blank beside it, there is a formula that goes on with what is expected instead
(`parse_error_reported`).

That formula is written behind the tokens that come before, which stay where they are. Without
the condition on minus signs the pieces of a tag might be detached there.
-/

namespace RuleText.Formula

/-! ### Beginnings of formulas -/

/-- A formula begins with the tokens, each at its place. -/
def Begins (ts : List Token) : Prop :=
  ∃ t node, parse t = .ok node ∧ ts <+: Token.ofText t

/-- The tokens, each at its place, are a formula. -/
def Whole (ts : List Token) : Prop :=
  ∃ t node, parse t = .ok node ∧ Token.ofText t = ts

/-- No formula begins with the tokens `before` and the next one, whatever their places are, and
the tokens `before` are no formula if there is no next one. -/
structure Blocks (before rest : List Token) : Prop where
  token : ∀ token ∈ rest.head?, ∀ t node, parse t = .ok node →
    ¬ (before ++ [token]).map Token.content <+: (Token.ofText t).map Token.content
  ends : rest = [] → ∀ t node, parse t = .ok node →
    (Token.ofText t).map Token.content ≠ before.map Token.content

/-- A formula begins with the tokens `before`. Each expected kind can come next, or the end if
none is expected. -/
structure Continues (before : List Token) (expected : List Kind) : Prop where
  begins : Begins before
  next : ∀ kind ∈ expected, ∃ token, token.kind = kind ∧ Begins (before ++ [token])
  ends : expected = [] → Whole before

/-- The error of a text is reported behind the tokens `before`. -/
structure ReportedAt (t : Text) (e : ParseError) (before rest : List Token) : Prop where
  tokens : Token.ofText t = before ++ rest
  /-- The place lies between characters of the text, and the slice is what stands there. -/
  place : ∃ front back, t = front ++ (e.slice ++ back) ∧ e.start = front.utf8Size ∧
    e.stop = (front ++ e.slice).utf8Size
  /-- It is the place of the next token. -/
  token : ∀ token ∈ rest.head?, e.start = token.start ∧ e.stop = token.stop ∧ e.slice = token.text
  /-- It is the empty place at the end if there is no next token. -/
  ends : rest = [] → e.start = t.utf8Size ∧ e.stop = t.utf8Size ∧ e.slice = []
  missing : rest = [] ↔ ∃ expected, e.cause = .unexpectedToken none expected

section Outcomes

variable {t : Text} {node : Node} {e : ParseError}

theorem outcome_of_parse (h : parse t = .ok node) :
    outcome wholeFormula (Token.ofText t) = none := by
  obtain ⟨_, -, done⟩ | ⟨fault, read, -⟩ | ⟨_, -, read, -⟩ :=
    Parser.outcome_of_ofTokens (Token.ofText t)
  · exact done
  · rw [parse, read] at h
    cases h
  · rw [parse, read] at h
    cases h

theorem parse_of_outcome (tight : Tight (Token.ofText t))
    (done : outcome wholeFormula (Token.ofText t) = none) : ∃ node, parse t = .ok node := by
  obtain ⟨node, read, -⟩ | ⟨fault, -, failed⟩ | ⟨_, -, -, loose⟩ :=
    Parser.outcome_of_ofTokens (Token.ofText t)
  · exact ⟨node, by rw [parse, read]⟩
  · rw [done] at failed
    cases failed
  · exact absurd tight loose

theorem parse_error_of_outcome {fault : Fault} (tight : Tight (Token.ofText t))
    (met : outcome wholeFormula (Token.ofText t) = some fault) :
    parse t = .error (fault.toError t) := by
  obtain ⟨_, -, done⟩ | ⟨fault', read, failed⟩ | ⟨_, -, -, loose⟩ :=
    Parser.outcome_of_ofTokens (Token.ofText t)
  · cases done.symm.trans met
  · obtain rfl := Option.some.inj (failed.symm.trans met)
    rw [parse, read]
  · exact absurd tight loose

end Outcomes

section Refused

variable {before rest : List Token} {awaited : List Awaited} {fault : Fault}

theorem blocks_of_refuses (reaches : Reaches wholeFormula before awaited)
    (refuses : Refuses awaited rest fault) : Blocks before rest where
  token := by
    intro token mem t node read within
    obtain ⟨more, rfl⟩ := List.head?_eq_some_iff.mp mem
    obtain ⟨ts, ⟨behind, whole⟩, contents⟩ := List.prefix_map_iff.mp within
    rw [List.map_append] at contents
    obtain ⟨before', ts', rfl, same, last⟩ := List.append_eq_map_iff.mp contents
    have done := outcome_of_parse read
    rw [← whole, List.append_assoc,
      (reaches.of_alike (allAlike_of_content same.symm)).outcome_append] at done
    obtain ⟨next, fed⟩ := exists_reaches done
    have alike : AllAlike ts' [token] := allAlike_of_content last
    cases fed.of_alike alike with
    | step fed _ =>
      rw [refuses_iff_feed.mp refuses] at fed
      cases fed
  ends := by
    rintro rfl t node read same
    have reaches := reaches.of_alike (allAlike_of_content same.symm)
    have done := outcome_of_parse read
    rw [← List.append_nil (Token.ofText t), reaches.outcome_append,
      refuses_iff_outcome.mp refuses] at done
    cases done

/-- The place of a fault is that of the first token that is left. -/
theorem reportedAt_of_fault {t : Text} (tokens : Token.ofText t = before ++ rest)
    (place : fault.token = rest.head?)
    (missing : rest = [] ↔ ∃ expected, fault.cause = .unexpectedToken none expected) :
    ReportedAt t (fault.toError t) before rest := by
  obtain ⟨cause, at_fault⟩ := fault
  obtain rfl : at_fault = rest.head? := place
  cases rest with
  | nil =>
    exact
      { tokens
        place := ⟨t, [], by simp [Fault.toError], rfl, by simp [Fault.toError]⟩
        token := nofun
        ends := fun _ => ⟨rfl, rfl, rfl⟩
        missing }
  | cons token rest =>
    have mem : token ∈ Token.ofText t := by simp [tokens]
    obtain ⟨front, back, split, start, -⟩ := (lexes_ofTextFrom 0 t).stands token mem
    rw [Nat.zero_add] at start
    refine ⟨tokens, ⟨front, back, split, start, ?_⟩, ?_, nofun, missing⟩
    · rw [Text.utf8Size_append, ← start]
      rfl
    · rintro _ ⟨⟩
      exact ⟨rfl, rfl, rfl⟩

/-- Tokens up to a place can be completed wherever what is awaited behind them can. -/
theorem exists_whole {t : Text} (tokens : Token.ofText t = before ++ rest)
    (tight : Tight (Token.ofText t)) (reaches : Reaches wholeFormula before awaited)
    {kinds : List Kind} (known : ∀ kind ∈ kinds, kind ≠ .unknown ∧ kind ≠ .minus)
    (completes : ∀ ts, ts.map Token.content = kinds.map Kind.content → outcome awaited ts = none) :
    ∃ ts, ts.map Token.content = kinds.map Kind.content ∧ Whole (before ++ ts) := by
  have lexed : Lexes 0 t (before ++ rest) := tokens ▸ lexes_ofTextFrom 0 t
  rw [tokens] at tight
  obtain ⟨u, -, lexed, stop⟩ := lexed.front
  obtain ⟨w, ts, lexed, contents, tight⟩ :=
    lexed.write stop (List.isChain_append.mp tight).1 known
  have written : Token.ofText (u ++ w) = before ++ ts := lexed.eq_ofTextFrom.symm
  have done : outcome wholeFormula (before ++ ts) = none :=
    (reaches.outcome_append ts).trans (completes ts contents)
  rw [← written] at tight done
  obtain ⟨node, read⟩ := parse_of_outcome tight done
  exact ⟨ts, contents, u ++ w, node, read, written⟩

theorem Whole.begins (h : Whole (before ++ rest)) : Begins before := by
  obtain ⟨t, node, read, tokens⟩ := h
  exact ⟨t, node, read, rest, tokens.symm⟩

/-- What is expected where tokens are refused can come there. -/
theorem continues_of_refuses {t : Text} (tokens : Token.ofText t = before ++ rest)
    (tight : Tight (Token.ofText t)) (reaches : Reaches wholeFormula before awaited)
    (refuses : Refuses awaited rest fault) {expected : List Kind}
    (said : fault.cause.expected? = some expected) : Continues before expected where
  begins := by
    have ordered := reaches.ordered ordered_wholeFormula
    obtain ⟨ts, -, whole⟩ := exists_whole tokens tight reaches (known_completion awaited)
      fun _ => ordered.outcome_completion
    exact whole.begins
  next := by
    intro kind mem
    have ordered := reaches.ordered ordered_wholeFormula
    obtain ⟨more, known, completes⟩ := refuses.exists_completion ordered said mem
    obtain ⟨ts, contents, whole⟩ := exists_whole tokens tight reaches known completes
    obtain ⟨token, ts, rfl, sample, -⟩ := List.map_eq_cons_iff.mp contents
    rw [List.append_cons] at whole
    exact ⟨token, congrArg Prod.fst sample, whole.begins⟩
  ends := by
    rintro rfl
    have known : ∀ kind ∈ ([] : List Kind), kind ≠ .unknown ∧ kind ≠ .minus := nofun
    obtain ⟨ts, contents, whole⟩ := exists_whole tokens tight reaches known fun ts samples => by
      obtain rfl := List.map_eq_nil_iff.mp samples
      exact refuses.ends said
    obtain rfl := List.map_eq_nil_iff.mp contents
    rwa [List.append_nil] at whole

end Refused

/-- Errors are reported at the right place.

The place of an error is that of a token, or the empty one at the end of the text, just when the
error says that the end is unexpected. An error that says what is expected stands at the first
token that no formula can have there, and what it expects can come instead. -/
theorem parse_error_reported {t : Text} {e : ParseError} (h : parse t = .error e) :
    ∃ before rest, ReportedAt t e before rest ∧
      ∀ expected, e.cause.expected? = some expected →
        Blocks before rest ∧ (Snug t → Continues before expected) := by
  obtain ⟨fault, read, rfl⟩ : ∃ fault, Parser.ofTokens (Token.ofText t) = .error fault ∧
      fault.toError t = e := by
    rw [parse] at h
    generalize Parser.ofTokens (Token.ofText t) = result at h
    cases result with
    | ok node => cases h
    | error fault => exact ⟨fault, rfl, Except.error.inj h⟩
  simp only [cause_toError]
  obtain ⟨node, whole, -⟩ | ⟨fault', failed, met⟩ | ⟨name, mem, failed, -⟩ :=
    Parser.outcome_of_ofTokens (Token.ofText t)
  · cases read.symm.trans whole
  · obtain rfl := Except.error.inj (read.symm.trans failed)
    obtain ⟨before, rest, awaited, tokens, reaches, refuses⟩ := exists_refuses met
    refine ⟨before, rest, reportedAt_of_fault tokens refuses.token refuses.missing,
      fun expected said => ⟨blocks_of_refuses reaches refuses, fun snug => ?_⟩⟩
    have tight : Tight (Token.ofText t) := (lexes_ofTextFrom 0 t).tight snug
    exact continues_of_refuses tokens tight reaches refuses said
  · -- A detached name is found where it stands, and nothing is said to be expected.
    obtain rfl := Except.error.inj (read.symm.trans failed)
    obtain ⟨before, rest, tokens⟩ := List.append_of_mem mem
    refine ⟨before, name :: rest, reportedAt_of_fault tokens rfl (by simp),
      fun expected said => ?_⟩
    cases said

/-- Tags that are not closed are reported at the parenthesis, where a bracket can come. -/
theorem reported_openTags :
    parse "(a-1[b) + 2".toList =
      .error ⟨.unexpectedToken (some .rightParen) [.rightBracket], 6, 7, [')']⟩ ∧
    ∃ before rest, ReportedAt "(a-1[b) + 2".toList
        ⟨.unexpectedToken (some .rightParen) [.rightBracket], 6, 7, [')']⟩ before rest ∧
      Blocks before rest ∧ Continues before [.rightBracket] := by
  have snug : Snug "(a-1[b) + 2".toList := by
    unfold Snug
    decide
  have tokens : Token.ofText "(a-1[b) + 2".toList =
      [⟨.leftParen, 0, ['(']⟩, ⟨.name, 1, ['a']⟩, ⟨.minus, 2, ['-']⟩, ⟨.integer, 3, ['1']⟩,
        ⟨.leftBracket, 4, ['[']⟩, ⟨.name, 5, ['b']⟩, ⟨.rightParen, 6, [')']⟩, ⟨.plus, 8, ['+']⟩,
        ⟨.integer, 10, ['2']⟩] := by decide +kernel
  have met : outcome wholeFormula (Token.ofText "(a-1[b) + 2".toList) =
      some ⟨.unexpectedToken (some .rightParen) [.rightBracket],
        some ⟨.rightParen, 6, [')']⟩⟩ := by
    rw [tokens]
    rfl
  have refused := parse_error_of_outcome ((lexes_ofTextFrom 0 _).tight snug) met
  obtain ⟨before, rest, reported, justified⟩ := parse_error_reported refused
  obtain ⟨blocks, continues⟩ := justified [.rightBracket] rfl
  exact ⟨refused, before, rest, reported, blocks, continues snug⟩

end RuleText.Formula
