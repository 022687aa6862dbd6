import RuleText.Proofs.Formula.Reading

/-!
# An index is no tag

What follows a reference in brackets is read as tags, and a tag is no integer. So a reference
with an index behind it is no formula (`ofTokens_indexed`).
-/

namespace RuleText.Formula

namespace Parser

variable {token opening : Token} {ts : List Token} {fault : Fault}

theorem tag_of_stops (stops : Stops tagKinds ts) :
    tag ts = .error (Fault.unexpected tagKinds ts) := by
  cases ts with
  | nil => rw [tag]
  | cons token ts =>
    have other := stops_cons.mp stops
    rw [tag]
    split
    all_goals first | rfl | simp_all [tagKinds]

theorem tagList_of_error (h : tag ts = .error fault) : tagList ts = .error fault := by
  rw [tagList, h]
  rfl

theorem suffixes_of_error (node : Node) (opens : opening.kind = .leftBracket)
    (h : tagList ts = .error fault) : suffixes node (opening :: ts) = .error fault := by
  rw [suffixes]
  simp only [opens, h]
  rfl

/-- A reference with an index behind it is no formula: the index is unexpected. -/
theorem ofTokens_indexed {integer : Token} (reference : token.kind = .reference)
    (opens : opening.kind = .leftBracket) (indexed : integer.kind = .integer) :
    ofTokens (token :: opening :: integer :: ts) =
      .error ⟨.unexpectedToken (some .integer) tagKinds, some integer⟩ := by
  have stops : Stops tagKinds (integer :: ts) := by
    rw [stops_cons, indexed]
    decide
  have unexpected : Fault.unexpected tagKinds (integer :: ts) =
      ⟨.unexpectedToken (some .integer) tagKinds, some integer⟩ := by
    rw [Fault.unexpected, indexed]
    rfl
  have tags := suffixes_of_error (.reference (token.text.drop 1)) opens
    (tagList_of_error (tag_of_stops stops))
  rw [unexpected] at tags
  have read : value (token :: opening :: integer :: ts) =
      .error ⟨.unexpectedToken (some .integer) tagKinds, some integer⟩ := by
    rw [value, atom.eq_def]
    simp only [reference]
    show (suffixes _ (opening :: integer :: ts) >>= _) = _
    rw [tags]
    rfl
  have unsigned : signed (token :: opening :: integer :: ts) =
      value (token :: opening :: integer :: ts) := by
    rw [signed, if_neg (by rw [reference]; decide)]
  rw [ofTokens, formula, addition, product, unsigned, read]
  rfl

end Parser

end RuleText.Formula
