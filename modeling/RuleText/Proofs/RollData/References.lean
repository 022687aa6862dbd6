import RuleText.Proofs.Damage.Evaluation
import RuleText.Proofs.Formula.Brackets
import RuleText.Proofs.Formula.Layout
import RuleText.Proofs.RollData.Access

/-!
# References in formulas and in arguments

A reference is an `@` with a path, which is written as a name with further names after points
and indexes in brackets. An argument that is a reference stands for what the path leads to. So
does a formula, if its path is made of names only: a formula takes a bracket for the beginning
of tags, and a path with an index is no formula.
-/

namespace RuleText

open Damage (Payload)
open Formula (Kind Token Lexes Munches Breaks Derives)

/-- A further piece of a written path: a name after a point, or digits in brackets. -/
inductive Reference.Piece where
  | name (identifier : Text)
  | index (digits : Text)

namespace Reference.Piece

/-- Names are ASCII identifiers, and indexes are made of decimal digits. -/
def Proper : Piece → Prop
  | name identifier => identifier ∈ Kind.name.pattern
  | index digits => digits ∈ Kind.integer.pattern

/-- The piece as it is written. -/
def text : Piece → Text
  | name identifier => '.' :: identifier
  | index digits => '[' :: (digits ++ [']'])

end Reference.Piece

/-- A path as references write it. -/
structure Reference where
  name : Text
  pieces : List Reference.Piece
  isName : name ∈ Kind.name.pattern
  proper : ∀ piece ∈ pieces, piece.Proper

namespace Reference

/-- The written path. -/
def path (r : Reference) : Text :=
  r.name ++ r.pieces.flatMap Piece.text

/-- The path with its `@`. -/
def text (r : Reference) : Text :=
  '@' :: r.path

/-- The path has no index. -/
def Plain (r : Reference) : Prop :=
  ∃ names : List Text, r.pieces = names.map Piece.name

/-- The first index of the path has the digits, and what is before them is the text. -/
def Indexed (r : Reference) (before digits : Text) : Prop :=
  ∃ (names : List Text) (more : List Piece), r.pieces = names.map .name ++ .index digits :: more ∧
    before = '@' :: (r.name ++ (names.map Piece.name).flatMap Piece.text) ++ ['[']

theorem plain_or_indexed (r : Reference) : r.Plain ∨ ∃ before digits, r.Indexed before digits := by
  have cut (pieces : List Piece) : ∃ (names : List Text) (rest : List Piece),
      pieces = names.map .name ++ rest ∧
        (rest = [] ∨ ∃ digits more, rest = .index digits :: more) := by
    induction pieces with
    | nil => exact ⟨[], [], rfl, .inl rfl⟩
    | cons piece pieces ih =>
      obtain ⟨names, rest, rfl, ends⟩ := ih
      cases piece with
      | name name => exact ⟨name :: names, rest, rfl, ends⟩
      | index digits => exact ⟨[], _, rfl, .inr ⟨digits, _, rfl⟩⟩
  obtain ⟨names, rest, split, rfl | ⟨digits, more, rfl⟩⟩ := cut r.pieces
  · exact .inl ⟨names, by rw [split, List.append_nil]⟩
  · exact .inr ⟨_, digits, names, more, split, rfl⟩

/-! ### Reading a reference in a formula -/

theorem mem_pattern_names {name : Text} {names : List Text} (isName : name ∈ Kind.name.pattern)
    (areNames : ∀ name ∈ names, name ∈ Kind.name.pattern) :
    '@' :: (name ++ (names.map Piece.name).flatMap Piece.text) ∈ Kind.reference.pattern := by
  have dotted : (names.map Piece.name).flatMap Piece.text ∈ Formula.dottedShape := by
    induction names with
    | nil => exact Formula.mem_dottedShape.mpr (.inl rfl)
    | cons next names ih =>
      obtain ⟨first, rest⟩ := List.forall_mem_cons.mp areNames
      refine Formula.mem_dottedShape.mpr (.inr ?_)
      exact ⟨['.'], Formula.mem_single.mpr rfl, _, ⟨next, first, _, ih rest, rfl⟩, by
        simp [Piece.text]⟩
  exact ⟨['@'], Formula.mem_single.mpr rfl, _, ⟨name, isName, _, dotted, rfl⟩, rfl⟩

theorem areNames_of_split {r : Reference} {names : List Text} {rest : List Piece}
    (split : r.pieces = names.map .name ++ rest) : ∀ name ∈ names, name ∈ Kind.name.pattern := by
  intro name mem
  exact r.proper (.name name) (split ▸ List.mem_append_left _ (List.mem_map_of_mem mem))

/-- A path without an index is one token. -/
theorem parse_plain {r : Reference} (plain : r.Plain) :
    Formula.parse r.text = .ok (.reference r.path) := by
  obtain ⟨names, pieces⟩ := plain
  have split : r.pieces = names.map .name ++ [] := by rw [pieces, List.append_nil]
  have matching : r.text ∈ Kind.reference.pattern := by
    rw [text, path, pieces]
    exact mem_pattern_names r.isName (areNames_of_split split)
  apply Formula.parse_of_readsAs
  refine .of_token .reference matching (fun name => absurd name (by decide)) fun start => ?_
  exact .addition_of_value (.bare (.reference rfl))

/-- A path with an index is cut before its first bracket, and the digits are unexpected. -/
theorem parse_indexed {r : Reference} {before digits : Text} (h : r.Indexed before digits) :
    Formula.parse r.text = .error ⟨.unexpectedToken (some .integer) Formula.Parser.tagKinds,
      before.utf8Size, before.utf8Size + digits.utf8Size, digits⟩ := by
  obtain ⟨names, more, pieces, rfl⟩ := h
  obtain ⟨reference, same⟩ : ∃ t : Text,
      t = '@' :: (r.name ++ (names.map Piece.name).flatMap Piece.text) := ⟨_, rfl⟩
  have matching : reference ∈ Kind.reference.pattern :=
    same ▸ mem_pattern_names r.isName (areNames_of_split pieces)
  have isInteger : digits ∈ Kind.integer.pattern :=
    r.proper (.index digits) (by rw [pieces]; simp)
  have split : r.text = reference ++ '[' :: (digits ++ ']' :: more.flatMap Piece.text) := by
    rw [text, path, pieces, same]
    simp [Piece.text]
  have lexed : Lexes 0 r.text (⟨.reference, 0, reference⟩ ::
      ⟨.leftBracket, 0 + reference.utf8Size, ['[']⟩ ::
      ⟨.integer, 0 + reference.utf8Size + Text.utf8Size ['['], digits⟩ ::
      Token.ofTextFrom (0 + reference.utf8Size + Text.utf8Size ['['] + digits.utf8Size)
        (']' :: more.flatMap Piece.text)) := by
    rw [split]
    have opening : Breaks '[' := .inr ⟨.leftBracket, rfl⟩
    have closing : Breaks ']' := .inr ⟨.rightBracket, rfl⟩
    refine .token (.of_breaks matching (fun name => absurd name (by decide)) opening _) ?_
    refine .token (s := ['[']) (.of_symbol rfl _) ?_
    refine .token (.of_breaks isInteger (fun name => absurd name (by decide)) closing _) ?_
    exact Formula.lexes_ofTextFrom _ _
  rw [Formula.parse, Token.ofText, ← lexed.eq_ofTextFrom,
    Formula.Parser.ofTokens_indexed rfl rfl rfl, ← same]
  simp [Formula.Fault.toError, Token.stop]

/-! ### The value of a reference -/

section Value

variable {data : RollData} {r : Reference}

theorem evaluated_of_plain (plain : r.Plain) {n : Amount}
    (found : data.lookup r.path = .ok (.number (.int n.toInt))) :
    Payload.ofText data r.text = .ok (.evaluated (.ofTerm (.constant n))) := by
  rw [Payload.ofText, parse_plain plain]
  dsimp only
  rw [Damage.evaluateDamage, Damage.evaluate,
    Damage.reference_of_integral found (Amount.fits_toInt n), Int64.ofInt_toInt]
  rfl

theorem unknownPath_of_plain (plain : r.Plain) {e : PathError}
    (missing : data.lookup r.path = .error e) :
    Payload.ofText data r.text = .error (.unknownPath e) := by
  rw [Payload.ofText, parse_plain plain]
  dsimp only
  rw [Damage.evaluateDamage, Damage.evaluate, Damage.reference, missing]
  rfl

/-- With an index it is no formula, whatever the path leads to. -/
theorem literal_of_indexed (data : RollData) {before digits : Text} (h : r.Indexed before digits) :
    Payload.ofText data r.text = .ok (.literal r.text ⟨.unexpectedToken (some .integer)
      Formula.Parser.tagKinds, before.utf8Size, before.utf8Size + digits.utf8Size, digits⟩) := by
  rw [Payload.ofText, parse_indexed h]

/-- What only a formula gives shows that the path has no index. -/
theorem plain_of_not_literal {result : Except Damage.EvalError Payload}
    (value : Payload.ofText data r.text = result)
    (formula : ∀ e, result ≠ .ok (.literal r.text e)) : r.Plain := by
  obtain plain | ⟨before, digits, indexed⟩ := r.plain_or_indexed
  · exact plain
  · exact absurd (value.symm.trans (literal_of_indexed data indexed)) (formula _)

theorem resolve_of_found {n : Int} (found : data.lookup r.path = .ok (.number (.int n))) :
    data.resolve r.text = Text.ofInt n := by
  simp only [text, RollData.resolve, found]
  rfl

theorem resolve_of_missing {e : PathError} (missing : data.lookup r.path = .error e) :
    data.resolve r.text = r.text := by
  simp only [text, RollData.resolve, missing]

end Value

end Reference

/-- References in formulas and in arguments.

If a path leads to an integer, its reference as an argument gives the digits of the integer. If
it leads nowhere, the argument stays as it is. As the text of damage, the reference gives the
integer as a constant or the error that names the path, exactly if the path has no index. With
an index the text stays as it is, because the digits of the first index are no tag. -/
theorem reference_in_formula_and_argument (data : RollData) (r : Reference) :
    (∀ n : Amount, data.lookup r.path = .ok (.number (.int n.toInt)) →
      data.resolve r.text = Text.ofInt n.toInt ∧
      (Payload.ofText data r.text = .ok (.evaluated (.ofTerm (.constant n))) ↔ r.Plain)) ∧
    (∀ e, data.lookup r.path = .error e →
      e = ⟨r.path⟩ ∧ data.resolve r.text = r.text ∧
      (Payload.ofText data r.text = .error (.unknownPath e) ↔ r.Plain)) ∧
    (r.Plain ∨ ∃ before digits, r.Indexed before digits ∧
      Payload.ofText data r.text = .ok (.literal r.text ⟨.unexpectedToken (some .integer)
        Formula.Parser.tagKinds, before.utf8Size, before.utf8Size + digits.utf8Size, digits⟩)) := by
  refine ⟨fun n found => ⟨Reference.resolve_of_found found, fun value => ?_, fun plain => ?_⟩,
    fun e missing => ⟨?_, Reference.resolve_of_missing missing, fun value => ?_, fun plain => ?_⟩,
    ?_⟩
  · exact Reference.plain_of_not_literal value (by simp)
  · exact Reference.evaluated_of_plain plain found
  · exact RollData.path_of_lookup_error missing
  · exact Reference.plain_of_not_literal value (by simp)
  · exact Reference.unknownPath_of_plain plain missing
  · obtain plain | ⟨before, digits, indexed⟩ := r.plain_or_indexed
    · exact .inl plain
    · exact .inr ⟨before, digits, indexed, Reference.literal_of_indexed data indexed⟩

/-- The first element under the name `a`. -/
def Reference.first : Reference where
  name := ['a']
  pieces := [.index ['0']]
  isName := Formula.mem_oneOf_mul_kstar.mpr ⟨'a', [], rfl, by decide, List.forall_mem_nil _⟩
  proper := by
    rintro piece mem
    rw [List.mem_singleton.mp mem]
    exact Formula.mem_digits.mpr ⟨List.cons_ne_nil _ _, List.forall_mem_singleton.mpr (by decide)⟩

/-- Roll data with a list of one number. -/
def RollData.fives : RollData :=
  ⟨[(['a'], .array [.number (.int 5)])]⟩

/-- A reference with an index does not mean the same in a formula as in an argument. -/
theorem not_evaluated_of_indexed :
    ¬ ∀ (data : RollData) (r : Reference),
      (∀ n : Amount, data.lookup r.path = .ok (.number (.int n.toInt)) →
        Payload.ofText data r.text = .ok (.evaluated (.ofTerm (.constant n))) ∧
        data.resolve r.text = Text.ofInt n.toInt) ∧
      (∀ e, data.lookup r.path = .error e →
        Payload.ofText data r.text = .error (.unknownPath ⟨r.path⟩) ∧
        data.resolve r.text = r.text) := by
  intro means
  have found : RollData.fives.lookup Reference.first.path = .ok (.number (.int 5)) := by
    have steps : Path.steps? Reference.first.path = some [.key ['a'], .index 0] := by
      decide +kernel
    rw [RollData.lookup, steps]
    rfl
  have value := ((means RollData.fives Reference.first).1 5 found).1
  have indexed : Reference.first.Indexed "@a[".toList ['0'] := ⟨[], [], rfl, rfl⟩
  rw [Reference.literal_of_indexed _ indexed] at value
  cases value

end RuleText
