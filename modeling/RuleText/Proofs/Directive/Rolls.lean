import Mathlib.Data.List.Basic
import RuleText.Enrichment.Basic
import RuleText.Proofs.Arguments.Unused

/-!
# The text of inline rolls

The amount of an inline roll is cut at spaces, and its pieces are put together again. Each
piece is looked at as an argument: a piece with an equals sign has a key, which no roll has a
use for, and is refused. Of all pieces with an equals sign only those pass that have the same
text on both sides of the first one, for such an argument counts as positional; of these
pieces only one side is shown. So no text is lost exactly if no piece holds an equals sign
(`resolveInline_roll`).
-/

namespace RuleText

open Directive

namespace Directive

/-! ### Pieces -/

/-- The two sides of the first equals sign of a piece; without one, twice the piece. -/
def sides (piece : Text) : Text × Text :=
  (Argument.ofText '=' piece).pair

/-- The piece has the same text on both sides of its first equals sign. -/
def Doubled (piece : Text) : Prop :=
  ∃ half, piece = half ++ '=' :: half ∧ '=' ∉ half

variable {piece : Text}

theorem sides_of_not_mem (plain : '=' ∉ piece) : sides piece = (piece, piece) := by
  rw [sides, Argument.ofText, Text.splitOnce_eq_none.mpr plain]
  rfl

theorem sides_append {key value : Text} (first : '=' ∉ key) :
    sides (key ++ '=' :: value) = (key, value) := by
  rw [sides, Argument.ofText, Text.splitOnce_append first]
  rfl

theorem exists_of_mem (cut : '=' ∈ piece) :
    ∃ key value, piece = key ++ '=' :: value ∧ '=' ∉ key := by
  cases found : Text.splitOnce '=' piece with
  | none => exact absurd cut (Text.splitOnce_eq_none.mp found)
  | some both => exact ⟨both.1, both.2, Text.eq_of_splitOnce found⟩

/-- The pieces that count as positional. -/
theorem sides_eq_iff : (sides piece).1 = (sides piece).2 ↔ ('=' ∈ piece → Doubled piece) := by
  by_cases cut : '=' ∈ piece
  · obtain ⟨key, value, rfl, first⟩ := exists_of_mem cut
    rw [sides_append first]
    constructor
    · intro same _
      exact ⟨key, by rw [← show key = value from same], first⟩
    · intro doubled
      obtain ⟨half, same, first'⟩ := doubled cut
      have both : sides (key ++ '=' :: value) = (key, value) := sides_append first
      rw [same, sides_append first'] at both
      exact (Prod.mk.inj both).1.symm.trans (Prod.mk.inj both).2
  · simp [sides_of_not_mem cut, cut]

/-- A piece is shown as it is only if it has no equals sign. -/
theorem sides_snd_eq_iff : (sides piece).2 = piece ↔ '=' ∉ piece := by
  constructor
  · intro same cut
    obtain ⟨key, value, rfl, first⟩ := exists_of_mem cut
    rw [sides_append first] at same
    have length := congrArg List.length same
    simp only [List.length_append, List.length_cons] at length
    omega
  · intro plain
    rw [sides_of_not_mem plain]

theorem mem_of_mem_sides_snd {c : Char} (h : c ∈ (sides piece).2) : c ∈ piece := by
  by_cases cut : '=' ∈ piece
  · obtain ⟨key, value, rfl, first⟩ := exists_of_mem cut
    rw [sides_append first] at h
    exact List.mem_append_right _ (List.mem_cons_of_mem _ h)
  · rwa [sides_of_not_mem cut] at h

/-! ### Payloads -/

/-- The amount of a payload: what stands before the first `#`, trimmed. -/
def amountOf (payload : Text) : Text :=
  (((Text.splitOnce '#' payload).map Prod.fst).getD payload).trim

/-- The label of a payload: what stands behind the first `#`. -/
def labelOf (payload : Text) : Option Text :=
  (Text.splitOnce '#' payload).map Prod.snd

/-- An amount with a label behind it, if there is one and it is not empty. -/
def labelled (amount : Text) (label : Option Text) : Text :=
  match label.filter (· ≠ []) with
  | some label => amount ++ ' ' :: label
  | none => amount

/-- The pieces of an amount. -/
def piecesOf (amount : Text) : List Text :=
  amount.splitOn ' '

theorem joined_piecesOf (amount : Text) : Text.joined [' '] (piecesOf amount) = amount :=
  List.intercalate_splitOn ' '

theorem not_mem_of_mem_piecesOf {amount : Text} (h : piece ∈ piecesOf amount) : ' ' ∉ piece := by
  unfold piecesOf at h
  induction amount generalizing piece with
  | nil => simp_all
  | cons c amount ih =>
    rw [List.splitOn_cons_eq_if_modifyHead] at h
    split_ifs at h with blank
    · obtain rfl | later := List.mem_cons.mp h
      · exact List.not_mem_nil
      · exact ih later
    · cases rest : amount.splitOn ' ' with
      | nil => exact absurd rest (List.splitOn_ne_nil _ _)
      | cons first more =>
        rw [rest] at h ih
        obtain rfl | later := List.mem_cons.mp h
        · rw [List.mem_cons, not_or]
          exact ⟨fun same => blank (beq_iff_eq.mpr same.symm), ih List.mem_cons_self⟩
        · exact ih (List.mem_cons_of_mem _ later)

/-- Pieces without spaces are those of the text that they make. -/
theorem joined_eq_iff {amount : Text} {pieces : List Text} (some_pieces : pieces ≠ [])
    (plain : ∀ piece ∈ pieces, ' ' ∉ piece) :
    Text.joined [' '] pieces = amount ↔ pieces = piecesOf amount := by
  constructor
  · rintro rfl
    exact (List.splitOn_intercalate ' ' plain some_pieces).symm
  · rintro rfl
    exact joined_piecesOf amount

/-- Shown by one side each, the pieces make the whole amount only if none was cut. -/
theorem joined_sides_eq_iff {amount : Text} :
    Text.joined [' '] ((piecesOf amount).map fun piece => (sides piece).2) = amount ↔
      ∀ piece ∈ piecesOf amount, '=' ∉ piece := by
  have plain : ∀ side ∈ (piecesOf amount).map fun piece => (sides piece).2, ' ' ∉ side := by
    intro side hs blank
    obtain ⟨piece, hp, rfl⟩ := List.mem_map.mp hs
    exact not_mem_of_mem_piecesOf hp (mem_of_mem_sides_snd blank)
  have some_pieces : ((piecesOf amount).map fun piece => (sides piece).2) ≠ [] := by
    simp [piecesOf, List.splitOn_ne_nil]
  have same := List.map_inj_left (l := piecesOf amount) (f := fun piece => (sides piece).2)
    (g := id)
  rw [List.map_id] at same
  rw [joined_eq_iff some_pieces plain, same]
  simp only [id_eq, sides_snd_eq_iff]

theorem labelled_inj {amount amount' : Text} {label : Option Text} :
    labelled amount label = labelled amount' label ↔ amount = amount' := by
  unfold labelled
  cases label.filter (· ≠ []) with
  | none => rfl
  | some label => exact List.append_left_inj _

/-! ### The handler -/

theorem handle_roll (args : Arguments) (label : Option Text) (id : Nat) :
    handle args (roll label) id =
      (args.outcome (.ok (labelled (Text.joined [' '] args.takePositional.1) label,
        args.takePositional.2)), id) := by
  unfold handle roll labelled
  cases label.filter (· ≠ []) <;> rfl

end Directive

namespace Enricher

variable {o : Occurrence}

/-- The names of inline rolls, in small letters. -/
def rollNames : List Text :=
  ["r".toList, "pr".toList, "gmr".toList, "br".toList, "sr".toList]

theorem ofInlineName_of_mem_rollNames {name : Text} (named : name.lowerAscii ∈ rollNames) :
    Kind.ofInlineName name = .roll := by
  rw [Kind.ofInlineName]
  simp only [rollNames, List.mem_cons, List.not_mem_nil, or_false] at named
  obtain same | same | same | same | same := named <;> rw [same] <;> rfl

/-- The arguments of an inline roll. -/
def rollArguments (o : Occurrence) : Arguments :=
  .ofText (amountOf o.payload) ' ' '=' ("[[/".toList ++ o.name ++ "]]".toList)

theorem resolveInline_eq_handle (data : RollData) (named : o.name.lowerAscii ∈ rollNames)
    (bare : o.display = none) :
    resolveInline data o = handle (rollArguments o) (roll (labelOf o.payload)) := by
  rw [resolveInline, bare]
  dsimp only
  rw [ofInlineName_of_mem_rollNames named, rollArguments, amountOf, labelOf]
  cases Text.splitOnce '#' o.payload <;> rfl

theorem unused_rollArguments (o : Occurrence) :
    (rollArguments o).unused = (piecesOf (amountOf o.payload)).map sides := by
  rw [rollArguments, Arguments.unused_ofText, Arguments.pairs, Arguments.ofText, List.map_map]
  rfl

/-- An inline roll without a display text is refused if some piece of its amount has different
texts on the two sides of an equals sign, and the error lists the keys of all such pieces.
Otherwise it becomes its pieces, of doubled ones one half, with the label behind them. This is
the whole amount exactly if no piece holds an equals sign. -/
theorem resolveInline_roll (data : RollData) (named : o.name.lowerAscii ∈ rollNames)
    (bare : o.display = none) (id : Nat) :
    let amount := amountOf o.payload
    let label := labelOf o.payload
    let pieces := piecesOf amount
    ((∃ piece ∈ pieces, '=' ∈ piece ∧ ¬ Doubled piece) →
      resolveInline data o id =
        (.error (.annotated ("[[/".toList ++ o.name ++ "]]".toList) amount
          (.unconsumed (((pieces.map sides).filter fun pair => pair.1 ≠ pair.2).map Prod.fst) [])),
          id)) ∧
    ((∀ piece ∈ pieces, '=' ∈ piece → Doubled piece) →
      resolveInline data o id =
        (.ok (labelled (Text.joined [' '] (pieces.map fun piece => (sides piece).2)) label), id)) ∧
    (resolveInline data o id = (.ok (labelled amount label), id) ↔
      ∀ piece ∈ pieces, '=' ∉ piece) := by
  intro amount label pieces
  have run : resolveInline data o id = _ :=
    (congrFun (resolveInline_eq_handle data named bare) id).trans (handle_roll _ _ id)
  rw [Arguments.outcome_ok, Arguments.takePositional_eq, Arguments.unused_useAll_isPositional,
    unused_rollArguments] at run
  have nothing_left : (pieces.map sides).filter (fun pair => pair.1 ≠ pair.2) = [] ↔
      ∀ piece ∈ pieces, '=' ∈ piece → Doubled piece := by
    simp [List.filter_eq_nil_iff, sides_eq_iff]
  have shown : (∀ piece ∈ pieces, '=' ∈ piece → Doubled piece) → resolveInline data o id =
      (.ok (labelled (Text.joined [' '] (pieces.map fun piece => (sides piece).2)) label), id) := by
    intro doubled
    have all : (pieces.map sides).filter (fun pair => pair.1 = pair.2) = pieces.map sides := by
      simpa [List.filter_eq_self, sides_eq_iff] using doubled
    rw [run, if_pos (nothing_left.mpr doubled), all, List.map_map]
    rfl
  have refused : (¬ ∀ piece ∈ pieces, '=' ∈ piece → Doubled piece) → resolveInline data o id =
      (.error (.annotated ("[[/".toList ++ o.name ++ "]]".toList) amount
        (.unconsumed (((pieces.map sides).filter fun pair => pair.1 ≠ pair.2).map Prod.fst) [])),
        id) := by
    intro keyed
    rw [run, if_neg (mt nothing_left.mp keyed), Arguments.leftover_keyed]
    rfl
  refine ⟨fun ⟨piece, hp, cut, single⟩ => refused fun doubled => single (doubled piece hp cut),
    shown, ?_⟩
  constructor
  · intro whole
    by_cases doubled : ∀ piece ∈ pieces, '=' ∈ piece → Doubled piece
    · rw [shown doubled] at whole
      exact joined_sides_eq_iff.mp (labelled_inj.mp (Except.ok.inj (Prod.mk.inj whole).1))
    · rw [refused doubled] at whole
      cases whole
  · intro plain
    rw [shown fun piece hp cut => absurd cut (plain piece hp), joined_sides_eq_iff.mpr plain]

/-- A roll that repeats a piece, with a label. -/
def fireRoll : Occurrence := ⟨.inline, "GMR".toList, " 2d6 + 2d6 #fire".toList, none⟩

/-- A roll with a key, a doubled piece and a positional one. -/
def dcRoll : Occurrence := ⟨.inline, "r".toList, "1d20 dc=15 x=x".toList, none⟩

theorem resolveInline_fireRoll_and_dcRoll :
    (fireRoll.name.lowerAscii ∈ rollNames ∧ fireRoll.display = none ∧
      resolveInline .empty fireRoll 1 = (.ok "2d6 + 2d6 fire".toList, 1)) ∧
    dcRoll.name.lowerAscii ∈ rollNames ∧ dcRoll.display = none ∧
      resolveInline .empty dcRoll 1 =
        (.error (.annotated "[[/r]]".toList "1d20 dc=15 x=x".toList
          (.unconsumed ["dc".toList] [])), 1) := by
  have named : fireRoll.name.lowerAscii ∈ rollNames := by decide
  have named' : dcRoll.name.lowerAscii ∈ rollNames := by decide
  have plain : ∀ piece ∈ piecesOf (amountOf fireRoll.payload), '=' ∉ piece := by decide
  have keyed : ∃ piece ∈ piecesOf (amountOf dcRoll.payload), '=' ∈ piece ∧ ¬ Doubled piece := by
    refine ⟨"dc=15".toList, by decide, by decide, ?_⟩
    rintro doubled
    exact absurd (sides_eq_iff.mpr fun _ => doubled) (by decide)
  exact ⟨⟨named, rfl, (resolveInline_roll .empty named rfl 1).2.2.mpr plain⟩, named', rfl,
    (resolveInline_roll .empty named' rfl 1).1 keyed⟩

/-- A roll whose only piece is doubled. -/
def doubledRoll : Occurrence := ⟨.inline, "r".toList, "2=2".toList, none⟩

/-- Not every roll with an equals sign is refused: of `2=2` one half is shown. -/
theorem not_refused_doubledRoll :
    ¬ ∀ (data : RollData) (o : Occurrence) (id : Nat),
      o.name.lowerAscii ∈ rollNames → o.display = none →
      (∃ piece ∈ piecesOf (amountOf o.payload), '=' ∈ piece) →
      ∃ keyed positional, (resolveInline data o id).1 =
        .error (.annotated ("[[/".toList ++ o.name ++ "]]".toList) (amountOf o.payload)
          (.unconsumed keyed positional)) := by
  intro h
  obtain ⟨keyed, positional, refused⟩ :=
    h .empty doubledRoll 1 (by decide) rfl ⟨"2=2".toList, by decide, by decide⟩
  have shown : (resolveInline .empty doubledRoll 1).1 = .ok ['2'] := by decide
  rw [shown] at refused
  cases refused

end Enricher

end RuleText
